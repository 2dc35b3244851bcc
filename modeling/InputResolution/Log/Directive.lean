import InputResolution.Pattern.Reading

namespace InputResolution.Log

/-! Directives of log filters.  A directive is a level, or a target with a
level, and it may name a span and a field in brackets after the target. -/

/-- The highest level rank that is written; nothing is at rank zero. -/
abbrev Threshold := Nat

def Threshold.all : Threshold := 5

structure WantedField where
  name : Text
  hasValue : Bool
  deriving DecidableEq, Repr

structure Directive where
  threshold : Threshold
  target : Option Text
  span : Option Text
  field : Option WantedField
  deriving DecidableEq, Repr

/-! Levels. -/

def lowercase (text : Text) : Text :=
  text.map Char.toLower

def rankOfName? (text : Text) : Option Threshold :=
  let lower := lowercase text
  if lower.isEmpty ∨ lower = "error".toList then some 1
  else if lower = "warn".toList then some 2
  else if lower = "info".toList then some 3
  else if lower = "debug".toList then some 4
  else if lower = "trace".toList then some 5
  else if lower = "off".toList then some 0
  else none

/-- A number may have a plus sign and leading zeros. -/
def rankOfNumber? (text : Text) : Option Threshold :=
  let digits := if text.head? = some '+' then text.tail else text
  if digits.isEmpty ∨ ! digits.all Char.isDigit then none
  else
    let value :=
      digits.foldl (fun value c => value * 10 + (c.toNat - '0'.toNat)) 0
    if value ≤ 5 then some value else none

def threshold? (text : Text) : Option Threshold :=
  (rankOfNumber? text).or (rankOfName? text)

/-- A target without a level is written at every level. -/
def givenThreshold? (text : Text) : Option Threshold :=
  if text.isEmpty then some .all else threshold? text

/-! Fields. -/

def dropSign (text : Text) : Text :=
  match text with
  | '+' :: rest => rest
  | '-' :: rest => rest
  | _ => text

def isExponent : Text → Bool
  | [] => true
  | letter :: rest =>
      let digits := dropSign rest
      (letter == 'e' || letter == 'E') && ! digits.isEmpty &&
      digits.all Char.isDigit

def isDecimal (text : Text) : Bool :=
  let whole := text.takeWhile Char.isDigit
  match text.dropWhile Char.isDigit with
  | '.' :: rest =>
      ! (whole.isEmpty && (rest.takeWhile Char.isDigit).isEmpty) &&
        isExponent (rest.dropWhile Char.isDigit)
  | rest => ! whole.isEmpty && isExponent rest

def isNumber (text : Text) : Bool :=
  let magnitude := dropSign text
  let lower := lowercase magnitude
  lower == "inf".toList || lower == "infinity".toList ||
  lower == "nan".toList ||
    isDecimal magnitude

/-- A value is a number or a pattern; truth values are patterns too. -/
def isValue (text : Text) : Bool :=
  isNumber text || Pattern.isUsable text

/-- A name, or a name and a value with an equals sign between them.  What a
second equals sign brings is not looked at. -/
def WantedField.parse? (text : Text) : Option WantedField :=
  match Text.pieces (· == '=') text with
  | name :: value :: _ => if isValue value then some ⟨name, true⟩ else none
  | [name] => if name.isEmpty then none else some ⟨name, false⟩
  | [] => none

/-! Reading.  The marks of a directive are looked for in the text without the
blank space around it, and its parts are cut from the text as written, at the
distances at which the marks were found. So blank space at the start moves all
cuts to the left of their marks. -/

def dropBytes? : Nat → Text → Option Text
  | 0, text => some text
  | _, [] => none
  | bytes, c :: rest =>
      if c.utf8Size ≤ bytes then dropBytes? (bytes - c.utf8Size) rest else none

def takeBytes? : Nat → Text → Option Text
  | 0, _ => some []
  | _, [] => none
  | bytes, c :: rest =>
      if c.utf8Size ≤ bytes then
        (takeBytes? (bytes - c.utf8Size) rest).map (c :: ·) else none

inductive DirectivePart where
  | nothing
  | word (first : Nat)
  | span (first : Nat)
  | field (first : Nat)
  | afterField
  | afterSpan
  | level (first : Nat)
  deriving DecidableEq, Repr

structure DirectiveReader where
  part : DirectivePart
  target : Option Text
  span : Option Text
  field : Option WantedField
  deriving DecidableEq, Repr

namespace DirectiveReader

def start : DirectiveReader := ⟨.nothing, none, none, none⟩

def begins (c : Char) : Bool :=
  c == '-' || c == ':' || c == '_' || Text.isAlphanumeric c

def slice? (written : Text) (first last : Nat) : Option Text :=
  (dropBytes? first written).bind (takeBytes? (last - first))

def step? (written : Text) (reader : DirectiveReader) (distance : Nat)
    (c : Char) :
    Option DirectiveReader :=
  match reader.part with
  | .nothing =>
      if c = '[' then some { reader with part := .span (distance + 1) }
      else if begins c then some { reader with part := .word distance }
      else none
  | .word first =>
      if c = '=' || c = '[' then do
        let target ← slice? written first distance
        let part :=
          if c = '=' then .level (distance + 1) else .span (distance + 1)
        some { reader with part, target := some target }
      else some reader
  | .span first =>
      if c = ']' then do
        let span ← slice? written first distance
        some { reader with part := .afterSpan, span := some span }
      else if c = '\x7b' then do
        let span ← slice? written first distance
        some { reader with
          part := .field (distance + 1)
          span := if span.isEmpty then none else some span }
      else some reader
  | .field first =>
      if c = '\x7d' then do
        let field ← WantedField.parse? (← slice? written first distance)
        some { reader with part := .afterField, field := some field }
      else some reader
  | .afterField =>
      if c = ']' then some { reader with part := .afterSpan } else none
  | .afterSpan =>
      if c = '=' then some { reader with part := .level (distance + 1) }
      else none
  | .level _ => some reader

def readFrom? (written : Text) (reader : DirectiveReader) (distance : Nat) :
    Text → Option DirectiveReader
  | [] => some reader
  | c :: rest => do
      let reader ← reader.step? written distance c
      readFrom? written reader (distance + c.utf8Size) rest

def ofWord (text : Text) : Directive :=
  match threshold? text with
  | some threshold => ⟨threshold, none, none, none⟩
  | none => ⟨.all, some text, none, none⟩

def finish? (written : Text) (reader : DirectiveReader) : Option Directive :=
  match reader.part with
  | .word first => (dropBytes? first written).map ofWord
  | .afterSpan => some ⟨.all, reader.target, reader.span, reader.field⟩
  | .level first => do
      let threshold ← givenThreshold? (← dropBytes? first written)
      some ⟨threshold, reader.target, reader.span, reader.field⟩
  | _ => none

end DirectiveReader

def Directive.parse? (text : Text) : Option Directive := do
  let reader ← DirectiveReader.start.readFrom? text 0 (Text.trim text)
  reader.finish? text

end InputResolution.Log
