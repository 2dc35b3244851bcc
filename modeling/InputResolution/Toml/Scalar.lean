import InputResolution.Toml.Quoted
import InputResolution.Toml.Value

namespace InputResolution.Toml

/-! Values written without quotes: booleans, numbers, dates and times. -/

def valueOf (base : Nat) (digits : List Char) : Nat :=
  digits.foldl (fun value c => value * base + (Text.hexDigit? c).getD 0) 0

def splitSign : Text → Bool × Text
  | '+' :: rest => (false, rest)
  | '-' :: rest => (true, rest)
  | text => (false, text)

def isSign (c : Char) : Bool :=
  c == '+' || c == '-'

def applySign (isNegative : Bool) (magnitude : Nat) : Int :=
  if isNegative then -(magnitude : Int) else magnitude

/-! Underscores between digits. -/

def isSeparator (c : Char) : Bool :=
  c == '_'

def dropSeparators (text : Text) : Text :=
  text.filter (! isSeparator ·)

def isHexDigit (c : Char) : Bool :=
  (Text.hexDigit? c).isSome

/-- Underscores stand alone, each between two digits.  A sign may take the place
of the first of them, and only the digits at the underscores are looked at. -/
def separatorsFit (isDigit : Char → Bool) (text : Text) : Bool :=
  match Text.pieces isSeparator text with
  | first :: second :: more =>
      let later := second :: more
      (first.getLast?.any isDigit || (first.length == 1 && first.all isSign)) &&
        (later.all (·.head?.any isDigit)) &&
        later.dropLast.all (·.getLast?.any isDigit)
  | _ => true

def isDigitOrSeparator (c : Char) : Bool :=
  c.isDigit || isSeparator c

def splitDigits (text : Text) : List Char × Text :=
  (dropSeparators (text.takeWhile isDigitOrSeparator),
    text.dropWhile isDigitOrSeparator)

/-! Integers. -/

def isDigitOf (base : Nat) (c : Char) : Bool :=
  (Text.hexDigit? c).any (· < base)

def integerOf (base : Nat) (isNegative : Bool) (digits : Text) : Scalar :=
  if digits.isEmpty || ! digits.all (isDigitOf base) then .brokenInteger
  else .integer (applySign isNegative (valueOf base digits))

/-- A decimal integer begins with a zero only if it is zero. -/
def decimalInteger? (text : Text) : Option Scalar :=
  let (isNegative, magnitude) := splitSign text
  if magnitude.isEmpty ||
  (magnitude.head? == some '0' && magnitude != ['0']) then none
  else if separatorsFit isHexDigit text then
    some (integerOf 10 isNegative (dropSeparators magnitude))
  else none

/-- The base that a prefix stands for, and the text after it.  A number with a
prefix has no sign. -/
def splitBase? : Text → Option (Nat × Text)
  | '0' :: 'x' :: digits => some (16, digits)
  | '0' :: 'o' :: digits => some (8, digits)
  | '0' :: 'b' :: digits => some (2, digits)
  | _ => none

def prefixedInteger? (base : Nat) (text : Text) : Option Scalar :=
  let digits := dropSeparators text
  if digits.all (isDigitOf base) && separatorsFit isHexDigit text then
    some (integerOf base false digits)
  else none

/-! Decimal numbers. -/

def fraction? : Text → Option (List Char × Text)
  | '.' :: text =>
      let (digits, rest) := splitDigits text
      if digits.isEmpty then none else some (digits, rest)
  | text => some ([], text)

/-- An exponent may begin with zeros, and nothing follows it. -/
def exponent? : Text → Option Int
  | [] => some 0
  | letter :: text =>
      let (isNegative, magnitude) := splitSign text
      let (digits, rest) := splitDigits magnitude
      if (letter == 'e' || letter == 'E') && ! digits.isEmpty &&
      rest.isEmpty then
        some (applySign isNegative (valueOf 10 digits))
      else none

/-- A decimal number begins with a zero only if no other digit stands before its
point. -/
def decimal? (text : Text) : Option Decimal := do
  let magnitude := (splitSign text).2
  let (whole, rest) := splitDigits magnitude
  let (fraction, rest) ← fraction? rest
  let exponent ← exponent? rest
  if whole.isEmpty || (magnitude.head? == some '0' && whole.length > 1) ||
      ! separatorsFit Char.isDigit text then
    none
  else some ⟨valueOf 10 (whole ++ fraction), exponent - fraction.length⟩

def isNonFinite (text : Text) : Bool :=
  let magnitude := (splitSign text).2
  magnitude == "inf".toList || magnitude == "nan".toList

/-! Dates and times. -/

def twoDigits? : Text → Option (Nat × Text)
  | tens :: units :: rest =>
      if tens.isDigit && units.isDigit then
        some (valueOf 10 [tens, units], rest) else none
  | _ => none

def skip? (c : Char) : Text → Option Text
  | [] => none
  | first :: rest => if first = c then some rest else none

def isLeapYear (year : Nat) : Bool :=
  year % 4 == 0 && (year % 100 != 0 || year % 400 == 0)

def daysIn (year month : Nat) : Nat :=
  if month = 2 then if isLeapYear year then 29 else 28
  else if month = 4 ∨ month = 6 ∨ month = 9 ∨ month = 11 then 30
  else 31

def afterDate? (text : Text) : Option Text := do
  let (century, rest) ← twoDigits? text
  let (year, rest) ← twoDigits? rest
  let rest ← skip? '-' rest
  let (month, rest) ← twoDigits? rest
  let rest ← skip? '-' rest
  let (day, rest) ← twoDigits? rest
  if 1 ≤ month ∧ month ≤ 12 ∧ 1 ≤ day ∧
  day ≤ daysIn (century * 100 + year) month then some rest
  else none

/-- Seconds are optional, and so is their fraction.  A minute may have a leap
second. -/
def afterSeconds? : Text → Option Text
  | ':' :: rest => do
      let (second, rest) ← twoDigits? rest
      if second > 60 then none
      else
        match rest with
        | '.' :: digits =>
            if (digits.head?.map Char.isDigit).getD false then
              some (digits.dropWhile Char.isDigit)
            else none
        | _ => some rest
  | rest => some rest

def afterHourAndMinute? (text : Text) : Option Text := do
  let (hour, rest) ← twoDigits? text
  let rest ← skip? ':' rest
  let (minute, rest) ← twoDigits? rest
  if hour ≤ 23 ∧ minute ≤ 59 then some rest else none

def afterTime? (text : Text) : Option Text :=
  (afterHourAndMinute? text).bind afterSeconds?

def isOffset : Text → Bool
  | [] => true
  | ['Z'] => true
  | ['z'] => true
  | '+' :: rest => afterHourAndMinute? rest == some []
  | '-' :: rest => afterHourAndMinute? rest == some []
  | _ => false

def separatesTime (c : Char) : Bool :=
  c == 'T' || c == 't' || c == ' '

def isDateTime (text : Text) : Bool :=
  match afterDate? text with
  | some [] => true
  | some (c :: time) => separatesTime c && (afterTime? time).any isOffset
  | none => afterTime? text == some []

/-! Telling them apart. -/

def marksDateTime (c : Char) : Bool :=
  c == '-' || c == ':'

def marksDecimal (c : Char) : Bool :=
  c == '.' || c == 'e' || c == 'E'

def number? (text : Text) : Option Scalar :=
  let rest := (splitSign text).2.dropWhile Char.isDigit
  if rest.head?.any marksDateTime then if isDateTime text then some .dateTime
  else none
  else if rest.any marksDecimal then (decimal? text).map .decimal
  else if rest.head?.all isSeparator then decimalInteger? text
  else none

def scalarOfText? (text : Text) : Option Scalar :=
  if text = "true".toList then some (.boolean true)
  else if text = "false".toList then some (.boolean false)
  else if isNonFinite text then some .nonFinite
  else
    match splitBase? text with
    | some (base, digits) => prefixedInteger? base digits
    | none => number? text

end InputResolution.Toml
