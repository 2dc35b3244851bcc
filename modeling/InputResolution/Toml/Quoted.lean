import InputResolution.Text.CodePoint

namespace InputResolution.Toml

/-! Quoted strings of TOML, read from the character after the opening quotes.
Each reader gives the content and the text after the closing quotes. -/

def isControl (c : Char) : Bool :=
  (c.toNat < 0x20 && c != '\t') || c.toNat == 0x7F

def simpleEscape? : Char → Option Char
  | 'b' => some '\x08'
  | 't' => some '\t'
  | 'n' => some '\n'
  | 'f' => some '\x0c'
  | 'r' => some '\r'
  | 'e' => some '\x1b'
  | '"' => some '"'
  | '\\' => some '\\'
  | _ => none

inductive Reading where
  | plain
  | escape
  | code (digitsLeft value : Nat)
  /-- After a backslash and blanks, before the line ending they lead to. -/
  | continuation
  | trimming
  deriving DecidableEq, Repr

def prepend (c : Char) (read : Option (Text × Text)) : Option (Text × Text) :=
  read.map fun parts => (c :: parts.1, parts.2)

def afterCode (digitsLeft value digit : Nat)
    (next : Reading → Option (Text × Text)) :
    Option (Text × Text) :=
  let value := value * 16 + digit
  if digitsLeft ≤ 1 then
    match Text.codePoint? value with
    | none => none
    | some c => prepend c (next .plain)
  else next (.code (digitsLeft - 1) value)

def readBasic : Reading → Text → Option (Text × Text)
  | _, [] => none
  | .plain, c :: rest =>
      if c = '"' then some ([], rest)
      else if c = '\\' then readBasic .escape rest
      else if isControl c then none
      else prepend c (readBasic .plain rest)
  | .escape, c :: rest =>
      match simpleEscape? c, Text.codeLength? c with
      | some meant, _ => prepend meant (readBasic .plain rest)
      | none, some digits => readBasic (.code digits 0) rest
      | none, none => none
  | .code digitsLeft value, c :: rest =>
      match Text.hexDigit? c with
      | none => none
      | some digit =>
          afterCode digitsLeft value digit fun reading => readBasic reading rest
  | _, _ => none

def isBlank (c : Char) : Bool :=
  c == ' ' || c == '\t'

def afterTrimmed : Text → Reading
  | [] => .plain
  | c :: _ => if isBlank c || c == '\n' || c == '\r' then .trimming else .plain

/-- Up to two quotes may stand right before the three that close. -/
def readMultilineBasic : Reading → Text → Option (Text × Text)
  | .plain, '"' :: '"' :: '"' :: '"' :: '"' :: rest => some (['"', '"'], rest)
  | .plain, '"' :: '"' :: '"' :: '"' :: rest => some (['"'], rest)
  | .plain, '"' :: '"' :: '"' :: rest => some ([], rest)
  | .plain, '\r' :: '\n' :: rest =>
      prepend '\r' (prepend '\n' (readMultilineBasic .plain rest))
  | .plain, c :: rest =>
      if c = '\\' then readMultilineBasic .escape rest
      else if isControl c && c != '\n' then none
      else prepend c (readMultilineBasic .plain rest)
  | .escape, '\r' :: '\n' :: rest => readMultilineBasic (afterTrimmed rest) rest
  | .escape, c :: rest =>
      match simpleEscape? c, Text.codeLength? c with
      | some meant, _ => prepend meant (readMultilineBasic .plain rest)
      | none, some digits => readMultilineBasic (.code digits 0) rest
      | none, none =>
          if c = '\n' then readMultilineBasic (afterTrimmed rest) rest
          else if isBlank c then readMultilineBasic .continuation rest
          else none
  | .code digitsLeft value, c :: rest =>
      match Text.hexDigit? c with
      | none => none
      | some digit =>
          afterCode digitsLeft value digit fun reading =>
            readMultilineBasic reading rest
  | .continuation, '\r' :: '\n' :: rest =>
      readMultilineBasic (afterTrimmed rest) rest
  | .continuation, c :: rest =>
      if c = '\n' then readMultilineBasic (afterTrimmed rest) rest
      else if isBlank c then readMultilineBasic .continuation rest
      else none
  | .trimming, '\r' :: '\n' :: rest =>
      readMultilineBasic (afterTrimmed rest) rest
  | .trimming, c :: rest =>
      if isBlank c || c == '\n' then readMultilineBasic (afterTrimmed rest) rest
      else none
  | _, [] => none

def readLiteral : Text → Option (Text × Text)
  | [] => none
  | c :: rest =>
      if c = '\'' then some ([], rest)
      else if isControl c then none
      else prepend c (readLiteral rest)

def readMultilineLiteral : Text → Option (Text × Text)
  | '\'' :: '\'' :: '\'' :: '\'' :: '\'' :: rest => some (['\'', '\''], rest)
  | '\'' :: '\'' :: '\'' :: '\'' :: rest => some (['\''], rest)
  | '\'' :: '\'' :: '\'' :: rest => some ([], rest)
  | '\r' :: '\n' :: rest =>
      prepend '\r' (prepend '\n' (readMultilineLiteral rest))
  | c :: rest =>
      if isControl c && c != '\n' then none
      else prepend c (readMultilineLiteral rest)
  | [] => none

/-- A line ending right after the opening quotes of a multi-line string is no
part of it. -/
def dropFirstEnding : Text → Text
  | '\n' :: rest => rest
  | '\r' :: '\n' :: rest => rest
  | text => text

end InputResolution.Toml
