import InputResolution.Toml.Quoted

namespace InputResolution.Toml

/-! Tokens of TOML.  Comments leave no token: they run up to a line ending or
the end of the text, and nothing tells a place with a comment from the same
place without it. -/

inductive Token where
  | blank (text : Text)
  | newline
  | equals
  | dot
  | comma
  | openBracket
  | closeBracket
  | openBrace
  | closeBrace
  | quoted (multiline : Bool) (content : Text)
  | bare (text : Text)
  deriving DecidableEq, Repr

def punctuation? : Char → Option Token
  | '=' => some .equals
  | '.' => some .dot
  | ',' => some .comma
  | '[' => some .openBracket
  | ']' => some .closeBracket
  | '{' => some .openBrace
  | '}' => some .closeBrace
  | _ => none

/-- What goes on with bare text.  A quote does, because it opens a string only
where a token begins. -/
def continuesBare (c : Char) : Bool :=
  ! (isBlank c || c == '\n' || c == '\r' || c == '#' || (punctuation? c).isSome)

/-- What follows a comment.  A carriage return ends it only as part of a line
ending. -/
def afterComment? : Text → Option Text
  | [] => some []
  | '\n' :: rest => some ('\n' :: rest)
  | '\r' :: '\n' :: rest => some ('\r' :: '\n' :: rest)
  | c :: rest => if isControl c then none else afterComment? rest

def quotedToken (multiline : Bool) (read : Option (Text × Text)) :
    Option (List Token × Text) :=
  read.map fun parts => ([.quoted multiline parts.1], parts.2)

def tokenAt? (c : Char) (rest : Text) : Option (List Token × Text) :=
  match c, rest with
  | '\n', rest => some ([.newline], rest)
  | '\r', '\n' :: rest => some ([.newline], rest)
  | '\r', _ => none
  | '#', rest => (afterComment? rest).map fun after => ([], after)
  | '"', '"' :: '"' :: rest =>
      quotedToken true (readMultilineBasic .plain (dropFirstEnding rest))
  | '"', rest => quotedToken false (readBasic .plain rest)
  | '\'', '\'' :: '\'' :: rest =>
      quotedToken true (readMultilineLiteral (dropFirstEnding rest))
  | '\'', rest => quotedToken false (readLiteral rest)
  | c, rest =>
      match punctuation? c with
      | some token => some ([token], rest)
      | none =>
          let joins := if isBlank c then isBlank else continuesBare
          let text := c :: rest.takeWhile joins
          some ([if isBlank c then .blank text else .bare text],
            rest.dropWhile joins)

def tokensWithin? : (characters : Nat) → Text → Option (List Token)
  | _, [] => some []
  | 0, _ => none
  | characters + 1, c :: rest =>
      match tokenAt? c rest with
      | none => none
      | some (read, after) => (tokensWithin? characters after).map (read ++ ·)

def tokens? (text : Text) : Option (List Token) :=
  tokensWithin? text.length text

end InputResolution.Toml
