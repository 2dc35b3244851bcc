import InputResolution.Toml.Scalar
import InputResolution.Toml.Table
import InputResolution.Toml.Token

namespace InputResolution.Toml

/-! TOML documents, with the additions of version 1.1: line endings and a last
comma in tables in braces, the escapes of an escape character and of two
hexadecimal digits, and times without seconds. -/

/-- How deep brackets and braces may stand in one another, and how many keys may
stand before the last one of a dotted key. -/
def depthLimit : Nat := 80

def isSpacing : Token → Bool
  | .blank _ => true
  | .newline => true
  | _ => false

def isBlankToken : Token → Bool
  | .blank _ => true
  | _ => false

def skipSpacing (tokens : List Token) : List Token :=
  tokens.dropWhile isSpacing

def skipBlank (tokens : List Token) : List Token :=
  tokens.dropWhile isBlankToken

/-! Keys. -/

def isKeyCharacter (c : Char) : Bool :=
  c.isAlphanum || c == '-' || c == '_'

def key? : Token → Option Text
  | .bare text => if text.all isKeyCharacter then some text else none
  | .quoted false content => some content
  | _ => none

def loneKey? (tokens : List Token) : Option Text :=
  match tokens.filter (! isBlankToken ·) with
  | [token] => key? token
  | _ => none

def dottedKey? (tokens : List Token) : Option (List Text × Text) := do
  let keys ← (Text.pieces (· == .dot) tokens).mapM loneKey?
  let last ← keys.getLast?
  if keys.length ≤ depthLimit then some (keys.dropLast, last) else none

/-! Values. -/

/-- Text without quotes goes on over dots. -/
def joinBare (text : Text) : List Token → Text × List Token
  | .dot :: tokens => joinBare (text ++ ['.']) tokens
  | .bare more :: tokens => joinBare (text ++ more) tokens
  | tokens => (text, tokens)

def startsWithDigit (text : Text) : Bool :=
  (text.head?.map Char.isDigit).getD false

/-- A single space may stand between a date and a time. -/
def joinTime (text : Text) (tokens : List Token) : Text × List Token :=
  match tokens with
  | .blank [' '] :: .bare time :: rest =>
      if afterDate? text = some [] ∧ startsWithDigit time then
        joinBare (text ++ ' ' :: time) rest
      else (text, tokens)
  | _ => (text, tokens)

abbrev ValueReader := List Token → Option (Value × List Token)

def scalar? : ValueReader
  | .quoted _ content :: rest => some (.scalar (.string content), rest)
  | .bare text :: rest =>
      let (text, rest) := joinBare text rest
      let (text, rest) := joinTime text rest
      (scalarOfText? text).map fun value => (.scalar value, rest)
  | _ => none

def items? (item : ValueReader) : (tokens : Nat) → List Value → ValueReader
  | 0, _, _ => none
  | left + 1, items, tokens =>
      match skipSpacing tokens with
      | .closeBracket :: rest => some (.array items, rest)
      | tokens =>
          match item tokens with
          | none => none
          | some (value, rest) =>
              match skipSpacing rest with
              | .comma :: rest => items? item left (items ++ [value]) rest
              | .closeBracket :: rest => some (.array (items ++ [value]), rest)
              | _ => none

def dropLastWhile (skips : Token → Bool) (tokens : List Token) : List Token :=
  (tokens.reverse.dropWhile skips).reverse

def keyValue? (skips : Token → Bool) (value : ValueReader)
    (tokens : List Token) :
    Option ((List Text × Text) × Value × List Token) := do
  let keys ← dottedKey? (dropLastWhile skips (tokens.takeWhile (· != .equals)))
  let read ← value ((tokens.dropWhile (· != .equals)).tail.dropWhile skips)
  some (keys, read)

/-- Reads keys and values up to the closing brace.  A comma may follow the last
one, and inside the braces a line may end on either side of an equals sign. -/
def members? (value : ValueReader) : (tokens : Nat) → Value → ValueReader
  | 0, _, _ => none
  | left + 1, table, tokens =>
      match skipSpacing tokens with
      | .closeBrace :: rest => some (table, rest)
      | tokens => do
          let ((path, key), member, rest) ← keyValue? isSpacing value tokens
          let extended ← (Draft.mk table []).put path key member
          match skipSpacing rest with
          | .comma :: rest => members? value left extended.top rest
          | .closeBrace :: rest => some (extended.top, rest)
          | _ => none

def value? : (depth : Nat) → ValueReader
  | 0, tokens => scalar? tokens
  | depth + 1, tokens =>
      match tokens with
      | .openBracket :: rest => items? (value? depth) tokens.length [] rest
      | .openBrace :: rest =>
          members? (value? depth) tokens.length (.table .inline []) rest
      | _ => scalar? tokens

/-! Lines. -/

def headerKey? (tokens : List Token) : Option (List Text × Text) :=
  dottedKey? (tokens.takeWhile (· != .closeBracket))

def expression? (draft : Draft) : List Token → Option (Draft × List Token)
  | .openBracket :: .openBracket :: tokens =>
      match headerKey? tokens, tokens.dropWhile (· != .closeBracket) with
      | some (path, key), .closeBracket :: .closeBracket :: rest =>
          (draft.openListedTable path key).map (·, rest)
      | _, _ => none
  | .openBracket :: tokens =>
      match headerKey? tokens, tokens.dropWhile (· != .closeBracket) with
      | some (path, key), .closeBracket :: rest =>
          (draft.openTable path key).map (·, rest)
      | _, _ => none
  | tokens => do
      let ((path, key), value, rest) ← keyValue? isBlankToken
            (value? depthLimit) tokens
      let extended ← draft.put path key value
      some (extended, rest)

def expressions? : (tokens : Nat) → Draft → List Token → Option Draft
  | 0, draft, tokens =>
      if (skipSpacing tokens).isEmpty then some draft else none
  | left + 1, draft, tokens =>
      match skipSpacing tokens with
      | [] => some draft
      | tokens =>
          match expression? draft tokens with
          | none => none
          | some (draft, rest) =>
              match skipBlank rest with
              | [] => some draft
              | .newline :: rest => expressions? left draft rest
              | _ => none

def dropByteOrderMark : Text → Text
  | '\uFEFF' :: rest => rest
  | text => text

def parse? (text : Text) : Option Entries := do
  let tokens ← tokens? (dropByteOrderMark text)
  let draft ← expressions? tokens.length .empty tokens
  match draft.top with
  | .table _ entries => some entries
  | _ => none

end InputResolution.Toml
