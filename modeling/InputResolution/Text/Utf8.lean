import InputResolution.Text.Pieces

namespace InputResolution.Utf8

/-! Decoding of UTF-8.  The decoder reads one byte at a time and keeps what it
has read of the current character.  A byte that cannot continue the character
closes it as ill-formed and is then read again as a first byte, so every
ill-formed stretch is as long as some well-formed character agrees with it. -/

abbrev Bytes := List UInt8

/-- A character under way: the continuation bytes still owed, the range of the
next one and the value of the bits read so far. -/
structure Partial where
  owed : Nat
  low : UInt8
  high : UInt8
  value : Nat
  deriving DecidableEq, Repr

inductive Lead where
  | character (c : Char)
  | opening (unfinished : Partial)
  | illFormed
  deriving DecidableEq, Repr

/-- The first byte fixes the length, and for four of them also narrows the range
of the second byte, which shuts out overlong forms, surrogates and values above
U+10FFFF. -/
def lead (byte : UInt8) : Lead :=
  let bits := byte.toNat
  if byte < 0x80 then .character (Char.ofNat bits)
  else if byte < 0xC2 then .illFormed
  else if byte < 0xE0 then .opening ⟨1, 0x80, 0xBF, bits - 0xC0⟩
  else if byte == 0xE0 then .opening ⟨2, 0xA0, 0xBF, 0⟩
  else if byte == 0xED then .opening ⟨2, 0x80, 0x9F, 0xD⟩
  else if byte < 0xF0 then .opening ⟨2, 0x80, 0xBF, bits - 0xE0⟩
  else if byte == 0xF0 then .opening ⟨3, 0x90, 0xBF, 0⟩
  else if byte < 0xF4 then .opening ⟨3, 0x80, 0xBF, bits - 0xF0⟩
  else if byte == 0xF4 then .opening ⟨3, 0x80, 0x8F, 4⟩
  else .illFormed

def Partial.accepts (unfinished : Partial) (byte : UInt8) : Bool :=
  unfinished.low ≤ byte && byte ≤ unfinished.high

def Partial.extend (unfinished : Partial) (byte : UInt8) : Partial :=
  ⟨unfinished.owed - 1, 0x80, 0xBF, unfinished.value * 64 + (byte.toNat - 0x80)⟩

/-- Each well-formed character as itself and each ill-formed stretch as
`none`. -/
def decodeFrom : Option Partial → Bytes → List (Option Char)
  | none, [] => []
  | some _, [] => [none]
  | none, byte :: rest =>
      match lead byte with
      | .character c => some c :: decodeFrom none rest
      | .opening unfinished => decodeFrom (some unfinished) rest
      | .illFormed => none :: decodeFrom none rest
  | some unfinished, byte :: rest =>
      if unfinished.accepts byte then
        let extended := unfinished.extend byte
        if extended.owed = 0 then
          some (Char.ofNat extended.value) :: decodeFrom none rest
        else decodeFrom (some extended) rest
      else
        none :: match lead byte with
          | .character c => some c :: decodeFrom none rest
          | .opening next => decodeFrom (some next) rest
          | .illFormed => none :: decodeFrom none rest

def replacement : Char := '\uFFFD'

def decodeLossy (bytes : Bytes) : Text :=
  (decodeFrom none bytes).map fun unit => unit.getD replacement

def decode? (bytes : Bytes) : Option Text :=
  (decodeFrom none bytes).mapM id

def encodeChar (c : Char) : Bytes :=
  let value := c.toNat
  let tail (unit : Nat) : UInt8 := UInt8.ofNat (0x80 + value / unit % 0x40)
  if value < 0x80 then [UInt8.ofNat value]
  else if value < 0x800 then [UInt8.ofNat (0xC0 + value / 0x40), tail 1]
  else if value < 0x10000 then
    [UInt8.ofNat (0xE0 + value / 0x1000), tail 0x40, tail 1]
  else [UInt8.ofNat (0xF0 + value / 0x40000), tail 0x1000, tail 0x40, tail 1]

def encode (text : Text) : Bytes :=
  text.flatMap encodeChar

end InputResolution.Utf8
