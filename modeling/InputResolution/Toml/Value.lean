import InputResolution.Text.Pieces

namespace InputResolution.Toml

/-! Values of TOML.  A table remembers how it came about, because that decides
who may add to it. -/

/-- A decimal number without its sign: the digits as a natural number, scaled by
a power of ten. -/
structure Decimal where
  digits : Nat
  exponent : Int
  deriving DecidableEq, Repr

inductive Scalar where
  | string (text : Text)
  | boolean (value : Bool)
  | integer (value : Int)
  | brokenInteger
  | decimal (magnitude : Decimal)
  | nonFinite
  | dateTime
  deriving DecidableEq, Repr

inductive TableOrigin where
  | inline
  | header
  /-- Passed through by the header of a table below it. -/
  | passed
  | dotted
  deriving DecidableEq, Repr

inductive Value where
  | scalar (value : Scalar)
  | array (items : List Value)
  /-- A list of tables, each opened by a header in double brackets. -/
  | tables (items : List Value)
  | table (origin : TableOrigin) (entries : List (Text × Value))

abbrev Entries := List (Text × Value)

/-! Numbers that a double or a 128-bit integer can hold. -/

def smallestInteger : Int := -0x80000000000000000000000000000000

def largestInteger : Int := 0xFFFFFFFFFFFFFFFFFFFFFFFFFFFFFFFF

/-- The least magnitude that rounds to infinity: half a unit above the largest
finite double. -/
def overflowBound : Nat := 1 <<< 1024 - 1 <<< 970

/-- The bound has 309 places.  Far from it the number of places decides, so that
no power of ten is worked out for an exponent of any size; near it the
comparison is exact. -/
def Decimal.overflows (magnitude : Decimal) : Bool :=
  let places : Int :=
    (Nat.toDigits 10 magnitude.digits).length + magnitude.exponent
  if magnitude.digits = 0 then false
  else if places ≥ 311 then true
  else if places ≤ 307 then false
  else if magnitude.exponent ≥ 0 then
    magnitude.digits * Nat.pow 10 magnitude.exponent.toNat ≥ overflowBound
  else magnitude.digits ≥ overflowBound * Nat.pow 10 magnitude.exponent.natAbs

/-- A broken integer is refused where its value is asked for, as one is that is
too large. -/
def Scalar.isRepresentable : Scalar → Bool
  | .brokenInteger => false
  | .integer value => smallestInteger ≤ value && value ≤ largestInteger
  | .decimal magnitude => ! magnitude.overflows
  | _ => true

mutual

def Value.isRepresentable : Value → Bool
  | .scalar value => value.isRepresentable
  | .array items => allRepresentable items
  | .tables items => allRepresentable items
  | .table _ entries => entriesRepresentable entries

def allRepresentable : List Value → Bool
  | [] => true
  | item :: items => item.isRepresentable && allRepresentable items

def entriesRepresentable : Entries → Bool
  | [] => true
  | (_, value) :: entries =>
      value.isRepresentable && entriesRepresentable entries

end

end InputResolution.Toml
