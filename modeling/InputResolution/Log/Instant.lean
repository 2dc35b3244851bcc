import InputResolution.Text.Pieces
import Std.Time.Date.PlainDate

namespace InputResolution.Log

/-! Points in time and the text that stands before a log record. -/

structure Instant where
  seconds : Nat
  nanoseconds : Nat
  deriving DecidableEq, Repr

namespace Instant

def padded (width value : Nat) : Text :=
  let digits := Nat.toDigits 10 value
  List.replicate (width - digits.length) '0' ++ digits

def date (instant : Instant) : Text :=
  let date := Std.Time.PlainDate.ofEpochDay (.ofNat (instant.seconds / 86400))
  Text.join '-' [padded 4 date.year.toInt.toNat, padded 2 date.month.toNat,
    padded 2 date.day.toNat]

def timeOfDay (instant : Instant) : Text :=
  let second := instant.seconds % 86400
  Text.join ':' [padded 2 (second / 3600), padded 2 (second / 60 % 60),
    padded 2 (second % 60)]

/-- As many places as it takes, and no point without them. -/
def fraction (instant : Instant) : Text :=
  match ((padded 9 instant.nanoseconds).reverse.dropWhile
      (· == '0')).reverse with
  | [] => []
  | digits => '.' :: digits

def text (instant : Instant) : Text :=
  instant.date ++ 'T' :: instant.timeOfDay ++ instant.fraction ++ ['Z']

end Instant

end InputResolution.Log
