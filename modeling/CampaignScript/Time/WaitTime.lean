import CampaignScript.Text.Lowercase
import CampaignScript.Text.Numeral

/-! Waiting times: an amount, a unit, and the minutes they make together. -/
namespace CampaignScript

/-- The units of waiting time. -/
inductive WaitUnit where
  | minute
  | hour
  | day
deriving DecidableEq, Repr

namespace WaitUnit

def all : List WaitUnit :=
  [minute, hour, day]

/-- The minutes in one of the unit. -/
def minutes : WaitUnit → Nat
  | minute => 1
  | hour => 60
  | day => 1440

/-- The names of the unit in small letters. -/
def names : WaitUnit → List Text
  | minute => ["minute".toList, "minutes".toList, "mins".toList]
  | hour => ["hour".toList, "hours".toList]
  | day => ["day".toList, "days".toList]

/-- The unit with the given name, in any letter case. -/
def ofName? (text : Text) : Option WaitUnit :=
  all.find? fun unit => unit.names.contains text.lowercase

end WaitUnit

namespace WaitTime

open Text

/-- Amounts and waiting times stay below this number, the thirty-second power of two. -/
def limit : Nat := 4294967296

/-- A number of minutes or amount that is not too great. -/
def bounded? (n : Nat) : Option Nat :=
  if n < limit then some n else none

/-- The number in the digits that a text starts with. -/
def leadingNumber? (text : Text) : Option Nat :=
  (number? (text.takeWhile Char.isDigit)).bind bounded?

/-- The whole number that an amount starts with, whatever follows it, so that 2.5 is 2. A sign may
stand in front; no time before now can be waited for, so a negative amount is none. -/
def amount? : Text → Option Nat
  | '-' :: text => (leadingNumber? text).filter (· == 0)
  | '+' :: text => leadingNumber? text
  | text => leadingNumber? text

end WaitTime

end CampaignScript
