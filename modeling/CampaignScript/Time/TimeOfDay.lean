import CampaignScript.Text.Enumeration
import CampaignScript.Text.Numeral
import CampaignScript.Text.Phrase

/-! Times of day on the twelve hour clock, written like 9am or 3.30pm. -/
namespace CampaignScript

/-- A time of day. Noon and the hour after it, written as 12pm, count as hour 24. -/
structure TimeOfDay where
  hour : Nat
  minute : Nat
deriving DecidableEq, Repr

namespace TimeOfDay

open Text

/-- The time as one number, with two places for the minutes. -/
def encoded (time : TimeOfDay) : Nat :=
  time.hour * 100 + time.minute

/-- Hour and minute on the face of the clock: an hour up to 12, or such an hour, a point and a
minute up to 59. -/
def clockFace? (text : Text) : Option (Nat × Nat) :=
  match splitAtChar? '.' text with
  | none => do
    let hour ← number? text
    if hour ≤ 12 then some (hour, 0) else none
  | some (hourText, minuteText) => do
    let hour ← number? hourText
    let minute ← number? minuteText
    if hour ≤ 12 ∧ minute ≤ 59 then some (hour, minute) else none

/-- The time before noon that the clock shows; its hour 12 is midnight. -/
def beforeNoon (face : Nat × Nat) : TimeOfDay :=
  { hour := if face.1 = 12 then 0 else face.1, minute := face.2 }

/-- The time after noon that the clock shows. -/
def afterNoon (face : Nat × Nat) : TimeOfDay :=
  { hour := face.1 + 12, minute := face.2 }

/-- The time of day that a text tells, if it tells one. -/
def ofText? (text : Text) : Option TimeOfDay :=
  match beforePhrase? "am".toList text with
  | some face => (clockFace? face).map beforeNoon
  | none => (beforePhrase? "pm".toList text).bind fun face => (clockFace? face).map afterNoon

/-- The times of an enumeration, or its first item that is not a time. -/
def ofEnumeration (text : Text) : Except Text (List TimeOfDay) :=
  Enumeration.read ofText? text

end TimeOfDay

end CampaignScript
