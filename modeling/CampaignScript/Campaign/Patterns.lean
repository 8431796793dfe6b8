import CampaignScript.Campaign.Sentence
import CampaignScript.Text.Pattern
import CampaignScript.Time.TimeOfDay
import CampaignScript.Time.WaitTime

/-! The patterns that tell what a line is and what its values are. The readers of sentences and
values do without patterns; those here say the same in patterns. -/
namespace CampaignScript

open Pattern

namespace TriggerSentence

def eventPattern : List Pattern :=
  [phrase "when a user ".toList, group (fewest onLine), stop]

def recurringPattern : List Pattern :=
  [phrase "every ".toList, group (fewest onLine), phrase " at ".toList, group (fewest onLine), stop]

def oneOffPattern : List Pattern :=
  [phrase "on ".toList, group (both (one onLine) (fewest onLine)), phrase " at ".toList,
    group (both (one onLine) (fewest onLine)), stop]

/-- What each kind of trigger is told by, in the order in which they are tried. -/
def patterns : List (List Pattern × (List Text → TriggerSentence)) :=
  [(eventPattern, fun groups => event (groupAt groups 0)),
    (recurringPattern, fun groups => recurring (groupAt groups 0) (groupAt groups 1)),
    (oneOffPattern, fun groups => oneOff (groupAt groups 0) (groupAt groups 1))]

end TriggerSentence

namespace StepSentence

def emailPattern : List Pattern :=
  [phrase "send the ".toList, group (fewest onLine), phrase " email".toList,
    optional (phrase " with custom fields".toList), stop]

def conditionPattern : List Pattern :=
  [phrase "if ".toList, group (fewest onLine), stop]

def waitPattern : List Pattern :=
  [phrase "wait for ".toList, group (fewest onLine), phrase " ".toList, group (fewest onLine), stop]

/-- What each kind of step is told by, in the order in which they are tried. -/
def patterns : List (List Pattern × (List Text → StepSentence)) :=
  [(emailPattern, fun groups => email (groupAt groups 0)),
    (conditionPattern, fun groups => condition (groupAt groups 0)),
    (waitPattern, fun groups => wait (groupAt groups 0) (groupAt groups 1))]

end StepSentence

namespace WaitTime

def digits : Pattern :=
  group (both (one Char.isDigit) (most Char.isDigit))

/-- A sign, if there is one, and digits. -/
def amountPattern : Pattern :=
  seq [group (optional (one fun c => c = '+' || c = '-')), digits]

/-- The amount that a text starts with, by its pattern. -/
def amountByPattern? (text : Text) : Option Nat := do
  let groups ← amountPattern.captures? text
  let number ← (Text.number? (groupAt groups 1)).bind bounded?
  if groupAt groups 0 = ['-'] ∧ number ≠ 0 then none else some number

end WaitTime

namespace TimeOfDay

def isFigure (c : Char) : Bool :=
  c.isDigit || c = '.'

/-- Digits and points, and then the half of the day. -/
def pattern : Pattern :=
  seq [group (both (one isFigure) (most isFigure)),
    group (either (phrase "am".toList) (phrase "pm".toList)), stop]

/-- A number of one byte. -/
def byte? (text : Text) : Option Nat :=
  (Text.number? text).filter (· < 256)

/-- The hour and minute that digits and points tell, if the hour is up to 12 and the minute up to
59. -/
def faceOfParts? : List Text → Option (Nat × Nat)
  | [hourText] => do
    let hour ← byte? hourText
    if hour > 12 then none else some (hour, 0)
  | [hourText, minuteText] => do
    let hour ← byte? hourText
    let minute ← byte? minuteText
    if hour > 12 ∨ minute > 59 then none else some (hour, minute)
  | _ => none

/-- The time of day that a text tells, by its pattern. -/
def byPattern? (text : Text) : Option TimeOfDay := do
  let groups ← pattern.captures? text
  let face ← faceOfParts? ((groupAt groups 0).splitOn '.')
  let half := (groupAt groups 1).map Char.toLower
  if half = "am".toList then some (beforeNoon face)
  else if half = "pm".toList then some (afterNoon face)
  else none

end TimeOfDay

namespace Enumeration

/-- What stands between the items of an enumeration. -/
def separator : Pattern :=
  either (exactly ",".toList) (exactly " and ".toList)

end Enumeration

end CampaignScript
