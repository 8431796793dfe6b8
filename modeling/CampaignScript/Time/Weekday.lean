import CampaignScript.Text.Enumeration
import CampaignScript.Text.Lowercase

/-! The days of the week and their English names. -/
namespace CampaignScript

inductive Weekday where
  | monday
  | tuesday
  | wednesday
  | thursday
  | friday
  | saturday
  | sunday
deriving DecidableEq, Repr

namespace Weekday

def all : List Weekday :=
  [monday, tuesday, wednesday, thursday, friday, saturday, sunday]

/-- The English name in small letters. -/
def name : Weekday → Text
  | monday => "monday".toList
  | tuesday => "tuesday".toList
  | wednesday => "wednesday".toList
  | thursday => "thursday".toList
  | friday => "friday".toList
  | saturday => "saturday".toList
  | sunday => "sunday".toList

/-- The place in the week, counted from Monday as 1. -/
def number : Weekday → Nat
  | monday => 1
  | tuesday => 2
  | wednesday => 3
  | thursday => 4
  | friday => 5
  | saturday => 6
  | sunday => 7

/-- The day with the given English name, in any letter case. -/
def ofName? (text : Text) : Option Weekday :=
  all.find? fun day => day.name == text.lowercase

/-- The days of an enumeration, or its first item that is not a day. -/
def ofEnumeration (text : Text) : Except Text (List Weekday) :=
  Enumeration.read ofName? text

end Weekday

end CampaignScript
