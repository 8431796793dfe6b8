import CampaignScript.Campaign.Basic

/-! Campaigns written as scripts: one line for the trigger and for each step, and a line for each
field under its email. Days are in small letters and waiting times in minutes. A campaign with an
absent part has no script. -/
namespace CampaignScript

open Text

/-- The words of an enumeration, divided by commas. -/
def Enumeration.spell (items : List Text) : Text :=
  ", ".toList.intercalate items

/-- The time on the twelve hour clock, with its minutes. -/
def TimeOfDay.spell (time : TimeOfDay) : Text :=
  if time.hour < 12 then numeral time.hour ++ '.' :: numeral time.minute ++ "am".toList
  else numeral (time.hour - 12) ++ '.' :: numeral time.minute ++ "pm".toList

/-- The line of a trigger. A moment needs a date and a time with a space between them; the first
space behind the start of the date is the one that divides them. -/
def Trigger.spell? : Trigger → Option Text
  | event type => some ("when a user ".toList ++ type)
  | recurring (some days) (some times) =>
    some ("every ".toList ++ Enumeration.spell (days.map Weekday.name) ++ " at ".toList ++
      Enumeration.spell (times.map TimeOfDay.spell))
  | recurring _ _ => none
  | oneOff [] => none
  | oneOff (first :: moment) =>
    (splitAtChar? ' ' moment).map fun (date, time) =>
      "on ".toList ++ first :: date ++ " at ".toList ++ time

/-- The lines of a field. Each paragraph of the value but the first stands on a line of its own
behind an empty line, nested under the key. -/
def CustomField.spell (field : CustomField) : List Text :=
  let nested := fun depth => List.replicate (4 * depth) ' '
  match field.value.splitOn '\n' with
  | [] => [nested 1 ++ field.key ++ [':']]
  | first :: paragraphs =>
    (nested 1 ++ field.key ++ ':' :: ' ' :: first) ::
      paragraphs.flatMap fun paragraph => [[], nested 2 ++ paragraph]

/-- The lines of a step and of what is nested under it. -/
def Step.spell? : Step → Option (List Text)
  | email template fields =>
    some (("send the ".toList ++ template ++ " email".toList) :: fields.flatMap CustomField.spell)
  | condition predicate => some ["if ".toList ++ predicate]
  | wait (some minutes) => some ["wait for ".toList ++ numeral minutes ++ " minutes".toList]
  | wait none => none
  | unrecognized => none

/-- The script of a campaign, each line of it ended by a line feed. -/
def Campaign.spell? (campaign : Campaign) : Option Text := do
  let trigger ← (← campaign.trigger).spell?
  let steps ← campaign.steps.mapM Step.spell?
  some ((trigger :: steps.flatten).flatMap fun line => line ++ ['\n'])

end CampaignScript
