import CampaignScript.Json.Basic
import CampaignScript.Reading.Campaign

/-! The JSON document of what a script says, as an editor takes it in. What is absent from a
campaign has no member in its document. -/
namespace CampaignScript

def Weekday.toJson (day : Weekday) : Json :=
  .number day.number

def TimeOfDay.toJson (time : TimeOfDay) : Json :=
  .number time.encoded

/-- The members of a trigger, which stand beside the steps of its campaign. -/
def Trigger.members (trigger : Trigger) : List (Text × Json) :=
  ("triggerKind".toList, .string trigger.kind) ::
    match trigger with
    | .event type => [("eventType".toList, .string type)]
    | .recurring weekdays hours =>
      (weekdays.toList.map fun days => ("weekdays".toList, .array (days.map Weekday.toJson))) ++
        hours.toList.map fun times => ("hours".toList, .array (times.map TimeOfDay.toJson))
    | .oneOff localDatetime => [("localDatetime".toList, .string localDatetime)]

def CustomField.toJson (field : CustomField) : Json :=
  .object [("key".toList, .string field.key), ("value".toList, .string field.value)]

def Step.toJson : Step → Json
  | email template customFields =>
    .object
      [("stepKind".toList, .string "Email".toList), ("templateId".toList, .string template),
        ("customFields".toList, .array (customFields.map CustomField.toJson))]
  | condition predicate =>
    .object
      [("stepKind".toList, .string "Condition".toList), ("predicateId".toList, .string predicate)]
  | wait minutes =>
    .object
      (("stepKind".toList, .string "Wait".toList) ::
        minutes.toList.map fun n => ("waitMinutes".toList, .number n))
  | unrecognized => .object []

def Campaign.toJson (campaign : Campaign) : Json :=
  .object
    (campaign.trigger.toList.flatMap Trigger.members ++
      [("steps".toList, .array (campaign.steps.map Step.toJson))])

def Line.toJson (line : Line) : Json :=
  .object [("lineNumber".toList, .number line.number), ("rawText".toList, .string line.raw)]

def Problem.toJson (problem : Problem) : Json :=
  .object
    [("line".toList, problem.line.toJson), ("message".toList, .string problem.message),
      ("reason".toList, .string problem.reason.name)]

def Reading.toJson (reading : Reading) : Json :=
  .object
    [("campaign".toList, reading.campaign.toJson),
      ("errors".toList, .array (reading.problems.map Problem.toJson))]

end CampaignScript
