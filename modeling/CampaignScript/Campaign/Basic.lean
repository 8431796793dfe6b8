import CampaignScript.Time.TimeOfDay
import CampaignScript.Time.Weekday

/-! Campaigns: what starts them and the steps they take. Parts that could not be read are absent,
so that every script gives a campaign. -/
namespace CampaignScript

/-- What starts a campaign. -/
inductive Trigger where
  /-- A user does something. -/
  | event (type : Text)
  /-- The given times on the given days of each week. -/
  | recurring (weekdays : Option (List Weekday)) (hours : Option (List TimeOfDay))
  /-- One moment, kept as written. -/
  | oneOff (localDatetime : Text)
deriving DecidableEq, Repr

/-- A value passed along to an email template. Keys may occur more than once. -/
structure CustomField where
  key : Text
  value : Text
deriving DecidableEq, Repr

inductive Step where
  | email (template : Text) (customFields : List CustomField)
  | condition (predicate : Text)
  | wait (minutes : Option Nat)
  /-- The place of a line that is no step. -/
  | unrecognized
deriving DecidableEq, Repr

structure Campaign where
  trigger : Option Trigger
  steps : List Step
deriving DecidableEq, Repr

/-- The name of the kind of trigger. -/
def Trigger.kind : Trigger → Text
  | event _ => "Event".toList
  | recurring _ _ => "Recurring".toList
  | oneOff _ => "OneOff".toList

end CampaignScript
