import CampaignScript.Campaign.Basic
import CampaignScript.Campaign.Sentence
import CampaignScript.Reading.Session

/-! Reading the line that starts a campaign. -/
namespace CampaignScript

/-- Reads a trigger. The days and the times of a recurring trigger are read apart from each other,
so that a problem with the ones does not hide a problem with the others. -/
def Trigger.read (line : Line) : Session (Option Trigger) :=
  match TriggerSentence.ofText? line.text with
  | some (.event type) => pure (some (.event type))
  | some (.recurring days times) => do
    let weekdays ← Session.accept line .day (Weekday.ofEnumeration days)
    let hours ← Session.accept line .time (TimeOfDay.ofEnumeration times)
    pure (some (.recurring weekdays hours))
  | some (.oneOff date time) => pure (some (.oneOff (date ++ ' ' :: time)))
  | none => Session.expect line .trigger none

end CampaignScript
