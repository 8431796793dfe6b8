import CampaignScript.Campaign.Identifier
import CampaignScript.Campaign.Sentence
import CampaignScript.Reading.CustomField
import CampaignScript.Time.WaitTime

/-! Reading the steps of a campaign. -/
namespace CampaignScript

/-- Reads a waiting time. Amount and unit are read apart from each other; where both are good and
the time they make is too great, it is the amount that is at fault. -/
def WaitTime.read (line : Line) (amount unit : Text) : Session (Option Nat) := do
  let number ← Session.expect line (.waitAmount amount) (WaitTime.amount? amount)
  let unit ← Session.expect line (.waitUnit unit) (WaitUnit.ofName? unit)
  match number, unit with
  | some number, some unit =>
    Session.expect line (.waitAmount amount) (WaitTime.bounded? (number * unit.minutes))
  | _, _ => pure none

/-- Reads a step. A line that is no step keeps its place among them. -/
def Step.read (entry : Entry) : Session Step :=
  match StepSentence.ofText? entry.line.text with
  | some (.email template) => do
    let customFields ← entry.nested.entries.mapM CustomField.read
    pure (.email (identifier template) customFields)
  | some (.condition predicate) => pure (.condition (identifier predicate))
  | some (.wait amount unit) => do
    let minutes ← WaitTime.read entry.line amount unit
    pure (.wait minutes)
  | none => do
    Session.report entry.line .step
    pure .unrecognized

end CampaignScript
