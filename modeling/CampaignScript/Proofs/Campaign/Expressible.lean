import CampaignScript.Campaign.Identifier
import CampaignScript.Proofs.Text.Inline
import CampaignScript.Proofs.Time.Spelling

/-! The campaigns that a script can express. Their texts are such that a line can hold them in
their places, and nothing is absent from them. -/
namespace CampaignScript

/-- The first space behind the start of a moment divides its date from its time. -/
def Trigger.Expressible : Trigger → Prop
  | event type => type.IsEnding
  | recurring (some days) (some times) =>
    days ≠ [] ∧ times ≠ [] ∧ ∀ time ∈ times, time.IsShown
  | recurring _ _ => False
  | oneOff moment => ∃ (first : Char) (date time : Text), moment = first :: date ++ ' ' :: time ∧
      Text.IsInline (first :: date) ∧ ' ' ∉ date ∧ time.IsEnding

/-- Whether a text is joined of paragraphs. A value without paragraphs is empty. -/
def CustomField.IsValue (value : Text) : Prop :=
  ∃ paragraphs : List Text, value = ['\n'].intercalate paragraphs ∧
    ∀ paragraph ∈ paragraphs, paragraph.IsParagraph

theorem CustomField.IsValue.nil : IsValue [] :=
  ⟨[], rfl, by simp⟩

structure CustomField.Expressible (field : CustomField) : Prop where
  key : field.key.IsParagraph
  colon : ':' ∉ field.key
  value : IsValue field.value

def Step.Expressible : Step → Prop
  | email template fields => template.IsInline ∧ identifier template = template ∧
      ∀ field ∈ fields, field.Expressible
  | condition predicate => predicate.IsEnding ∧ identifier predicate = predicate
  | wait (some minutes) => minutes < WaitTime.limit
  | wait none => False
  | unrecognized => False

def Campaign.Expressible (campaign : Campaign) : Prop :=
  (∃ trigger, campaign.trigger = some trigger ∧ trigger.Expressible) ∧
    ∀ step ∈ campaign.steps, step.Expressible

end CampaignScript
