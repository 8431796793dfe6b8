import CampaignScript.Proofs.Outline.Mapping
import CampaignScript.Proofs.Reading.Calls

/-! How scripts with changed lines are read. A reader takes notice of the content of a line, and of
its number only where a value goes on over further lines, and there only of the gaps between them.
A change that keeps both goes through the readers: they give the same values, and their problems
are those of the changed lines. -/
namespace CampaignScript

open Session

/-- Whether a change keeps all that the readers take notice of. -/
structure Line.KeepsReading (f : Line → Line) : Prop where
  text : ∀ line, (f line).text = line.text
  gap : ∀ line previous,
    (f line).number > (f previous).number + 1 ↔ line.number > previous.number + 1

variable {f : Line → Line}

theorem Session.added_accept_map {α : Type} (line : Line) (cause : Text → Cause)
    (result : Except Text α) :
    (accept (f line) cause result).added =
      (accept line cause result).added.map (Problem.map f) := by
  cases result <;> rfl

theorem WaitTime.value_read_map (line : Line) (amount unit : Text) :
    (WaitTime.read (f line) amount unit).value = (WaitTime.read line amount unit).value := by
  rw [value_read, value_read]

theorem WaitTime.added_read_map (line : Line) (amount unit : Text) :
    (WaitTime.read (f line) amount unit).added =
      (WaitTime.read line amount unit).added.map (Problem.map f) := by
  rw [added_read, added_read]
  split
  · split <;> rfl
  all_goals rfl

section KeepsReading
variable (h : Line.KeepsReading f)
include h

theorem Problem.message_map (problem : Problem) : (problem.map f).message = problem.message := by
  rw [message, message, fault?, fault?]
  simp only [map, h.text]

namespace CustomField

/-- Only the gaps between the numbers matter to a value. -/
theorem continueValue_map (previous : Line) (value : Text) (lines : List Line) :
    continueValue (f previous).number value (lines.map f) =
      continueValue previous.number value lines := by
  induction lines generalizing previous value with
  | nil => rfl
  | cons line lines ih =>
    rw [List.map_cons, continueValue, continueValue, h.text, ih line]
    simp only [h.gap]

theorem value_read_map (entry : Entry) :
    (CustomField.read (entry.map f)).value = (CustomField.read entry).value := by
  rw [value_read, value_read, Entry.map, h.text, Outline.lines_map]
  split
  · exact congrArg (CustomField.mk _) (continueValue_map h _ _ _)
  · rfl

theorem added_read_map (entry : Entry) :
    (CustomField.read (entry.map f)).added =
      (CustomField.read entry).added.map (Problem.map f) := by
  rw [added_read, added_read, Entry.map, h.text]
  split <;> rfl

end CustomField

namespace Step

theorem value_read_map (entry : Entry) :
    (Step.read (entry.map f)).value = (Step.read entry).value := by
  rw [value_read, value_read, Entry.map, h.text, Outline.entries_map, List.map_map]
  split
  · exact congrArg (email _)
      (List.map_congr_left fun field _ => CustomField.value_read_map h field)
  · rfl
  · exact congrArg wait (WaitTime.value_read_map _ _ _)
  · rfl

theorem added_read_map (entry : Entry) :
    (Step.read (entry.map f)).added = (Step.read entry).added.map (Problem.map f) := by
  rw [added_read, added_read, Entry.map, h.text, Outline.entries_map]
  split
  · rw [List.flatMap_map, List.map_flatMap]
    simp only [CustomField.added_read_map h]
  · rfl
  · exact WaitTime.added_read_map _ _ _
  · rfl

end Step

theorem Trigger.value_read_map (line : Line) :
    (Trigger.read (f line)).value = (Trigger.read line).value := by
  rw [value_read, value_read, h.text]

theorem Trigger.added_read_map (line : Line) :
    (Trigger.read (f line)).added = (Trigger.read line).added.map (Problem.map f) := by
  rw [added_read, added_read, h.text]
  split
  · rw [added_accept_map, added_accept_map, List.map_append]
  · rfl
  · rfl

end KeepsReading

namespace Campaign

theorem value_read_entry (first : Line) (nested rest : Outline) :
    (Campaign.read (.entry first nested rest)).value =
      { trigger := (Trigger.read first).value
        steps := rest.entries.map fun entry => (Step.read entry).value } := by
  rw [value, run_read_entry]

section KeepsReading
variable (h : Line.KeepsReading f) {outline : Outline} (hne : outline ≠ .empty)
include h hne

theorem value_read_map : (Campaign.read (outline.map f)).value = (Campaign.read outline).value := by
  cases outline with
  | empty => exact absurd rfl hne
  | entry first nested rest =>
    rw [Outline.map, value_read_entry, value_read_entry, Trigger.value_read_map h,
      Outline.entries_map, List.map_map]
    simp only [Function.comp_def, Step.value_read_map h]

theorem reports_map (broken : Bool) :
    reports broken (outline.map f) = (reports broken outline).map (Problem.map f) := by
  cases outline with
  | empty => exact absurd rfl hne
  | entry first nested rest =>
    have hnesting : (nested.map f).lines.head?.toList.map
          ({ line := ·, cause := .nesting } : Line → Problem) =
        (nested.lines.head?.toList.map ({ line := ·, cause := .nesting })).map (Problem.map f) := by
      rw [Outline.lines_map]
      cases nested.lines <;> rfl
    rw [Outline.map, reports, reports, Trigger.added_read_map h, Outline.entries_map, hnesting,
      List.flatMap_map, List.map_append, List.map_append, List.map_flatMap]
    simp only [Step.added_read_map h]
    cases broken <;> rfl

end KeepsReading

end Campaign

namespace Reading

theorem campaign_ofText (source : Text) :
    (ofText source).campaign = (Campaign.read (Layout.ofText source).outline).value := by
  rw [ofText, Campaign.run_read_reports]

theorem problems_ofText (source : Text) :
    (ofText source).problems = (Layout.ofText source).problems ++
      Campaign.reports ((Layout.ofText source).problems.any Problem.isFatal)
        (Layout.ofText source).outline := by
  rw [ofText, Campaign.run_read_reports]

theorem any_isFatal_map (f : Line → Line) (problems : List Problem) :
    (problems.map (Problem.map f)).any Problem.isFatal = problems.any Problem.isFatal := by
  rw [List.any_map]
  rfl

section KeepsReading
variable (h : Line.KeepsReading f)
include h

theorem campaign_ofText_map (source : Text) :
    (Campaign.read ((Layout.ofText source).map f).outline).value = (ofText source).campaign := by
  rw [campaign_ofText]
  exact Campaign.value_read_map h (Layout.outline_ofText_ne_empty source)

theorem problems_ofText_map (source : Text) :
    ((Layout.ofText source).map f).problems ++
        Campaign.reports (((Layout.ofText source).map f).problems.any Problem.isFatal)
          ((Layout.ofText source).map f).outline =
      (ofText source).problems.map (Problem.map f) := by
  rw [problems_ofText, Layout.problems_map, any_isFatal_map, List.map_append]
  exact congrArg _ (Campaign.reports_map h (Layout.outline_ofText_ne_empty source) _)

/-- Scripts that are laid out alike but for a change to their lines are read as the same campaign,
and their problems are alike but for the change. -/
theorem ofText_of_map_eq {source edited : Text}
    (hlayout : (Layout.ofText edited).map f = (Layout.ofText source).map f) :
    (ofText edited).campaign = (ofText source).campaign ∧
      (ofText edited).problems.map (Problem.map f) =
        (ofText source).problems.map (Problem.map f) := by
  rw [← campaign_ofText_map h edited, ← problems_ofText_map h edited, hlayout]
  exact ⟨campaign_ofText_map h source, problems_ofText_map h source⟩

end KeepsReading

end Reading

end CampaignScript
