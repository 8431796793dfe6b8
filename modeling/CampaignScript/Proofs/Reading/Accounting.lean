import CampaignScript.Proofs.Outline.Layout
import CampaignScript.Proofs.Reading.Frame
import CampaignScript.Proofs.Text.Phrase
import CampaignScript.Proofs.Text.Space

/-! The problems of a reading and the gaps in its campaign account for each other: what is absent
was reported, and what was reported is absent. -/
namespace CampaignScript

open Session

namespace Problem

/-- The number of problems with a reason. -/
def tally (problems : List Problem) (reason : Reason) : Nat :=
  problems.countP fun problem => problem.reason == reason

@[simp] theorem tally_nil (reason : Reason) : tally [] reason = 0 := rfl

@[simp] theorem tally_cons (line : Line) (cause : Cause) (problems : List Problem)
    (reason : Reason) :
    tally ({ line, cause } :: problems) reason =
      tally problems reason + if cause.reason = reason then 1 else 0 := by
  simp [tally, List.countP_cons, Problem.reason]

@[simp] theorem tally_append (problems more : List Problem) (reason : Reason) :
    tally (problems ++ more) reason = tally problems reason + tally more reason :=
  List.countP_append

theorem eq_nil_iff_tally {problems : List Problem} :
    problems = [] ↔ ∀ reason, tally problems reason = 0 := by
  constructor
  · rintro rfl reason
    rfl
  · intro h
    refine List.eq_nil_iff_forall_not_mem.mpr fun problem hmem => ?_
    simpa using List.countP_eq_zero.mp (h problem.reason) problem hmem

end Problem

theorem Session.tally_added_accept {α : Type} (line : Line) {cause : Text → Cause}
    {reason : Reason} (hcause : ∀ words, (cause words).reason = reason)
    (result : Except Text α) (other : Reason) :
    Problem.tally (accept line cause result).added other =
      if other = reason ∧ result.toOption.isNone then 1 else 0 := by
  rw [added_accept]
  cases result with
  | error words => simp [hcause, Except.toOption, eq_comm]
  | ok a => simp [Except.toOption]

namespace CustomField

/-- The key of a field is empty exactly where the line has no key, which is reported. -/
theorem added_read_eq (entry : Entry) :
    (CustomField.read entry).added =
      if (CustomField.read entry).value.key.isEmpty then
        [{ line := entry.line, cause := .customField }]
      else [] := by
  rw [added_read, value_read]
  rcases hsplit : Text.splitAtChar? ':' entry.line.text with _ | ⟨_ | ⟨c, key⟩, value⟩
  · rfl
  · rfl
  · have htext := (Text.splitAtChar?_eq_some_iff.mp hsplit).1
    have hkey := Text.trimEnd_cons_ne_nil (Text.isSpace_of_trim_eq_cons htext) key
    simp [hkey]

theorem tally_added_read (entries : List Entry) (reason : Reason) :
    Problem.tally (entries.flatMap fun entry => (CustomField.read entry).added) reason =
      if reason = .customField then
        (entries.map fun entry => (CustomField.read entry).value).countP (·.key.isEmpty)
      else 0 := by
  induction entries with
  | nil => simp
  | cons entry entries ih =>
    rw [List.flatMap_cons, Problem.tally_append, ih, added_read_eq, List.map_cons, List.countP_cons]
    cases (CustomField.read entry).value.key.isEmpty with
    | false => simp
    | true =>
      by_cases hreason : reason = .customField
      · simp [Cause.reason, hreason, Nat.add_comm]
      · simp [Cause.reason, hreason, Ne.symm hreason]

end CustomField

namespace Step

def customFields : Step → List CustomField
  | email _ fields => fields
  | _ => []

/-- The problems are those that the gaps in the steps are reported with: one for each line that is
no step and for each field without a key, and one or two for each wait without a time. -/
structure Balances (steps : List Step) (problems : List Problem) : Prop where
  step : Problem.tally problems .step = steps.count .unrecognized
  customField : Problem.tally problems .customField =
    (steps.flatMap customFields).countP (·.key.isEmpty)
  wait_le : steps.count (.wait none) ≤ Problem.tally problems .stepField
  le_wait : Problem.tally problems .stepField ≤ 2 * steps.count (.wait none)
  other : ∀ reason, reason ≠ .step → reason ≠ .customField → reason ≠ .stepField →
    Problem.tally problems reason = 0

namespace Balances

theorem nil : Balances [] [] :=
  ⟨rfl, rfl, Nat.le_refl 0, Nat.le_refl 0, fun _ _ _ _ => rfl⟩

theorem append {steps more : List Step} {problems others : List Problem}
    (h : Balances steps problems) (h' : Balances more others) :
    Balances (steps ++ more) (problems ++ others) where
  step := by rw [Problem.tally_append, h.step, h'.step, List.count_append]
  customField := by
    rw [Problem.tally_append, h.customField, h'.customField, List.flatMap_append,
      List.countP_append]
  wait_le := by
    rw [Problem.tally_append, List.count_append]
    exact Nat.add_le_add h.wait_le h'.wait_le
  le_wait := by
    rw [Problem.tally_append, List.count_append, Nat.mul_add]
    exact Nat.add_le_add h.le_wait h'.le_wait
  other := fun reason h₁ h₂ h₃ => by
    rw [Problem.tally_append, h.other reason h₁ h₂ h₃, h'.other reason h₁ h₂ h₃]

end Balances

/-- A wait that makes too great a time is reported once, although both its parts are good. -/
theorem balances_wait (line : Line) (amount unit : Text) :
    Balances [wait (WaitTime.read line amount unit).value]
      (WaitTime.read line amount unit).added := by
  rw [WaitTime.value_read, WaitTime.added_read]
  rcases WaitTime.amount? amount with _ | number <;>
    rcases WaitUnit.ofName? unit with _ | unit
  · constructor <;> simp [Cause.reason, customFields]
    grind
  · constructor <;> simp [Cause.reason, customFields]
    grind
  · constructor <;> simp [Cause.reason, customFields]
    grind
  · rcases hminutes : WaitTime.bounded? (number * unit.minutes) with _ | minutes
    · constructor <;> simp [hminutes, Cause.reason, customFields]
      grind
    · constructor <;> simp [hminutes, customFields]

theorem balances_read (entry : Entry) :
    Balances [(Step.read entry).value] (Step.read entry).added := by
  rw [value_read, added_read]
  rcases StepSentence.ofText? entry.line.text with _ | (template | predicate | ⟨amount, unit⟩)
  · constructor <;> simp [Cause.reason, customFields]
    grind
  · constructor <;> simp [CustomField.tally_added_read, customFields]
    grind
  · constructor <;> simp [customFields]
  · exact balances_wait entry.line amount unit

theorem balances_map_read (entries : List Entry) :
    Balances (entries.map fun entry => (Step.read entry).value)
      (entries.flatMap fun entry => (Step.read entry).added) := by
  induction entries with
  | nil => exact .nil
  | cons entry entries ih => exact (balances_read entry).append ih

end Step

namespace Trigger

/-- The number of lists that a recurring trigger is without. -/
def missingLists : Option Trigger → Nat
  | some (recurring weekdays hours) =>
    (if weekdays.isNone then 1 else 0) + (if hours.isNone then 1 else 0)
  | _ => 0

theorem tally_added_read (line : Line) (reason : Reason) :
    Problem.tally (Trigger.read line).added reason =
      (if reason = .trigger ∧ (Trigger.read line).value = none then 1 else 0) +
        if reason = .triggerField then missingLists (Trigger.read line).value else 0 := by
  rw [value_read, added_read]
  rcases TriggerSentence.ofText? line.text with _ | (type | ⟨days, times⟩ | ⟨date, time⟩)
  · simp [Cause.reason, missingLists, eq_comm]
  · simp [missingLists]
  · have hday (words : Text) : (Cause.day words).reason = .triggerField := rfl
    have htime (words : Text) : (Cause.time words).reason = .triggerField := rfl
    rw [Problem.tally_append, tally_added_accept line hday, tally_added_accept line htime]
    by_cases hreason : reason = .triggerField <;> simp [missingLists, hreason]
  · simp [missingLists]

end Trigger

/-- No part of a trigger is absent. -/
def Trigger.IsComplete : Trigger → Prop
  | event _ => True
  | recurring weekdays hours => weekdays ≠ none ∧ hours ≠ none
  | oneOff _ => True

/-- No part of a step is absent, and none of its fields is without a key. -/
def Step.IsComplete : Step → Prop
  | email _ fields => ∀ field ∈ fields, field.key ≠ []
  | condition _ => True
  | wait minutes => minutes ≠ none
  | unrecognized => False

/-- A campaign that nothing is absent from. -/
def Campaign.IsComplete (campaign : Campaign) : Prop :=
  (∃ trigger, campaign.trigger = some trigger ∧ trigger.IsComplete) ∧
    ∀ step ∈ campaign.steps, step.IsComplete

theorem Trigger.isComplete_iff {trigger : Option Trigger} :
    (∃ t, trigger = some t ∧ t.IsComplete) ↔ trigger ≠ none ∧ missingLists trigger = 0 := by
  rcases trigger with _ | (type | ⟨_ | weekdays, _ | hours⟩ | moment) <;>
    simp [IsComplete, missingLists]

theorem Step.forall_isComplete_iff {steps : List Step} :
    (∀ step ∈ steps, step.IsComplete) ↔
      steps.count .unrecognized = 0 ∧ steps.count (.wait none) = 0 ∧
        (steps.flatMap customFields).countP (·.key.isEmpty) = 0 := by
  induction steps with
  | nil => simp
  | cons step steps ih =>
    rw [List.forall_mem_cons, ih, List.flatMap_cons, List.countP_append]
    rcases step with ⟨template, fields⟩ | predicate | (_ | minutes) | _ <;>
      simp [IsComplete, customFields, List.countP_eq_zero]
    tauto

/-- Whether a line is nested under the first line of an outline. -/
def Outline.nestsUnderFirst : Outline → Bool
  | empty => false
  | entry _ nested _ => nested ≠ empty

theorem Campaign.tally_nestingProblems (trigger : Entry) (layout : Layout) (reason : Reason) :
    Problem.tally (nestingProblems trigger layout.problems) reason =
      if reason = .nesting ∧ trigger.nested ≠ .empty ∧ layout.misplaced.isNone then 1 else 0 := by
  rw [nestingProblems]
  rcases trigger.nested with _ | ⟨line, nested, rest⟩
  · simp [Outline.lines, Outline.entries]
  · rcases hmisplaced : layout.misplaced with _ | misplaced
    · simp [Layout.problems, hmisplaced, Outline.lines, Outline.entries, Cause.reason, eq_comm]
    · simp [Layout.problems, hmisplaced, Outline.lines, Outline.entries, Problem.isFatal]

theorem Layout.tally_problems (layout : Layout) (reason : Reason) :
    Problem.tally layout.problems reason =
      if reason = .indentation ∧ layout.misplaced.isSome then 1 else 0 := by
  rcases hmisplaced : layout.misplaced with _ | line
  · simp [problems, hmisplaced]
  · simp [problems, hmisplaced, Cause.reason, eq_comm]

namespace Reading

/-- The reading of a script, line by line. -/
theorem ofText_eq (source : Text) :
    ∃ line nested rest, (Layout.ofText source).outline = .entry line nested rest ∧
      (Reading.ofText source).campaign =
        { trigger := (Trigger.read line).value
          steps := rest.entries.map fun entry => (Step.read entry).value } ∧
      (Reading.ofText source).problems =
        (Layout.ofText source).problems ++ (Trigger.read line).added ++
          Campaign.nestingProblems ⟨line, nested⟩ (Layout.ofText source).problems ++
          rest.entries.flatMap fun entry => (Step.read entry).added := by
  cases houtline : (Layout.ofText source).outline with
  | empty => exact absurd houtline (Layout.outline_ofText_ne_empty source)
  | entry line nested rest =>
    refine ⟨line, nested, rest, rfl, ?_, ?_⟩ <;>
      rw [Reading.ofText, houtline, Campaign.run_read rfl]

/-- The problems of each kind are as many as the gaps that they are reported for. -/
structure Balances (outline : Outline) (reading : Reading) : Prop where
  trigger : Problem.tally reading.problems .trigger =
    if reading.campaign.trigger = none then 1 else 0
  triggerField : Problem.tally reading.problems .triggerField =
    Trigger.missingLists reading.campaign.trigger
  step : Problem.tally reading.problems .step = reading.campaign.steps.count .unrecognized
  customField : Problem.tally reading.problems .customField =
    (reading.campaign.steps.flatMap Step.customFields).countP (·.key.isEmpty)
  wait_le : reading.campaign.steps.count (.wait none) ≤ Problem.tally reading.problems .stepField
  le_wait : Problem.tally reading.problems .stepField ≤
    2 * reading.campaign.steps.count (.wait none)
  indentation : Problem.tally reading.problems .indentation ≤ 1
  nesting : Problem.tally reading.problems .nesting =
    if outline.nestsUnderFirst ∧ Problem.tally reading.problems .indentation = 0 then 1 else 0

theorem balances_ofText (source : Text) :
    Balances (Layout.ofText source).outline (Reading.ofText source) := by
  obtain ⟨line, nested, rest, houtline, hcampaign, hproblems⟩ := ofText_eq source
  have hsteps := Step.balances_map_read rest.entries
  have htally (reason : Reason) := congrArg (Problem.tally · reason) hproblems
  simp only [Problem.tally_append, Layout.tally_problems, Trigger.tally_added_read,
    Campaign.tally_nestingProblems] at htally
  rw [houtline]
  constructor
  · simp [htally, hcampaign, hsteps.other]
  · simp [htally, hcampaign, hsteps.other]
  · simp [htally, hcampaign, hsteps.step]
  · simp [htally, hcampaign, hsteps.customField]
  · simpa [htally, hcampaign] using hsteps.wait_le
  · simpa [htally, hcampaign] using hsteps.le_wait
  · simp [htally, hsteps.other]
    split <;> simp
  · simp [htally, hsteps.other, Outline.nestsUnderFirst]

theorem Balances.isValid_iff {outline : Outline} {reading : Reading}
    (h : Balances outline reading) :
    reading.isValid ↔ Problem.tally reading.problems .indentation = 0 ∧
      Problem.tally reading.problems .nesting = 0 ∧ reading.campaign.IsComplete := by
  rw [isValid, List.isEmpty_iff, Problem.eq_nil_iff_tally, Campaign.IsComplete,
    Trigger.isComplete_iff, Step.forall_isComplete_iff, ← h.step, ← h.customField, ← h.triggerField]
  have htrigger := h.trigger
  have hwait_le := h.wait_le
  have hle_wait := h.le_wait
  constructor
  · intro hnone
    rw [hnone .trigger] at htrigger
    rw [hnone .stepField] at hwait_le
    refine ⟨hnone _, hnone _, ⟨?_, hnone _⟩, hnone _, by omega, hnone _⟩
    intro hnil
    simp [hnil] at htrigger
  · rintro ⟨hindentation, hnesting, ⟨hpresent, hlists⟩, hstep, hwait, hfield⟩ reason
    rw [if_neg hpresent] at htrigger
    cases reason with
    | stepField => omega
    | _ => assumption

/-- What a script leaves absent from its campaign and what is reported of it account for each other,
kind by kind. So a script is valid exactly where its layout has no fault and its campaign is
complete. -/
theorem ofText_accounts (source : Text) :
    Balances (Layout.ofText source).outline (Reading.ofText source) ∧
      ((Reading.ofText source).isValid ↔
        Problem.tally (Reading.ofText source).problems .indentation = 0 ∧
          Problem.tally (Reading.ofText source).problems .nesting = 0 ∧
          (Reading.ofText source).campaign.IsComplete) :=
  ⟨balances_ofText source, (balances_ofText source).isValid_iff⟩

end Reading

end CampaignScript
