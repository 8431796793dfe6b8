import CampaignScript.Proofs.Campaign.Grammar
import CampaignScript.Proofs.Reading.Frame

/-! What is made of a line by the grammar of sentences. For triggers and for steps there is a
relation with one rule for each form of sentence and one for lines that say none. The readers give
exactly what the relation gives. -/
namespace CampaignScript

open Session

/-- The problem of an enumeration that was not understood, told by the item at fault. -/
def Problem.ofResult {α : Type} (line : Line) (cause : Text → Cause) :
    Except Text α → List Problem
  | .ok _ => []
  | .error item => [{ line, cause := cause item }]

theorem Session.added_accept_eq_ofResult {α : Type} (line : Line) (cause : Text → Cause)
    (result : Except Text α) :
    (accept line cause result).added = Problem.ofResult line cause result := by
  cases result <;> rfl

theorem Session.Appends.run_eq_iff {α : Type} {reader : Session α} (h : Appends reader)
    {found problems : List Problem} {a : α} :
    reader.run found = (a, problems) ↔
      ∃ added, problems = found ++ added ∧ reader.value = a ∧ reader.added = added := by
  rw [h found, Prod.mk.injEq]
  constructor
  · rintro ⟨hvalue, rfl⟩
    exact ⟨reader.added, rfl, hvalue, rfl⟩
  · rintro ⟨_, rfl, hvalue, rfl⟩
    exact ⟨hvalue, rfl⟩

namespace Trigger

/-- What a line is read as where a trigger is due, and the problems that this adds. -/
inductive ReadAs (line : Line) : Option Trigger → List Problem → Prop
  | event {type : Text} (hfeed : '\n' ∉ line.text)
    (h : TriggerSentence.Says line.text (.event type)) : ReadAs line (some (.event type)) []
  | recurring {days times : Text} (hfeed : '\n' ∉ line.text)
    (h : TriggerSentence.Says line.text (.recurring days times)) :
    ReadAs line
      (some (.recurring (Weekday.ofEnumeration days).toOption
        (TimeOfDay.ofEnumeration times).toOption))
      (Problem.ofResult line .day (Weekday.ofEnumeration days) ++
        Problem.ofResult line .time (TimeOfDay.ofEnumeration times))
  | oneOff {date time : Text} (hfeed : '\n' ∉ line.text)
    (h : TriggerSentence.Says line.text (.oneOff date time)) :
    ReadAs line (some (.oneOff (date ++ ' ' :: time))) []
  | none (h : '\n' ∈ line.text ∨ ∀ sentence, ¬ TriggerSentence.Says line.text sentence) :
    ReadAs line none [{ line, cause := .trigger }]

theorem readAs_read (line : Line) :
    ReadAs line (Trigger.read line).value (Trigger.read line).added := by
  rw [value_read, added_read]
  rcases hsentence : TriggerSentence.ofText? line.text with
    _ | (type | ⟨days, times⟩ | ⟨date, time⟩)
  · exact .none (TriggerSentence.ofText?_eq_none_iff.mp hsentence)
  · obtain ⟨hfeed, hsays⟩ := TriggerSentence.ofText?_eq_some_iff.mp hsentence
    exact .event hfeed hsays
  · obtain ⟨hfeed, hsays⟩ := TriggerSentence.ofText?_eq_some_iff.mp hsentence
    simp only [added_accept_eq_ofResult]
    exact .recurring hfeed hsays
  · obtain ⟨hfeed, hsays⟩ := TriggerSentence.ofText?_eq_some_iff.mp hsentence
    exact .oneOff hfeed hsays

theorem readAs_iff {line : Line} {trigger : Option Trigger} {problems : List Problem} :
    ReadAs line trigger problems ↔
      (Trigger.read line).value = trigger ∧ (Trigger.read line).added = problems := by
  constructor
  · intro h
    rw [value_read, added_read]
    cases h with
    | event hfeed hsays => simp [TriggerSentence.ofText?_eq_some_iff.mpr ⟨hfeed, hsays⟩]
    | recurring hfeed hsays =>
      simp [TriggerSentence.ofText?_eq_some_iff.mpr ⟨hfeed, hsays⟩, added_accept_eq_ofResult]
    | oneOff hfeed hsays => simp [TriggerSentence.ofText?_eq_some_iff.mpr ⟨hfeed, hsays⟩]
    | none hnone => simp [TriggerSentence.ofText?_eq_none_iff.mpr hnone]
  · rintro ⟨rfl, rfl⟩
    exact readAs_read line

/-- A line is read as the trigger that the grammar makes of it, and with the problems. Where it has
no line feed in it, it says one sentence at most, and the order in which the forms are tried does
not matter. -/
theorem trigger_grammar (line : Line) :
    (∀ found trigger problems, (Trigger.read line).run found = (trigger, problems) ↔
      ∃ added, problems = found ++ added ∧ ReadAs line trigger added) ∧
    ('\n' ∉ line.text →
      (∀ sentence other, TriggerSentence.Says line.text sentence →
        TriggerSentence.Says line.text other → sentence = other) ∧
      ∀ readers : List (Text → Option TriggerSentence), readers.Perm
          [TriggerSentence.event?, TriggerSentence.recurring?, TriggerSentence.oneOff?] →
        readers.findSome? (fun reader => reader line.text) =
          TriggerSentence.ofText? line.text) := by
  refine ⟨fun found trigger problems => ?_, fun hfeed => ⟨?_, fun readers hperm => ?_⟩⟩
  · simp only [(appends_read line).run_eq_iff, readAs_iff]
  · exact fun sentence other h h' => TriggerSentence.Says.unique hfeed h h'
  · rw [TriggerSentence.ofText?_eq_findSome? hfeed]
    exact findSome?_eq_of_perm hperm (TriggerSentence.readers_exclusive line.text)

/-- The line is "every Monday and Fooday at at 9am", with white space around it and capitals. -/
theorem trigger_grammar_two_faults :
    let line : Line := { number := 3, raw := "  EVERY Monday and Fooday at at 9am ".toList }
    (Trigger.read line).run [] =
        (some (.recurring none none),
          [{ line, cause := .day "Fooday".toList }, { line, cause := .time "at 9am".toList }]) ∧
      (∀ sentence, TriggerSentence.Says line.text sentence →
        sentence = .recurring "Monday and Fooday".toList "at 9am".toList) ∧
      [TriggerSentence.oneOff?, TriggerSentence.event?, TriggerSentence.recurring?].findSome?
          (fun reader => reader line.text) =
        TriggerSentence.ofText? line.text := by
  intro line
  obtain ⟨hfeed, hsays⟩ := TriggerSentence.ofText?_eq_some_iff.mp
    (show TriggerSentence.ofText? line.text =
        some (.recurring "Monday and Fooday".toList "at 9am".toList) by decide +kernel)
  have hdays : Weekday.ofEnumeration "Monday and Fooday".toList = .error "Fooday".toList := by
    decide +kernel
  have htimes : TimeOfDay.ofEnumeration "at 9am".toList = .error "at 9am".toList := by
    decide +kernel
  have hread := ReadAs.recurring hfeed hsays
  rw [hdays, htimes] at hread
  obtain ⟨hrun, hone⟩ := trigger_grammar line
  obtain ⟨hunique, horder⟩ := hone hfeed
  exact ⟨(hrun [] _ _).mpr ⟨_, rfl, hread⟩, fun sentence h => hunique sentence _ h hsays,
    horder _ (List.perm_append_singleton _ [_, _]).symm⟩

end Trigger

namespace Step

/-- What a line is read as where a step is due, and the problems that this adds. -/
inductive ReadAs (entry : Entry) : Step → List Problem → Prop
  | email {template : Text} (hfeed : '\n' ∉ entry.line.text)
    (h : StepSentence.Says entry.line.text (.email template)) :
    ReadAs entry
      (.email (identifier template)
        (entry.nested.entries.map fun field => (CustomField.read field).value))
      (entry.nested.entries.flatMap fun field => (CustomField.read field).added)
  | condition {predicate : Text} (hfeed : '\n' ∉ entry.line.text)
    (h : StepSentence.Says entry.line.text (.condition predicate)) :
    ReadAs entry (.condition (identifier predicate)) []
  | wait {amount unit : Text} (hfeed : '\n' ∉ entry.line.text)
    (h : StepSentence.Says entry.line.text (.wait amount unit)) :
    ReadAs entry (.wait (WaitTime.read entry.line amount unit).value)
      (WaitTime.read entry.line amount unit).added
  | unrecognized
    (h : '\n' ∈ entry.line.text ∨ ∀ sentence, ¬ StepSentence.Says entry.line.text sentence) :
    ReadAs entry .unrecognized [{ line := entry.line, cause := .step }]

theorem readAs_read (entry : Entry) :
    ReadAs entry (Step.read entry).value (Step.read entry).added := by
  rw [value_read, added_read]
  rcases hsentence : StepSentence.ofText? entry.line.text with
    _ | (template | predicate | ⟨amount, unit⟩)
  · exact .unrecognized (StepSentence.ofText?_eq_none_iff.mp hsentence)
  · obtain ⟨hfeed, hsays⟩ := StepSentence.ofText?_eq_some_iff.mp hsentence
    exact .email hfeed hsays
  · obtain ⟨hfeed, hsays⟩ := StepSentence.ofText?_eq_some_iff.mp hsentence
    exact .condition hfeed hsays
  · obtain ⟨hfeed, hsays⟩ := StepSentence.ofText?_eq_some_iff.mp hsentence
    exact .wait hfeed hsays

theorem readAs_iff {entry : Entry} {step : Step} {problems : List Problem} :
    ReadAs entry step problems ↔
      (Step.read entry).value = step ∧ (Step.read entry).added = problems := by
  constructor
  · intro h
    rw [value_read, added_read]
    cases h with
    | email hfeed hsays => simp [StepSentence.ofText?_eq_some_iff.mpr ⟨hfeed, hsays⟩]
    | condition hfeed hsays => simp [StepSentence.ofText?_eq_some_iff.mpr ⟨hfeed, hsays⟩]
    | wait hfeed hsays => simp [StepSentence.ofText?_eq_some_iff.mpr ⟨hfeed, hsays⟩]
    | unrecognized hnone => simp [StepSentence.ofText?_eq_none_iff.mpr hnone]
  · rintro ⟨rfl, rfl⟩
    exact readAs_read entry

/-- A line is read as the step that the grammar makes of it, and with the problems. Where it has no
line feed in it, it says one sentence at most, and the order in which the forms are tried does not
matter. No text ends in both forms of the words that close an email. -/
theorem step_grammar (entry : Entry) :
    (∀ found step problems, (Step.read entry).run found = (step, problems) ↔
      ∃ added, problems = found ++ added ∧ ReadAs entry step added) ∧
    ('\n' ∉ entry.line.text →
      (∀ sentence other, StepSentence.Says entry.line.text sentence →
        StepSentence.Says entry.line.text other → sentence = other) ∧
      ∀ readers : List (Text → Option StepSentence), readers.Perm
          [StepSentence.email?, StepSentence.condition?, StepSentence.wait?] →
        readers.findSome? (fun reader => reader entry.line.text) =
          StepSentence.ofText? entry.line.text) ∧
    ∀ front closing back ending, entry.line.text = front ++ closing →
      entry.line.text = back ++ ending → Text.IsWritten " email".toList closing →
        ¬ Text.IsWritten " email with custom fields".toList ending := by
  refine ⟨fun found step problems => ?_, fun hfeed => ⟨?_, fun readers hperm => ?_⟩, ?_⟩
  · simp only [(appends_read entry).run_eq_iff, readAs_iff]
  · exact fun sentence other h h' => StepSentence.Says.unique hfeed h h'
  · rw [StepSentence.ofText?_eq_findSome? hfeed]
    exact findSome?_eq_of_perm hperm (StepSentence.readers_exclusive entry.line.text)
  · exact fun front closing back ending hshort hlong => StepSentence.not_both_closings hshort hlong

/-- The template of the line holds the words that may close an email, and its field no colon. -/
theorem step_grammar_closing_in_template :
    let field : Line := { number := 8, raw := "    no colon".toList }
    let entry : Entry :=
      { line := { number := 7, raw := "Send the A email with custom fields EMAIL".toList }
        nested := .entry field .empty .empty }
    (Step.read entry).run [] =
        (.email "a_email_with_custom_fields".toList [{ key := [], value := [] }],
          [{ line := field, cause := .customField }]) ∧
      (∀ sentence, StepSentence.Says entry.line.text sentence →
        sentence = .email "A email with custom fields".toList) ∧
      [StepSentence.wait?, StepSentence.email?, StepSentence.condition?].findSome?
          (fun reader => reader entry.line.text) =
        StepSentence.ofText? entry.line.text ∧
      ∀ front ending, entry.line.text = front ++ ending →
        ¬ Text.IsWritten " email with custom fields".toList ending := by
  intro field entry
  obtain ⟨hfeed, hsays⟩ := StepSentence.ofText?_eq_some_iff.mp
    (show StepSentence.ofText? entry.line.text =
        some (.email "A email with custom fields".toList) by decide +kernel)
  have hidentifier : identifier "A email with custom fields".toList =
      "a_email_with_custom_fields".toList := by
    decide +kernel
  have hread : ReadAs entry
      (.email "a_email_with_custom_fields".toList [{ key := [], value := [] }])
      [{ line := field, cause := .customField }] :=
    hidentifier ▸ ReadAs.email hfeed hsays
  obtain ⟨hrun, hone, hclosing⟩ := step_grammar entry
  obtain ⟨hunique, horder⟩ := hone hfeed
  refine ⟨(hrun [] _ _).mpr ⟨_, rfl, hread⟩, fun sentence h => hunique sentence _ h hsays,
    horder _ (List.perm_append_singleton _ [_, _]).symm, fun front ending htext => ?_⟩
  exact hclosing "Send the A email with custom fields".toList " EMAIL".toList front ending
    (by decide +kernel) htext (by decide +kernel)

end Step

end CampaignScript
