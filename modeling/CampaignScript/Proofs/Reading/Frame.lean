import CampaignScript.Proofs.Reading.Session
import CampaignScript.Reading.Campaign

/-! What each reader gives and reports, line by line. Reading a line does not depend on what was
found in other lines; only the report of a line nested under the trigger looks back, at whether the
layout of the script broke off. -/
namespace CampaignScript

open Session

namespace CustomField

theorem appends_read (entry : Entry) : Appends (CustomField.read entry) := by
  unfold CustomField.read
  split
  · exact appends_pure _
  · exact (appends_report _ _).bind fun _ => appends_pure _

theorem value_read (entry : Entry) :
    (CustomField.read entry).value =
      match Text.splitAtChar? ':' entry.line.text with
      | some (c :: key, value) =>
        { key := Text.trimEnd (c :: key)
          value := continueValue entry.line.number value.trim entry.nested.lines }
      | _ => { key := [], value := [] } := by
  unfold CustomField.read
  rcases Text.splitAtChar? ':' entry.line.text with _ | ⟨_ | ⟨c, key⟩, value⟩ <;> rfl

theorem added_read (entry : Entry) :
    (CustomField.read entry).added =
      match Text.splitAtChar? ':' entry.line.text with
      | some (_ :: _, _) => []
      | _ => [{ line := entry.line, cause := .customField }] := by
  unfold CustomField.read
  rcases Text.splitAtChar? ':' entry.line.text with _ | ⟨_ | ⟨c, key⟩, value⟩ <;> rfl

end CustomField

namespace WaitTime

private def readMinutes (line : Line) (amount : Text) (number : Option Nat)
    (unit : Option WaitUnit) : Session (Option Nat) :=
  match number, unit with
  | some number, some unit =>
    expect line (.waitAmount amount) (bounded? (number * unit.minutes))
  | _, _ => pure none

private theorem appends_readMinutes (line : Line) (amount : Text) (number : Option Nat)
    (unit : Option WaitUnit) : Appends (readMinutes line amount number unit) := by
  unfold readMinutes
  split
  · exact appends_expect _ _ _
  · exact appends_pure none

private theorem appends_readUnit (line : Line) (amount unit : Text) (number : Option Nat) :
    Appends (do
      let unit ← expect line (.waitUnit unit) (WaitUnit.ofName? unit)
      readMinutes line amount number unit) :=
  (appends_expect _ _ _).bind (appends_readMinutes _ _ _)

theorem appends_read (line : Line) (amount unit : Text) :
    Appends (WaitTime.read line amount unit) :=
  (appends_expect _ _ _).bind (appends_readUnit line amount unit)

theorem value_read (line : Line) (amount unit : Text) :
    (WaitTime.read line amount unit).value =
      (amount? amount).bind fun number => (WaitUnit.ofName? unit).bind fun unit =>
        bounded? (number * unit.minutes) := by
  refine (value_bind (appends_expect _ _ _) (appends_readUnit line amount unit)).trans ?_
  rw [value_bind (appends_expect _ _ _) (appends_readMinutes _ _ _), value_expect, value_expect]
  rcases amount? amount with _ | number
  · rfl
  · rcases WaitUnit.ofName? unit with _ | unit
    · rfl
    · exact value_expect _ _ _

/-- The amount and the unit are each reported where they were not read, and the amount where both
were but make too great a time. -/
theorem added_read (line : Line) (amount unit : Text) :
    (WaitTime.read line amount unit).added =
      match amount? amount, WaitUnit.ofName? unit with
      | some number, some unit =>
        if (bounded? (number * unit.minutes)).isNone then
          [{ line, cause := .waitAmount amount }]
        else []
      | some _, none => [{ line, cause := .waitUnit unit }]
      | none, some _ => [{ line, cause := .waitAmount amount }]
      | none, none =>
        [{ line, cause := .waitAmount amount }, { line, cause := .waitUnit unit }] := by
  refine (added_bind (appends_expect _ _ _) (appends_readUnit line amount unit)).trans ?_
  rw [added_bind (appends_expect _ _ _) (appends_readMinutes _ _ _), value_expect, value_expect,
    added_expect, added_expect]
  rcases amount? amount with _ | number
  · rcases WaitUnit.ofName? unit with _ | unit <;> rfl
  · rcases WaitUnit.ofName? unit with _ | unit
    · rfl
    · exact added_expect _ _ _

end WaitTime

namespace Step

theorem appends_read (entry : Entry) : Appends (Step.read entry) := by
  unfold Step.read
  split
  · exact (appends_mapM CustomField.appends_read _).bind fun _ => appends_pure _
  · exact appends_pure _
  · exact (WaitTime.appends_read _ _ _).bind fun _ => appends_pure _
  · exact (appends_report _ _).bind fun _ => appends_pure _

theorem value_read (entry : Entry) :
    (Step.read entry).value =
      match StepSentence.ofText? entry.line.text with
      | some (.email template) =>
        .email (identifier template)
          (entry.nested.entries.map fun field => (CustomField.read field).value)
      | some (.condition predicate) => .condition (identifier predicate)
      | some (.wait amount unit) => .wait (WaitTime.read entry.line amount unit).value
      | none => .unrecognized := by
  unfold Step.read
  rcases StepSentence.ofText? entry.line.text with _ | (template | predicate | ⟨amount, unit⟩)
  · rfl
  · exact congrArg (email _) (value_mapM CustomField.appends_read _)
  · rfl
  · rfl

theorem added_read (entry : Entry) :
    (Step.read entry).added =
      match StepSentence.ofText? entry.line.text with
      | some (.email _) => entry.nested.entries.flatMap fun field => (CustomField.read field).added
      | some (.condition _) => []
      | some (.wait amount unit) => (WaitTime.read entry.line amount unit).added
      | none => [{ line := entry.line, cause := .step }] := by
  unfold Step.read
  rcases StepSentence.ofText? entry.line.text with _ | (template | predicate | ⟨amount, unit⟩)
  · rfl
  · exact added_mapM CustomField.appends_read _
  · rfl
  · rfl

end Step

namespace Trigger

private theorem appends_readHours (line : Line) (times : Text) (days : Option (List Weekday)) :
    Appends (do
      let hours ← accept line .time (TimeOfDay.ofEnumeration times)
      pure (some (recurring days hours))) :=
  (appends_accept _ _ _).bind fun _ => appends_pure _

theorem appends_read (line : Line) : Appends (Trigger.read line) := by
  unfold Trigger.read
  split
  · exact appends_pure _
  · exact (appends_accept _ _ _).bind (appends_readHours _ _)
  · exact appends_pure _
  · exact appends_expect _ _ _

theorem value_read (line : Line) :
    (Trigger.read line).value =
      match TriggerSentence.ofText? line.text with
      | some (.event type) => some (event type)
      | some (.recurring days times) =>
        some (recurring (Weekday.ofEnumeration days).toOption
          (TimeOfDay.ofEnumeration times).toOption)
      | some (.oneOff date time) => some (oneOff (date ++ ' ' :: time))
      | none => none := by
  unfold Trigger.read
  rcases TriggerSentence.ofText? line.text with _ | (type | ⟨days, times⟩ | ⟨date, time⟩)
  · rfl
  · rfl
  · simp only [value_bind (appends_accept _ _ _) (appends_readHours _ _), value_bind_pure,
      value_accept]
  · rfl

theorem added_read (line : Line) :
    (Trigger.read line).added =
      match TriggerSentence.ofText? line.text with
      | some (.recurring days times) =>
        (accept line .day (Weekday.ofEnumeration days)).added ++
          (accept line .time (TimeOfDay.ofEnumeration times)).added
      | some _ => []
      | none => [{ line, cause := .trigger }] := by
  unfold Trigger.read
  rcases TriggerSentence.ofText? line.text with _ | (type | ⟨days, times⟩ | ⟨date, time⟩)
  · rfl
  · rfl
  · exact added_bind (appends_accept _ _ _) (appends_readHours _ _)
  · rfl

theorem isFatal_of_mem_added {line : Line} {problem : Problem}
    (h : problem ∈ (Trigger.read line).added) : problem.isFatal = false := by
  rw [added_read] at h
  split at h
  · rcases List.mem_append.mp h with h | h
    · obtain ⟨words, -, rfl⟩ := mem_added_accept h
      rfl
    · obtain ⟨words, -, rfl⟩ := mem_added_accept h
      rfl
  · exact absurd h List.not_mem_nil
  · rw [List.mem_singleton.mp h]
    rfl

end Trigger

namespace Campaign

/-- The report of the first line nested under the trigger. -/
def nestingProblems (trigger : Entry) (found : List Problem) : List Problem :=
  match trigger.nested.lines with
  | [] => []
  | line :: _ => if found.any Problem.isFatal then [] else [{ line, cause := .nesting }]

theorem nestingProblems_append (trigger : Entry) (found : List Problem) {more : List Problem}
    (hmore : ∀ problem ∈ more, problem.isFatal = false) :
    nestingProblems trigger (found ++ more) = nestingProblems trigger found := by
  have hany : more.any Problem.isFatal = false := by simpa using hmore
  rw [nestingProblems, List.any_append, hany, Bool.or_false]
  rfl

theorem run_reportNesting (trigger : Entry) (found : List Problem) :
    (reportNesting trigger).run found = ((), found ++ nestingProblems trigger found) := by
  unfold reportNesting nestingProblems
  cases trigger.nested.lines with
  | nil =>
    rw [List.append_nil]
    rfl
  | cons line lines =>
    show (if found.any Problem.isFatal then pure () else report line .nesting).run found = _
    split
    · rw [List.append_nil]
      rfl
    · rfl

/-- A campaign is read line by line. What was found before matters to the report of a line nested
under the trigger only. -/
theorem run_read {outline : Outline} {first : Entry} {rest : List Entry}
    (h : outline.entries = first :: rest) (found : List Problem) :
    (Campaign.read outline).run found =
      ({ trigger := (Trigger.read first.line).value
         steps := rest.map fun entry => (Step.read entry).value },
        found ++ (Trigger.read first.line).added ++ nestingProblems first found ++
          rest.flatMap fun entry => (Step.read entry).added) := by
  unfold Campaign.read
  rw [h]
  show (let afterTrigger := (Trigger.read first.line).run found
    let afterNesting := (reportNesting first).run afterTrigger.2
    let afterSteps := (rest.mapM Step.read).run afterNesting.2
    ((⟨afterTrigger.1, afterSteps.1⟩ : Campaign), afterSteps.2)) = _
  simp only [Trigger.appends_read first.line found, run_reportNesting,
    nestingProblems_append first found fun _ => Trigger.isFatal_of_mem_added,
    appends_mapM Step.appends_read rest _, value_mapM Step.appends_read,
    added_mapM Step.appends_read]

end Campaign

end CampaignScript
