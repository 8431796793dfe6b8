import CampaignScript.Proofs.Reading.Quotation

/-! Sessions in which the readers are called one after the other, in any order and on any lines.
Each call gives what it would give in a session of its own and adds its problems behind those found
before. The past of a session matters only where a campaign is read, and there only whether a
problem found before was fatal. No call finds a fatal problem, so this does not change on the way. -/
namespace CampaignScript

open Session

namespace Campaign

/-- What the reading of a campaign reports, where the reading of its script `broken` off or not. -/
def reports (broken : Bool) : Outline → List Problem
  | .empty => (Trigger.read .empty).added
  | .entry first nested rest =>
    (Trigger.read first).added ++
      (if broken then [] else nested.lines.head?.toList.map ({ line := ·, cause := .nesting })) ++
      rest.entries.flatMap fun entry => (Step.read entry).added

/-- An empty outline is read like an empty line. -/
theorem read_empty : Campaign.read .empty = Campaign.read (.entry .empty .empty .empty) := rfl

theorem nestingProblems_eq (first : Line) (nested : Outline) (found : List Problem) :
    nestingProblems ⟨first, nested⟩ found =
      if found.any Problem.isFatal then []
      else nested.lines.head?.toList.map ({ line := ·, cause := .nesting }) := by
  rw [nestingProblems]
  cases nested.lines with
  | nil => simp
  | cons line lines => simp

theorem run_read_entry (first : Line) (nested rest : Outline) (found : List Problem) :
    (Campaign.read (.entry first nested rest)).run found =
      ({ trigger := (Trigger.read first).value
         steps := rest.entries.map fun entry => (Step.read entry).value },
        found ++ reports (found.any Problem.isFatal) (.entry first nested rest)) := by
  rw [run_read rfl, nestingProblems_eq, reports, List.append_assoc, List.append_assoc,
    List.append_assoc]

theorem run_read_reports (outline : Outline) (found : List Problem) :
    (Campaign.read outline).run found =
      ((Campaign.read outline).value, found ++ reports (found.any Problem.isFatal) outline) := by
  cases outline with
  | empty =>
    rw [read_empty, value, run_read_entry, run_read_entry]
    simp [reports, Outline.lines, Outline.entries]
  | entry first nested rest => rw [value, run_read_entry, run_read_entry]

/-- Besides what the readers report, there is only the line nested under the trigger. -/
theorem quotes_of_mem_reports {broken : Bool} {outline : Outline} {problem : Problem}
    (h : problem ∈ reports broken outline) : problem.reason = .nesting ∨ problem.Quotes := by
  cases outline with
  | empty => exact .inr (Trigger.quotes_of_mem_added h)
  | entry first nested rest =>
    simp only [reports, List.mem_append] at h
    rcases h with (h | h) | h
    · exact .inr (Trigger.quotes_of_mem_added h)
    · split at h
      · exact absurd h List.not_mem_nil
      · obtain ⟨line, -, rfl⟩ := List.mem_map.mp h
        exact .inl rfl
    · obtain ⟨entry, -, h⟩ := List.mem_flatMap.mp h
      exact .inr (Step.quotes_of_mem_added h)

theorem isFatal_of_mem_reports {broken : Bool} {outline : Outline} {problem : Problem}
    (h : problem ∈ reports broken outline) : problem.isFatal = false := by
  rcases quotes_of_mem_reports h with hnesting | hquotes
  · rw [Problem.isFatal_eq, hnesting]
    rfl
  · exact hquotes.isFatal

end Campaign

/-- A call of a reader. -/
inductive Call where
  | trigger (line : Line)
  | step (entry : Entry)
  | customField (entry : Entry)
  | campaign (outline : Outline)
deriving DecidableEq, Repr

/-- What a call gives. -/
inductive Answer where
  | trigger (trigger : Option Trigger)
  | step (step : Step)
  | customField (field : CustomField)
  | campaign (campaign : Campaign)
deriving DecidableEq, Repr

namespace Call

def run : Call → Session Answer
  | trigger line => do
    let trigger ← Trigger.read line
    pure (.trigger trigger)
  | step entry => do
    let step ← Step.read entry
    pure (.step step)
  | customField entry => do
    let field ← CustomField.read entry
    pure (.customField field)
  | campaign outline => do
    let campaign ← Campaign.read outline
    pure (.campaign campaign)

/-- What a call gives in a session of its own. -/
def answer : Call → Answer
  | trigger line => .trigger (Trigger.read line).value
  | step entry => .step (Step.read entry).value
  | customField entry => .customField (CustomField.read entry).value
  | campaign outline => .campaign (Campaign.read outline).value

/-- What a call reports in a session that has met a fatal problem or not. -/
def reports (broken : Bool) : Call → List Problem
  | trigger line => (Trigger.read line).added
  | step entry => (Step.read entry).added
  | customField entry => (CustomField.read entry).added
  | campaign outline => Campaign.reports broken outline

private theorem run_map {α : Type} {reader : Session α} {found : List Problem} {a : α}
    {problems : List Problem} (h : reader.run found = (a, problems)) (f : α → Answer) :
    (reader >>= fun a => pure (f a)).run found = (f a, problems) := by
  show (f (reader.run found).1, (reader.run found).2) = (f a, problems)
  rw [h]

theorem run_eq (call : Call) (found : List Problem) :
    call.run.run found = (call.answer, found ++ call.reports (found.any Problem.isFatal)) := by
  cases call with
  | trigger line => exact run_map (Trigger.appends_read line found) .trigger
  | step entry => exact run_map (Step.appends_read entry found) .step
  | customField entry => exact run_map (CustomField.appends_read entry found) .customField
  | campaign outline => exact run_map (Campaign.run_read_reports outline found) .campaign

/-- No call finds a fatal problem. -/
theorem any_isFatal_reports (call : Call) (broken : Bool) :
    (call.reports broken).any Problem.isFatal = false := by
  have h : ∀ problem ∈ call.reports broken, problem.isFatal = false := by
    intro problem h
    cases call with
    | trigger line => exact (Trigger.quotes_of_mem_added h).isFatal
    | step entry => exact (Step.quotes_of_mem_added h).isFatal
    | customField entry => exact (CustomField.quotes_of_mem_added h).isFatal
    | campaign outline => exact Campaign.isFatal_of_mem_reports h
  simpa using h

theorem run_mapM (calls : List Call) (found : List Problem) :
    (calls.mapM Call.run).run found =
      (calls.map answer, found ++ calls.flatMap (reports (found.any Problem.isFatal))) := by
  induction calls generalizing found with
  | nil =>
    rw [List.map_nil, List.flatMap_nil, List.append_nil]
    rfl
  | cons call calls ih =>
    -- A call adds no fatal problem, so the calls behind it start as broken off as this one.
    have hbroken : (found ++ call.reports (found.any Problem.isFatal)).any Problem.isFatal =
        found.any Problem.isFatal := by
      rw [List.any_append, any_isFatal_reports, Bool.or_false]
    rw [List.mapM_cons]
    show (let afterCall := call.run.run found
      let afterCalls := (calls.mapM Call.run).run afterCall.2
      (afterCall.1 :: afterCalls.1, afterCalls.2)) = _
    simp only [run_eq, ih, hbroken, List.map_cons, List.flatMap_cons, List.append_assoc]

end Call

/-- The readers compose. Each of them puts its problems behind those found before and takes no
notice of them; a campaign is the reading of its first line as the trigger and of every other line
of the top level as a step, in their order, and an email has one field for each line nested directly
under it. A session of any calls gives what each call gives alone, and what it adds depends on its
past only by whether there was a fatal problem. -/
theorem Session.calls_compose :
    (∀ line, Appends (Trigger.read line)) ∧
    (∀ entry, Appends (Step.read entry)) ∧
    (∀ entry, Appends (CustomField.read entry)) ∧
    (∀ entry template fields, (Step.read entry).value = .email template fields →
      fields = entry.nested.entries.map fun field => (CustomField.read field).value) ∧
    Campaign.read .empty = Campaign.read (.entry .empty .empty .empty) ∧
    (∀ first nested rest found, (Campaign.read (.entry first nested rest)).run found =
      ({ trigger := (Trigger.read first).value
         steps := rest.entries.map fun entry => (Step.read entry).value },
        found ++ ((Trigger.read first).added ++
          (if found.any Problem.isFatal then []
            else nested.lines.head?.toList.map ({ line := ·, cause := .nesting })) ++
          rest.entries.flatMap fun entry => (Step.read entry).added))) ∧
    ∀ (calls : List Call) found, (calls.mapM Call.run).run found =
      (calls.map Call.answer,
        found ++ calls.flatMap (Call.reports (found.any Problem.isFatal))) := by
  refine ⟨Trigger.appends_read, Step.appends_read, CustomField.appends_read, ?_,
    Campaign.read_empty, Campaign.run_read_entry, Call.run_mapM⟩
  intro entry template fields h
  rw [Step.value_read] at h
  split at h
  · cases h
    rfl
  all_goals contradiction

/-- The same calls in a session that has met a fatal problem and in a new one: the one does not
report the line nested under the trigger, and nothing else differs. -/
theorem Session.calls_compose_broken_off :
    let email : Entry :=
      ⟨⟨2, "send the New email".toList⟩,
        .entry ⟨3, "    to: all".toList⟩ .empty (.entry ⟨4, "    cc".toList⟩ .empty .empty)⟩
    let outline : Outline :=
      .entry ⟨1, "when a user joins".toList⟩ (.entry ⟨2, "    late".toList⟩ .empty .empty) .empty
    let fields : List CustomField := [⟨"to".toList, "all".toList⟩, ⟨[], []⟩]
    let calls : List Call := [.campaign outline, .step email]
    let answers : List Answer :=
      [.campaign ⟨some (.event "joins".toList), []⟩, .step (.email "new".toList fields)]
    let fatal : Problem := ⟨⟨5, "        dear".toList⟩, .indentation⟩
    let nesting : Problem := ⟨⟨2, "    late".toList⟩, .nesting⟩
    let customField : Problem := ⟨⟨4, "    cc".toList⟩, .customField⟩
    (Step.read email).value = .email "new".toList fields ∧
      fields = email.nested.entries.map (fun field => (CustomField.read field).value) ∧
      (calls.mapM Call.run).run [fatal] = (answers, [fatal, customField]) ∧
      (calls.mapM Call.run).run [] = (answers, [nesting, customField]) := by
  intro email outline fields calls answers fatal nesting customField
  obtain ⟨-, -, -, hfields, -, -, hcalls⟩ := Session.calls_compose
  have hvalue : (Step.read email).value = .email "new".toList fields := by decide +kernel
  refine ⟨hvalue, hfields email _ fields hvalue, ?_, ?_⟩
  · rw [hcalls]
    exact congrArg₂ Prod.mk (by decide +kernel) (by decide +kernel)
  · rw [hcalls]
    exact congrArg₂ Prod.mk (by decide +kernel) (by decide +kernel)

end CampaignScript
