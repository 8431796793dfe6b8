import CampaignScript.Proofs.Reading.Accounting
import CampaignScript.Proofs.Reading.Growth

/-! Which lines a script is read from. An email is read down to the lines under its fields, and any
other step from its own line alone. What is nested deeper than that is not looked at: it does not
change what is read, and it is not reported. -/
namespace CampaignScript

namespace Outline

/-- The upper levels of an outline, as many as are given. -/
def cut : Nat → Outline → Outline
  | 0, _ => empty
  | _ + 1, empty => empty
  | levels + 1, entry line nested rest => entry line (nested.cut levels) (rest.cut (levels + 1))

/-- The number of levels that an outline has. -/
def height : Outline → Nat
  | empty => 0
  | entry _ nested rest => max (nested.height + 1) rest.height

theorem cut_eq_self_iff {levels : Nat} {outline : Outline} :
    outline.cut levels = outline ↔ outline.height ≤ levels := by
  induction outline generalizing levels with
  | empty => cases levels <;> simp [cut, height]
  | entry line nested rest ihNested ihRest =>
    cases levels with
    | zero => simp [cut, height]
    | succ levels =>
      rw [height, Nat.max_le]
      simp [cut, ihNested, ihRest]

theorem entries_cut (levels : Nat) (outline : Outline) :
    (outline.cut (levels + 1)).entries =
      outline.entries.map fun entry => ⟨entry.line, entry.nested.cut levels⟩ := by
  induction outline with
  | empty => rfl
  | entry line nested rest _ ih => rw [cut, entries, entries, ih, List.map_cons]

theorem lines_cut (levels : Nat) (outline : Outline) :
    (outline.cut (levels + 1)).lines = outline.lines := by
  rw [lines, lines, entries_cut, List.map_map]
  rfl

end Outline

/-- How many levels of what is nested under a step are read. -/
def Step.reach (line : Line) : Nat :=
  match StepSentence.ofText? line.text with
  | some (.email _) => 2
  | _ => 0

/-- A step with as much of what is nested under it as is read. -/
def Entry.reached (entry : Entry) : Entry :=
  { entry with nested := entry.nested.cut (Step.reach entry.line) }

theorem CustomField.read_cut (entry : Entry) (levels : Nat) :
    CustomField.read ⟨entry.line, entry.nested.cut (levels + 1)⟩ = CustomField.read entry := by
  rw [CustomField.read, CustomField.read, Outline.lines_cut]

theorem Step.read_reached (entry : Entry) : Step.read entry.reached = Step.read entry := by
  rw [Step.read, Step.read, Entry.reached, Step.reach]
  rcases StepSentence.ofText? entry.line.text with _ | (template | predicate | ⟨amount, unit⟩)
  · rfl
  · simp only [Outline.entries_cut, List.mapM_map, Function.comp_def, CustomField.read_cut]
  · rfl
  · rfl

/-- The steps of an outline, each with as much of what is nested under it as is read. -/
def Outline.reached (steps : Outline) : Outline :=
  ofEntries (steps.entries.map Entry.reached)

/-- A campaign is read in the same way without what is nested too deep, its problems included. -/
theorem Campaign.read_reached (first : Line) (nested steps : Outline) :
    Campaign.read (.entry first nested steps.reached) =
      Campaign.read (.entry first nested steps) := by
  simp only [Campaign.read, Outline.entries, Outline.reached, Outline.entries_ofEntries,
    List.mapM_map, Function.comp_def, Step.read_reached]

/-- Whether each line below the top level is one that is read: none is nested under the trigger, and
each of the others stands under an email as a field, or directly under a field. -/
def Outline.IsReached : Outline → Prop
  | empty => True
  | entry _ nested steps =>
    nested = empty ∧ ∀ step ∈ steps.entries, step.nested.height ≤ Step.reach step.line

instance : DecidablePred Outline.IsReached
  | .empty => isTrue trivial
  | .entry _ _ _ => inferInstanceAs (Decidable (_ ∧ _))

theorem Outline.reached_eq_self_iff {steps : Outline} :
    steps.reached = steps ↔ ∀ step ∈ steps.entries, step.nested.height ≤ Step.reach step.line := by
  have hentries :
      steps.reached = steps ↔ steps.entries.map Entry.reached = steps.entries.map id := by
    rw [List.map_id]
    constructor
    · intro h
      rw [← entries_ofEntries (steps.entries.map Entry.reached)]
      exact congrArg entries h
    · intro h
      rw [reached, h, ofEntries_entries]
  have hentry (step : Entry) :
      step.reached = step ↔ step.nested.height ≤ Step.reach step.line := by
    rw [← cut_eq_self_iff, Entry.reached, Entry.mk.injEq]
    simp
  rw [hentries, List.map_inj_left]
  exact forall₂_congr fun step _ => hentry step

theorem CustomField.isInfix_continueValue {line : Line} {lines : List Line} (h : line ∈ lines)
    (previous : Nat) (value : Text) : line.text <:+: continueValue previous value lines := by
  induction lines generalizing previous value with
  | nil => exact absurd h List.not_mem_nil
  | cons first lines ih =>
    rw [continueValue]
    rcases List.mem_cons.mp h with rfl | h
    · exact (List.suffix_append _ _).isInfix.trans (isPrefix_continueValue _ _ lines).isInfix
    · exact ih h _ _

/-- The lines directly under a field with a key are part of its value. -/
theorem CustomField.isInfix_value_read {entry : Entry} (h : (CustomField.read entry).value.key ≠ [])
    {line : Line} (hline : line ∈ entry.nested.lines) :
    line.text <:+: (CustomField.read entry).value.value := by
  rw [value_read] at h ⊢
  split at h
  · exact isInfix_continueValue hline _ _
  · exact absurd rfl h

namespace Reading

/-- A valid script is read from its lines at the top level, from those directly under an email,
which are its fields, and from those directly under a field, which are part of its value. Nothing is
nested under its trigger. Anything else that is nested in it is lost: the script is read as without
it, and there is no report. So no line is lost exactly where none is nested deeper than is read. -/
theorem ofText_reach {source : Text} (h : (ofText source).isValid) :
    ∃ first steps, (Layout.ofText source).outline = .entry first .empty steps ∧
      (∀ step ∈ steps.entries, ∀ template,
        StepSentence.ofText? step.line.text = some (.email template) →
        (Step.read step).value = .email (identifier template)
            (step.nested.entries.map fun field => (CustomField.read field).value) ∧
          ∀ field ∈ step.nested.entries, (CustomField.read field).value.key ≠ [] ∧
            ∀ line ∈ field.nested.lines, line.text <:+: (CustomField.read field).value.value) ∧
      (Campaign.read (.entry first .empty steps.reached)).run [] = ((ofText source).campaign, []) ∧
      ((Layout.ofText source).outline.IsReached ↔ steps.reached = steps) := by
  obtain ⟨first, nested, steps, houtline, -, hproblems⟩ := ofText_eq source
  rw [List.isEmpty_iff.mp h] at hproblems
  simp only [List.nil_eq, List.append_eq_nil_iff] at hproblems
  obtain ⟨⟨⟨hlayout, -⟩, hnesting⟩, hsteps⟩ := hproblems
  have hnested : nested = .empty := by
    rw [Campaign.nestingProblems, hlayout] at hnesting
    cases nested with
    | empty => rfl
    | entry => simp [Outline.lines, Outline.entries] at hnesting
  subst hnested
  refine ⟨first, steps, houtline, fun step hstep template hsentence => ?_, ?_, ?_⟩
  · have hadded := List.flatMap_eq_nil_iff.mp hsteps step hstep
    rw [Step.added_read, hsentence] at hadded
    refine ⟨by rw [Step.value_read, hsentence], fun field hfield => ?_⟩
    have hkey : (CustomField.read field).value.key ≠ [] := by
      have hfieldAdded := List.flatMap_eq_nil_iff.mp hadded field hfield
      intro hnil
      rw [CustomField.added_read_eq, hnil] at hfieldAdded
      contradiction
    exact ⟨hkey, fun line => CustomField.isInfix_value_read hkey⟩
  · have hread :
        (Campaign.read (Layout.ofText source).outline).run (Layout.ofText source).problems =
          ((ofText source).campaign, (ofText source).problems) := rfl
    rw [houtline, hlayout, List.isEmpty_iff.mp h] at hread
    rw [Campaign.read_reached, hread]
  · rw [houtline, Outline.reached_eq_self_iff, Outline.IsReached]
    exact and_iff_right rfl

/-- The lines under a field are kept, and the line under a wait is lost. -/
theorem ofText_reach_wait :
    let source : Text :=
      "when a user a\nsend the B email\n    c: d\n        e\nwait for 1 day\n    f\n".toList
    let field : CustomField := ⟨"c".toList, "d e".toList⟩
    (ofText source).isValid ∧ ¬ (Layout.ofText source).outline.IsReached ∧
      ∃ first steps, (Layout.ofText source).outline = .entry first .empty steps ∧
        steps.reached ≠ steps ∧
        (Campaign.read (.entry first .empty steps.reached)).run [] =
          (⟨some (.event "a".toList), [.email "b".toList [field], .wait (some 1440)]⟩, []) := by
  intro source field
  have hvalid : (ofText source).isValid := by decide +kernel
  have hlost : ¬ (Layout.ofText source).outline.IsReached := by decide +kernel
  obtain ⟨first, steps, houtline, -, hread, hreached⟩ := ofText_reach hvalid
  refine ⟨hvalid, hlost, first, steps, houtline, fun h => hlost (hreached.mpr h), ?_⟩
  rw [hread]
  exact congrArg₂ Prod.mk (by decide +kernel) rfl

/-- Valid scripts can have lines that are not read, under a condition, under a wait, and under a
line that a value goes on in. -/
theorem ofText_loses_lines :
    let condition : Text := "when a user a\nif b\n    c\n".toList
    let wait : Text := "when a user a\nwait for 1 day\n    c\n".toList
    let value : Text :=
      "when a user a\nsend the b email\n    c: d\n        e\n            f\n".toList
    ((ofText condition).isValid ∧ ¬ (Layout.ofText condition).outline.IsReached) ∧
      ((ofText wait).isValid ∧ ¬ (Layout.ofText wait).outline.IsReached) ∧
      ((ofText value).isValid ∧ ¬ (Layout.ofText value).outline.IsReached) := by
  decide +kernel

end Reading

end CampaignScript
