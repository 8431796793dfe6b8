import CampaignScript.Proofs.Outline.Joining
import CampaignScript.Proofs.Reading.Mapping

/-! How a script is read that is written behind another one. The readers take notice of the number
of a line only in comparison with other lines, so what they give does not change where all numbers
move on, and their problems move on with the lines. -/
namespace CampaignScript

def Entry.shift (count : Nat) (entry : Entry) : Entry :=
  { line := entry.line.shift count, nested := entry.nested.shift count }

theorem Line.keepsReading_shift (count : Nat) : KeepsReading (Line.shift count) where
  text := text_shift count
  gap line previous := by
    simp only [shift]
    omega

theorem Entry.shift_eq_map (count : Nat) : Entry.shift count = Entry.map (Line.shift count) := by
  funext entry
  rw [shift, map, Outline.shift_eq_map]

theorem Outline.entries_shift (count : Nat) (outline : Outline) :
    (outline.shift count).entries = outline.entries.map (Entry.shift count) := by
  rw [shift_eq_map, entries_map, Entry.shift_eq_map]

theorem Step.value_read_shift (count : Nat) (entry : Entry) :
    (Step.read (entry.shift count)).value = (Step.read entry).value := by
  rw [Entry.shift_eq_map, value_read_map (Line.keepsReading_shift count)]

namespace Campaign

theorem value_read_shift (count : Nat) {outline : Outline} (h : outline ≠ .empty) :
    (Campaign.read (outline.shift count)).value = (Campaign.read outline).value := by
  rw [Outline.shift_eq_map, value_read_map (Line.keepsReading_shift count) h]

theorem reports_shift (count : Nat) (broken : Bool) {outline : Outline} (h : outline ≠ .empty) :
    reports broken (outline.shift count) = (reports broken outline).map (Problem.shift count) := by
  rw [Outline.shift_eq_map, reports_map (Line.keepsReading_shift count) h]
  rfl

/-- The entries of a second outline are further steps. -/
theorem value_read_append {outline : Outline} (h : outline ≠ .empty) (more : Outline) :
    (Campaign.read (outline ++ more)).value =
      { trigger := (Campaign.read outline).value.trigger
        steps := (Campaign.read outline).value.steps ++
          more.entries.map fun entry => (Step.read entry).value } := by
  cases outline with
  | empty => exact absurd rfl h
  | entry first nested rest =>
    rw [Outline.entry_append, value_read_entry, value_read_entry, Outline.entries_append,
      List.map_append]

end Campaign

namespace Reading

theorem any_isFatal_shift (count : Nat) (problems : List Problem) :
    (problems.map (Problem.shift count)).any Problem.isFatal = problems.any Problem.isFatal :=
  any_isFatal_map (Line.shift count) problems

/-- Scripts compose where a line begins at the top level. A script that reading breaks off in hides
whatever is written behind it. Otherwise a script that begins at the top level is laid out behind
another one as it is alone, and its lines are read as further steps. Blank lines in front of a
script do nothing but move it on in the numbering. -/
theorem ofText_append {front : Text} (hfront : front.getLast? = some '\n') (more : Text) :
    ((Layout.ofText front).problems ≠ [] →
      Layout.ofText (front ++ more) = Layout.ofText front ∧ ofText (front ++ more) = ofText front) ∧
    ((Layout.ofText front).problems = [] → (∃ text ∈ front.lines, ¬ text.IsBlank) →
      (∃ first, more.lines.find? (fun text => ¬ text.IsBlank) = some first ∧
        (Line.ofSource first 1).indent = 0) →
      (Layout.ofText (front ++ more)).outline =
        (Layout.ofText front).outline ++ (Layout.ofText more).outline.shift front.lines.length ∧
      (Layout.ofText (front ++ more)).problems =
        (Layout.ofText more).problems.map (Problem.shift front.lines.length) ∧
      (ofText (front ++ more)).campaign =
        { trigger := (ofText front).campaign.trigger
          steps := (ofText front).campaign.steps ++
            (Layout.ofText more).outline.entries.map fun entry => (Step.read entry).value }) ∧
    ((∀ text ∈ front.lines, text.IsBlank) → (∃ text ∈ more.lines, ¬ text.IsBlank) →
      (ofText (front ++ more)).campaign = (ofText more).campaign ∧
      (ofText (front ++ more)).problems =
        (ofText more).problems.map (Problem.shift front.lines.length)) := by
  refine ⟨fun hproblems => ?_, fun hproblems hcontent hmore => ?_, fun hblank hmore => ?_⟩
  · have hmisplaced : (Layout.ofText front).misplaced.isSome := by
      rw [Option.isSome_iff_ne_none]
      intro hnone
      exact hproblems (by rw [Layout.problems, hnone]; rfl)
    have hlayout := Layout.ofText_append_of_misplaced hfront hmisplaced more
    refine ⟨hlayout, ?_⟩
    rw [ofText, hlayout]
    rfl
  · obtain ⟨first, hfind, hindent⟩ := hmore
    obtain ⟨place, hfirst⟩ := Layout.exists_head?_contentFrom hfind 1
    rw [← Layout.contentLines_ne_nil_iff] at hcontent
    have hmisplaced : (Layout.ofText front).misplaced = none := by
      simpa [Layout.problems] using hproblems
    have hlayout :=
      Layout.ofText_append_of_indent_eq_zero hfront hmisplaced hcontent hfirst hindent
    refine ⟨by rw [hlayout]; rfl, by rw [hlayout, ← Layout.problems_shift]; rfl, ?_⟩
    rw [campaign_ofText, hlayout, Layout.behind,
      Campaign.value_read_append (Layout.outline_ofText_ne_empty front), campaign_ofText front,
      Layout.shift, Outline.entries_shift, List.map_map]
    simp only [Function.comp_def, Step.value_read_shift]
  · rw [← Layout.contentLines_eq_nil_iff] at hblank
    rw [← Layout.contentLines_ne_nil_iff] at hmore
    have hlayout := Layout.ofText_append_of_blank hfront hblank hmore
    have houtline := Layout.outline_ofText_ne_empty more
    constructor
    · rw [campaign_ofText, hlayout, Layout.shift, Campaign.value_read_shift _ houtline,
        campaign_ofText more]
    · rw [problems_ofText, hlayout, Layout.problems_shift, any_isFatal_shift, Layout.shift,
        Campaign.reports_shift _ _ houtline, problems_ofText more, List.map_append]

/-- The same lines behind a script that reading breaks off in, behind a whole one and behind blank
lines. They have a gap in a value and a line out of place, which are found again. -/
theorem ofText_append_blocks :
    let broken : Text := "when a user joins\n        if new\n".toList
    let whole : Text := "\nwhen a user joins\nif new\n".toList
    let blank : Text := " \n\r\n".toList
    let more : Text := "send the A email\n\tb: c\n\n\t\td\nif f\n\t\tif g\nif h".toList
    let email : Step := .email "a".toList [⟨"b".toList, "c\nd".toList⟩]
    (Layout.ofText broken).problems ≠ [] ∧ ofText (broken ++ more) = ofText broken ∧
      (Layout.ofText whole).problems = [] ∧ (∃ text ∈ whole.lines, ¬ text.IsBlank) ∧
      more.lines.find? (fun text => ¬ text.IsBlank) = some "send the A email".toList ∧
      (ofText (whole ++ more)).campaign =
        ⟨some (.event "joins".toList),
          [.condition "new".toList, email, .condition "f".toList, .condition "g".toList]⟩ ∧
      (Layout.ofText (whole ++ more)).problems = [⟨⟨9, "        if g".toList⟩, .indentation⟩] ∧
      (∀ text ∈ blank.lines, text.IsBlank) ∧
      (ofText (blank ++ more)).campaign = ⟨none, [.condition "f".toList, .condition "g".toList]⟩ ∧
      (ofText (blank ++ more)).problems =
        [⟨⟨8, "        if g".toList⟩, .indentation⟩, ⟨⟨3, "send the A email".toList⟩, .trigger⟩] := by
  intro broken whole blank more email
  have hfirst :
      more.lines.find? (fun text => ¬ text.IsBlank) = some "send the A email".toList := by
    decide +kernel
  obtain ⟨hbroken, -, -⟩ := @ofText_append broken rfl more
  obtain ⟨-, hwhole, -⟩ := @ofText_append whole rfl more
  obtain ⟨-, -, hblank⟩ := @ofText_append blank rfl more
  have hproblems : (Layout.ofText broken).problems ≠ [] := by decide +kernel
  have hnone : (Layout.ofText whole).problems = [] := by decide +kernel
  have hcontent : ∃ text ∈ whole.lines, ¬ text.IsBlank := by decide +kernel
  have hempty : ∀ text ∈ blank.lines, text.IsBlank := by decide +kernel
  obtain ⟨-, hlayout, hcampaign⟩ := hwhole hnone hcontent ⟨_, hfirst, by decide +kernel⟩
  obtain ⟨hlater, hshifted⟩ := hblank hempty (by decide +kernel)
  refine ⟨hproblems, (hbroken hproblems).2, hnone, hcontent, hfirst, ?_, ?_, hempty, ?_, ?_⟩
  · rw [hcampaign]
    decide +kernel
  · rw [hlayout]
    decide +kernel
  · rw [hlater]
    decide +kernel
  · rw [hshifted]
    decide +kernel

end Reading

end CampaignScript
