import CampaignScript.Proofs.Outline.Growth
import CampaignScript.Proofs.Reading.Joining

/-! Scripts that are written further. What is written behind a whole line can add to the value of
the last field, to the last email and to the campaign, but nothing that was read is taken back, and
no problem of a line is found later than it was. -/
namespace CampaignScript

open Session

namespace CustomField

/-- Whether a field goes on as another one, by more of its value. -/
def Grows (field later : CustomField) : Prop :=
  later.key = field.key ∧ field.value <+: later.value

theorem isPrefix_continueValue (previous : Nat) (value : Text) (lines : List Line) :
    value <+: continueValue previous value lines := by
  induction lines generalizing previous value with
  | nil => exact List.prefix_rfl
  | cons line lines ih =>
    rw [continueValue]
    apply List.IsPrefix.trans _ (ih _ _)
    rw [List.append_assoc]
    exact List.prefix_append _ _

theorem continueValue_isPrefix (previous : Nat) (value : Text) (lines more : List Line) :
    continueValue previous value lines <+: continueValue previous value (lines ++ more) := by
  induction lines generalizing previous value with
  | nil => exact isPrefix_continueValue previous value more
  | cons line lines ih =>
    rw [List.cons_append, continueValue, continueValue]
    exact ih _ _

theorem grows_read {entry later : Entry} (h : entry.Grows later) :
    Grows (CustomField.read entry).value (CustomField.read later).value := by
  obtain ⟨hline, hnested⟩ := h
  obtain ⟨more, hlines⟩ := hnested.lines_isPrefix
  rw [value_read, value_read, hline, ← hlines]
  split
  · exact ⟨rfl, continueValue_isPrefix _ _ _ more⟩
  · exact ⟨rfl, List.prefix_rfl⟩

theorem added_read_of_grows {entry later : Entry} (h : entry.Grows later) :
    (CustomField.read later).added = (CustomField.read entry).added := by
  rw [added_read, added_read, h.1]

end CustomField

namespace Step

/-- Whether a step goes on as another one. Only an email does, by its last field and by further
fields. -/
def Grows : Step → Step → Prop
  | email template fields, later =>
    ∃ laterFields, later = email template laterFields ∧
      GrowsAtEnd CustomField.Grows fields laterFields
  | step, later => later = step

theorem grows_read {entry later : Entry} (h : entry.Grows later) :
    Grows (Step.read entry).value (Step.read later).value := by
  rw [value_read, value_read, h.1]
  split
  · refine ⟨_, rfl, h.2.entries.map ?_⟩
    intro field laterField hfield
    exact CustomField.grows_read hfield
  · rfl
  · rfl
  · rfl

theorem added_read_isPrefix {entry later : Entry} (h : entry.Grows later) :
    (Step.read entry).added <+: (Step.read later).added := by
  rw [added_read, added_read, h.1]
  split
  · apply h.2.entries.flatMap_isPrefix
    intro field laterField hfield
    exact ⟨[], by rw [List.append_nil, CustomField.added_read_of_grows hfield]⟩
  · exact List.prefix_rfl
  · exact List.prefix_rfl
  · exact List.prefix_rfl

end Step

namespace Reading

/-- The problems that are not told by the place of a line, line by line. -/
theorem filter_problems_ofText {source : Text} {first : Line} {nested rest : Outline}
    (h : (Layout.ofText source).outline = .entry first nested rest) :
    (ofText source).problems.filter (!·.isStructural) =
      (Trigger.read first).added ++ rest.entries.flatMap fun entry => (Step.read entry).added := by
  have hlayout : (Layout.ofText source).problems.filter (!·.isStructural) = [] := by
    rw [Layout.problems]
    cases (Layout.ofText source).misplaced <;> rfl
  have htrigger : (Trigger.read first).added.filter (!·.isStructural) =
      (Trigger.read first).added :=
    Problem.filter_isStructural_of_quotes fun _ => Trigger.quotes_of_mem_added
  have hsteps : (rest.entries.flatMap fun entry => (Step.read entry).added).filter
      (!·.isStructural) = rest.entries.flatMap fun entry => (Step.read entry).added := by
    apply Problem.filter_isStructural_of_quotes
    intro problem hproblem
    obtain ⟨entry, -, hproblem⟩ := List.mem_flatMap.mp hproblem
    exact Step.quotes_of_mem_added hproblem
  rw [problems_ofText, h, Campaign.reports, List.filter_append, List.filter_append,
    List.filter_append, hlayout, htrigger, hsteps, List.nil_append]
  split
  · rw [List.filter_nil, List.append_nil]
  · rw [List.filter_eq_nil_iff.mpr]
    · rw [List.append_nil]
    · intro problem hproblem
      obtain ⟨line, -, rfl⟩ := List.mem_map.mp hproblem
      simp [Problem.isStructural, Problem.reason, Cause.reason]

/-- What is written behind a script takes back nothing of what was read. The trigger stays, all
steps but the last stay as they are in their places, and the last one changes only if it is an
email: then its template stays, and so do its fields, but that the value of the last one may go on.
The problems that are told by words of their lines stay the first ones. -/
theorem ofText_append_grows {front : Text} (hfront : front.getLast? = some '\n')
    (hcontent : ∃ text ∈ front.lines, ¬ text.IsBlank) (more : Text) :
    (ofText (front ++ more)).campaign.trigger = (ofText front).campaign.trigger ∧
    GrowsAtEnd Step.Grows (ofText front).campaign.steps (ofText (front ++ more)).campaign.steps ∧
    (ofText front).problems.filter (!·.isStructural) <+:
      (ofText (front ++ more)).problems.filter (!·.isStructural) := by
  rw [← Layout.contentLines_ne_nil_iff] at hcontent
  have hgrows := Layout.grows_ofText_append hfront hcontent more
  rcases houtline : (Layout.ofText front).outline with _ | ⟨first, nested, rest⟩
  · exact absurd houtline (Layout.outline_ofText_ne_empty front)
  rw [houtline] at hgrows
  obtain ⟨laterNested, laterRest, hlater, hrest⟩ := hgrows.exists_of_entry
  rw [filter_problems_ofText houtline, filter_problems_ofText hlater, campaign_ofText,
    campaign_ofText, houtline, hlater, Campaign.value_read_entry, Campaign.value_read_entry]
  refine ⟨rfl, hrest.entries.map fun entry later => Step.grows_read, ?_⟩
  apply (List.prefix_append_right_inj _).mpr
  exact hrest.entries.flatMap_isPrefix fun entry later => Step.added_read_isPrefix

/-- A value goes on, a field without a key follows, and then a line out of place, which is kept
beside it and hides the rest. -/
theorem ofText_append_grows_misplaced :
    let front : Text := "when a user joins\nif new\nsend the A email\n    b: c\n".toList
    let more : Text := "\t\td\n    e\n\t\t\tf: g\nif h\n".toList
    let late : Line := ⟨6, "    e".toList⟩
    front.getLast? = some '\n' ∧ (∃ text ∈ front.lines, ¬ text.IsBlank) ∧
      (ofText front).campaign.steps =
        [.condition "new".toList, .email "a".toList [⟨"b".toList, "c".toList⟩]] ∧
      (ofText (front ++ more)).campaign.steps =
        [.condition "new".toList, .email "a".toList
          [⟨"b".toList, "c d".toList⟩, ⟨[], []⟩, ⟨"f".toList, "g".toList⟩]] ∧
      (ofText (front ++ more)).campaign.trigger = (ofText front).campaign.trigger ∧
      GrowsAtEnd Step.Grows (ofText front).campaign.steps
        (ofText (front ++ more)).campaign.steps ∧
      (ofText (front ++ more)).problems.filter (!·.isStructural) = [⟨late, .customField⟩] ∧
      (ofText front).problems.filter (!·.isStructural) <+:
        (ofText (front ++ more)).problems.filter (!·.isStructural) := by
  intro front more late
  have hcontent : ∃ text ∈ front.lines, ¬ text.IsBlank := by decide +kernel
  obtain ⟨htrigger, hsteps, hproblems⟩ := @ofText_append_grows front rfl hcontent more
  exact ⟨rfl, hcontent, by decide +kernel, by decide +kernel, htrigger, hsteps, by decide +kernel,
    hproblems⟩

end Reading

end CampaignScript
