import CampaignScript.Proofs.Outline.Writing

/-! The order of lines. An outline keeps the lines of its script in the order in which they are
numbered, up to the line that reading stopped at, which comes last. -/
namespace CampaignScript

namespace Outline

/-- Every line, in the order of the script. -/
def preorder : Outline → List Line
  | empty => []
  | entry line nested rest => line :: (nested.preorder ++ rest.preorder)

theorem map_snd_listing (outline : Outline) (depth : Nat) :
    (outline.listing depth).map Prod.snd = outline.preorder := by
  induction outline generalizing depth with
  | empty => rfl
  | entry line nested rest ihNested ihRest =>
    rw [listing, List.map_cons, List.map_append, ihNested, ihRest, preorder]

/-- Every line together with what is nested under it, in the order of the script. -/
def everyEntry : Outline → List Entry
  | empty => []
  | entry line nested rest => ⟨line, nested⟩ :: (nested.everyEntry ++ rest.everyEntry)

theorem lines_sublist_preorder (outline : Outline) : outline.lines.Sublist outline.preorder := by
  induction outline with
  | empty => exact List.Sublist.refl _
  | entry line nested rest _ ihRest =>
    exact (ihRest.trans (List.sublist_append_right _ _)).cons_cons line

theorem entries_subset_everyEntry (outline : Outline) : outline.entries ⊆ outline.everyEntry := by
  induction outline with
  | empty => exact List.Subset.refl _
  | entry line nested rest _ ihRest =>
    rw [entries, everyEntry]
    exact List.cons_subset_cons _ (List.Subset.trans ihRest (List.subset_append_right _ _))

theorem everyEntry_nested_subset {outline : Outline} {e : Entry} (h : e ∈ outline.entries) :
    e.nested.everyEntry ⊆ outline.everyEntry := by
  induction outline with
  | empty => exact absurd h List.not_mem_nil
  | entry line nested rest _ ihRest =>
    rw [everyEntry]
    apply List.subset_cons_of_subset
    rcases List.mem_cons.mp h with rfl | h
    · exact List.subset_append_left _ _
    · exact List.Subset.trans (ihRest h) (List.subset_append_right _ _)

/-- The lines nested under a line come right behind it. -/
theorem entry_isInfix_preorder {outline : Outline} {e : Entry} (h : e ∈ outline.everyEntry) :
    e.line :: e.nested.preorder <:+: outline.preorder := by
  induction outline with
  | empty => exact absurd h List.not_mem_nil
  | entry line nested rest ihNested ihRest =>
    rw [everyEntry, List.mem_cons, List.mem_append] at h
    rw [preorder, ← List.cons_append]
    rcases h with rfl | h | h
    · exact (List.prefix_append _ _).isInfix
    · have hnested := (ihNested h).trans (List.suffix_cons line _).isInfix
      exact hnested.trans (List.prefix_append _ _).isInfix
    · exact (ihRest h).trans (List.suffix_append _ _).isInfix

end Outline

namespace Layout

theorem preorder_ofLines (lines : List Line) :
    (ofLines lines).outline.preorder <+: lines ∧
      ∀ line, (ofLines lines).misplaced = some line →
        (ofLines lines).outline.preorder.getLast? = some line := by
  by_cases hplaced : WellPlaced lines
  · -- Every line is in its place, and all of them are kept.
    have h := Follows.ofLines hplaced
    have hlines : (ofLines lines).outline.preorder = lines := by
      rw [← Outline.map_snd_listing _ 0, h.listing, List.map_map]
      exact List.map_id lines
    rw [hlines, h.misplaced]
    exact ⟨List.prefix_rfl, fun line hline => absurd hline (by simp)⟩
  · -- The lines up to the first one out of place are kept, that one included.
    obtain ⟨kept, last, dropped, rfl, hkept, hroom⟩ := exists_first_misplaced hplaced
    obtain ⟨hlisting, hmisplaced⟩ := ofLines_of_misplaced hkept hroom dropped
    have hlines : (ofLines (kept ++ last :: dropped)).outline.preorder = kept ++ [last] := by
      rw [← Outline.map_snd_listing _ 0, hlisting, List.map_append, List.map_map]
      exact congrArg (· ++ [last]) (List.map_id kept)
    rw [hlines, hmisplaced]
    refine ⟨⟨dropped, by simp⟩, fun line hline => ?_⟩
    rw [← hline, List.getLast?_concat]

/-- A line with content tells its place in the script and what is written there. -/
theorem exists_of_mem_contentLines {source : Text} {line : Line} (h : line ∈ contentLines source) :
    1 ≤ line.number ∧ line.number ≤ source.lines.length ∧
      (∃ text, source.lines[line.number - 1]? = some text ∧ line.raw = Line.expandTabs text) ∧
      line.isBlank = false := by
  obtain ⟨hmem, hblank⟩ := List.mem_filter.mp h
  obtain ⟨⟨text, number⟩, hnumbered, rfl⟩ := List.mem_map.mp hmem
  obtain ⟨hnumber, htext⟩ := List.mk_mem_zipIdx_iff_le_and_getElem?_sub.mp hnumbered
  have hlength := (List.getElem?_eq_some_iff.mp htext).1
  refine ⟨hnumber, ?_, ⟨text, htext, rfl⟩, by simpa using hblank⟩
  show number ≤ source.lines.length
  omega

theorem number_le_of_mem_contentFrom {number : Nat} {written : List Text} {line : Line}
    (h : line ∈ contentFrom number written) : number ≤ line.number := by
  obtain ⟨⟨text, place⟩, hnumbered, rfl⟩ := List.mem_map.mp (List.mem_filter.mp h).1
  exact (List.mk_mem_zipIdx_iff_le_and_getElem?_sub.mp hnumbered).1

theorem pairwise_contentFrom (number : Nat) (written : List Text) :
    (contentFrom number written).Pairwise fun line later => line.number < later.number := by
  induction written generalizing number with
  | nil => exact .nil
  | cons text written ih =>
    rw [contentFrom_cons]
    split
    · exact ih (number + 1)
    · refine List.pairwise_cons.mpr ⟨fun line hline => ?_, ih (number + 1)⟩
      exact number_le_of_mem_contentFrom hline

theorem pairwise_contentLines (source : Text) :
    (contentLines source).Pairwise fun line later => line.number < later.number :=
  pairwise_contentFrom 1 source.lines

/-- Each line of a layout and those nested under it stand in the script right behind each other, but
for blank lines, unless the script has no content and the line is the empty one that stands for
it. -/
theorem entry_isInfix_contentLines {source : Text} {entry : Entry}
    (h : entry ∈ (Layout.ofText source).outline.everyEntry) :
    entry = ⟨.empty, .empty⟩ ∨
      entry.line :: entry.nested.preorder <:+: contentLines source := by
  by_cases hcontent : contentLines source = []
  · rw [ofText_of_eq_nil hcontent] at h
    exact .inl (List.mem_singleton.mp h)
  · rw [ofText_of_ne_nil hcontent] at h
    have hstart := (preorder_ofLines (contentLines source)).1
    exact .inr ((Outline.entry_isInfix_preorder h).trans hstart.isInfix)

/-- The lines nested directly under a line stand in the script behind it, in order. -/
theorem entry_sublist_contentLines {source : Text} {entry : Entry}
    (h : entry ∈ (Layout.ofText source).outline.everyEntry) :
    entry = ⟨.empty, .empty⟩ ∨
      (entry.line :: entry.nested.lines).Sublist (contentLines source) := by
  refine (entry_isInfix_contentLines h).imp_right fun hinside => ?_
  exact ((Outline.lines_sublist_preorder entry.nested).cons_cons entry.line).trans hinside.sublist

end Layout

end CampaignScript
