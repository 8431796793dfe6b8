import CampaignScript.Proofs.Outline.Layout
import CampaignScript.Proofs.Outline.Line

/-! Scripts that are written for an outline. Where the lines with content stand at the depths that
an outline lists them at, the script is laid out as that outline, and nothing is out of place. -/
namespace CampaignScript

namespace Layout

/-- Whether each depth is at most one more than that before it, and the first at most `room`. -/
def Descends (room : Nat) : List Nat → Prop
  | [] => True
  | depth :: depths => depth ≤ room ∧ Descends (depth + 1) depths

theorem descends_concat_iff {room depth : Nat} {depths : List Nat} :
    Descends room (depths ++ [depth]) ↔
      Descends room depths ∧ depth ≤ depths.getLast?.elim room (· + 1) := by
  induction depths generalizing room with
  | nil => simp [Descends]
  | cons first depths ih =>
    rw [List.cons_append, Descends, Descends, ih, and_assoc]
    cases depths <;> simp [List.getLast?_cons]

theorem wellPlaced_of_descends {lines : List Line} (h : Descends 0 (lines.map Line.indent)) :
    WellPlaced lines := by
  induction lines using List.reverseRecOn with
  | nil => exact fun k hk => absurd hk.lt_length (Nat.not_lt_zero k)
  | append_singleton lines line ih =>
    rw [List.map_append, List.map_singleton, descends_concat_iff] at h
    obtain ⟨hlines, hline⟩ := h
    refine wellPlaced_concat_iff.mpr ⟨ih hlines, ?_⟩
    rw [List.getLast?_map] at hline
    rw [roomAfter]
    cases hlast : lines.getLast? <;> simpa [hlast] using hline

/-- The depths of a listing go down level by level. -/
theorem descends_listing {outline : Outline} {depth room : Nat} (hroom : depth ≤ room)
    {more : List Nat} (hmore : ∀ room, depth ≤ room → Descends room more) :
    Descends room ((outline.listing depth).map Prod.fst ++ more) := by
  induction outline generalizing depth room more with
  | empty => exact hmore room hroom
  | entry line nested rest ihNested ihRest =>
    rw [Outline.listing, List.map_cons, List.map_append, List.cons_append, List.append_assoc]
    refine ⟨hroom, ihNested (Nat.le_refl _) fun room hroom => ?_⟩
    exact ihRest (Nat.le_of_succ_le hroom) hmore

theorem eq_of_listing {source : Text} {outline : Outline} (hne : outline ≠ .empty)
    (h : outline.listing 0 = (contentLines source).map fun line => (line.indent, line)) :
    (Layout.ofText source).outline = outline ∧ (Layout.ofText source).problems = [] := by
  have hdescends : Descends 0 ((contentLines source).map Line.indent) := by
    have hdepths : Descends 0 ((outline.listing 0).map Prod.fst ++ []) :=
      descends_listing (Nat.le_refl 0) fun _ _ => trivial
    rw [h, List.append_nil, List.map_map] at hdepths
    exact hdepths
  have hfollows := Follows.ofLines (wellPlaced_of_descends hdescends)
  have hlines : contentLines source ≠ [] := by
    intro hnil
    rw [hnil] at h
    exact hne (Outline.listing_injective 0 h)
  rw [ofText_of_ne_nil hlines, problems, hfollows.misplaced]
  exact ⟨Outline.listing_injective 0 (hfollows.listing.trans h.symm), rfl⟩

/-- The lines with content among written lines that are numbered from `number` on. -/
def contentFrom (number : Nat) (written : List Text) : List Line :=
  let numbered := written.zipIdx number
  (numbered.map fun (text, number) => Line.ofSource text number).filter fun line => !line.isBlank

theorem contentFrom_cons (number : Nat) (text : Text) (written : List Text) :
    contentFrom number (text :: written) =
      if (Line.ofSource text number).isBlank then contentFrom (number + 1) written
      else Line.ofSource text number :: contentFrom (number + 1) written := by
  cases hblank : (Line.ofSource text number).isBlank <;> simp [contentFrom, hblank]

theorem contentFrom_append (number : Nat) (written more : List Text) :
    contentFrom number (written ++ more) =
      contentFrom number written ++ contentFrom (number + written.length) more := by
  simp [contentFrom, List.zipIdx_append]

theorem contentFrom_eq_nil_iff {number : Nat} {written : List Text} :
    contentFrom number written = [] ↔ ∀ text ∈ written, text.IsBlank := by
  induction written generalizing number with
  | nil => simp [contentFrom]
  | cons text written ih =>
    rw [contentFrom_cons, List.forall_mem_cons]
    split_ifs with h
    · rw [ih, and_iff_right (Line.isBlank_ofSource_iff.mp h)]
    · simp [mt Line.isBlank_ofSource_iff.mpr h]

theorem contentLines_eq_nil_iff {source : Text} :
    contentLines source = [] ↔ ∀ text ∈ source.lines, text.IsBlank :=
  contentFrom_eq_nil_iff

theorem contentLines_ne_nil_iff {source : Text} :
    contentLines source ≠ [] ↔ ∃ text ∈ source.lines, ¬ text.IsBlank := by
  simp [contentLines_eq_nil_iff]

/-- The first line with content is made from the first written line that is not blank. -/
theorem exists_head?_contentFrom {written : List Text} {text : Text}
    (h : written.find? (fun text => ¬ text.IsBlank) = some text) (number : Nat) :
    ∃ place, (contentFrom number written).head? = some (Line.ofSource text place) := by
  induction written generalizing number with
  | nil => contradiction
  | cons next written ih =>
    rw [contentFrom_cons]
    by_cases hblank : next.IsBlank
    · rw [if_pos (Line.isBlank_ofSource_iff.mpr hblank)]
      exact ih (by simpa [hblank] using h) (number + 1)
    · obtain rfl : next = text := by simpa [hblank] using h
      rw [if_neg (mt Line.isBlank_ofSource_iff.mp hblank)]
      exact ⟨number, rfl⟩

/-- The lines with content, told by the written lines and their places. -/
theorem contentLines_eq (source : Text) :
    contentLines source =
      ((source.lines.zipIdx 1).filter fun (text, _) => ¬ text.IsBlank).map
        fun (text, number) => ⟨number, Line.expandTabs text⟩ := by
  have hblank (item : Text × Nat) :
      (!(Line.ofSource item.1 item.2).isBlank) = decide (¬ item.1.IsBlank) := by
    have hiff := @Line.isBlank_ofSource_iff item.1 item.2
    cases hline : (Line.ofSource item.1 item.2).isBlank <;> simp [← hiff, hline]
  rw [contentLines, List.filter_map]
  congr 1
  exact List.filter_congr fun item _ => hblank item

end Layout

namespace Outline

/-- Whether the lines with content among written lines, numbered from `number` on, are the lines of
an outline that stands at `depth`, each indented to its place. -/
def WrittenAs (depth number : Nat) (outline : Outline) (written : List Text) : Prop :=
  outline.listing depth =
    (Layout.contentFrom number written).map fun line => (line.indent, line)

namespace WrittenAs

theorem empty (depth number : Nat) : WrittenAs depth number .empty [] := rfl

/-- An empty line counts in the numbering only. -/
theorem blank {depth number : Nat} {outline : Outline} {written : List Text}
    (h : outline.WrittenAs depth (number + 1) written) :
    outline.WrittenAs depth number ([] :: written) := by
  have hblank : (Line.ofSource [] number).isBlank = true := rfl
  rw [WrittenAs, Layout.contentFrom_cons, if_pos hblank]
  exact h

/-- An entry is written as its line, the lines nested under it, and those of what follows. -/
theorem entry {depth number : Nat} {content : Text} {nested rest : Outline}
    {inner more : List Text} (hcontent : Line.IsContent content)
    (hnested : nested.WrittenAs (depth + 1) (number + 1) inner)
    (hrest : rest.WrittenAs depth (number + 1 + inner.length) more) :
    (Outline.entry (Line.ofSource (Line.indented depth content) number) nested rest).WrittenAs
      depth number (Line.indented depth content :: inner ++ more) := by
  have hline : ¬ (Line.ofSource (Line.indented depth content) number).isBlank = true :=
    Bool.eq_false_iff.mp (Line.isBlank_ofSource hcontent depth number)
  rw [WrittenAs] at hnested hrest
  rw [WrittenAs, Outline.listing, hnested, hrest, List.cons_append, Layout.contentFrom_cons,
    if_neg hline, Layout.contentFrom_append, List.map_cons, List.map_append,
    Line.indent_ofSource hcontent]

/-- A script that is written for an outline is laid out as that outline. -/
theorem ofText {source : Text} {outline : Outline} (hne : outline ≠ .empty)
    (h : outline.WrittenAs 0 1 source.lines) :
    (Layout.ofText source).outline = outline ∧ (Layout.ofText source).problems = [] :=
  Layout.eq_of_listing hne h

end WrittenAs

end Outline

end CampaignScript
