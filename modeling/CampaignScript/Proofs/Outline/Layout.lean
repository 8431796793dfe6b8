import CampaignScript.Outline.Layout
import CampaignScript.Proofs.Outline.Listing
import Mathlib.Data.List.Induction

/-! What the layout of a script holds: the lines up to the first that is out of place, in their
order, each at the depth that its indentation says. -/
namespace CampaignScript.Layout

/-- Whether the line at a position is indented further than its place allows. The first line may
not be indented, and any other by one level more than the line before it. -/
def IsMisplaced (lines : List Line) : Nat → Prop
  | 0 => ∃ line, lines[0]? = some line ∧ 1 ≤ line.indent
  | k + 1 => ∃ previous line, lines[k]? = some previous ∧ lines[k + 1]? = some line ∧
      previous.indent + 1 < line.indent

/-- The deepest level open to a line behind the given ones. -/
def roomAfter (lines : List Line) : Nat :=
  lines.getLast?.elim 0 fun line => line.indent + 1

theorem isMisplaced_iff {lines : List Line} {k : Nat} :
    IsMisplaced lines k ↔
      ∃ line, lines[k]? = some line ∧ roomAfter (lines.take k) < line.indent := by
  cases k with
  | zero => simp [IsMisplaced, roomAfter, Nat.succ_le_iff]
  | succ k =>
    constructor
    · rintro ⟨previous, line, hprevious, hline, h⟩
      refine ⟨line, hline, ?_⟩
      simpa [roomAfter, List.getLast?_take, hprevious] using h
    · rintro ⟨line, hline, h⟩
      have hk : k < lines.length := by
        have := (List.getElem?_eq_some_iff.mp hline).1
        omega
      refine ⟨lines[k], line, List.getElem?_eq_getElem hk, hline, ?_⟩
      simpa [roomAfter, List.getLast?_take, List.getElem?_eq_getElem hk] using h

theorem isMisplaced_append_iff {lines more : List Line} {k : Nat} (hk : k < lines.length) :
    IsMisplaced (lines ++ more) k ↔ IsMisplaced lines k := by
  rw [isMisplaced_iff, isMisplaced_iff, List.getElem?_append_left hk,
    List.take_append_of_le_length hk.le]

theorem isMisplaced_length_iff {lines more : List Line} {line : Line} :
    IsMisplaced (lines ++ line :: more) lines.length ↔ roomAfter lines < line.indent := by
  simp [isMisplaced_iff]

/-- No line is out of place. -/
def WellPlaced (lines : List Line) : Prop :=
  ∀ k, ¬ IsMisplaced lines k

theorem IsMisplaced.lt_length {lines : List Line} {k : Nat} (h : IsMisplaced lines k) :
    k < lines.length := by
  obtain ⟨line, hline, -⟩ := isMisplaced_iff.mp h
  exact (List.getElem?_eq_some_iff.mp hline).1

theorem WellPlaced.of_append {lines more : List Line} (h : WellPlaced (lines ++ more)) :
    WellPlaced lines :=
  fun k hk => h k ((isMisplaced_append_iff hk.lt_length).mpr hk)

theorem wellPlaced_concat_iff {lines : List Line} {line : Line} :
    WellPlaced (lines ++ [line]) ↔ WellPlaced lines ∧ line.indent ≤ roomAfter lines := by
  constructor
  · intro h
    exact ⟨h.of_append, Nat.le_of_not_lt (h lines.length <| isMisplaced_length_iff.mpr ·)⟩
  · rintro ⟨hlines, hline⟩ k hk
    have hlt := hk.lt_length
    rw [List.length_append, List.length_singleton, Nat.lt_succ_iff_lt_or_eq] at hlt
    rcases hlt with hlt | rfl
    · exact hlines k ((isMisplaced_append_iff hlt).mp hk)
    · exact Nat.not_lt.mpr hline (isMisplaced_length_iff.mp hk)

/-- Lines that are not all in place divide at the first that is not. -/
theorem exists_first_misplaced {lines : List Line} (h : ¬ WellPlaced lines) :
    ∃ kept line dropped, lines = kept ++ line :: dropped ∧ WellPlaced kept ∧
      roomAfter kept < line.indent := by
  induction lines using List.reverseRecOn with
  | nil => exact absurd (fun k hk => absurd hk.lt_length (Nat.not_lt_zero k)) h
  | append_singleton lines line ih =>
    by_cases hlines : WellPlaced lines
    · have hroom : ¬ line.indent ≤ roomAfter lines :=
        fun hline => h (wellPlaced_concat_iff.mpr ⟨hlines, hline⟩)
      exact ⟨lines, line, [], rfl, hlines, Nat.lt_of_not_le hroom⟩
    · obtain ⟨kept, first, dropped, rfl, hkept, hroom⟩ := ih hlines
      exact ⟨kept, first, dropped ++ [line], by simp, hkept, hroom⟩

/-- The layout of lines none of which is out of place. -/
structure Follows (lines : List Line) (layout : Layout) : Prop where
  listing : layout.outline.listing 0 = lines.map fun line => (line.indent, line)
  spine : layout.outline.spine.length = layout.room
  room : layout.room = roomAfter lines
  misplaced : layout.misplaced = none

theorem Follows.start : Follows [] start :=
  ⟨rfl, rfl, rfl, rfl⟩

theorem Follows.add_eq {lines : List Line} {layout : Layout} (h : Follows lines layout)
    {line : Line} (hline : line.indent ≤ roomAfter lines) :
    layout.add line =
      { layout with outline := layout.outline.push line line.indent, room := line.indent + 1 } := by
  simp [Layout.add, h.misplaced, h.room, hline]

/-- A line at an open level goes to the end of its level. -/
theorem Follows.add {lines : List Line} {layout : Layout} (h : Follows lines layout) {line : Line}
    (hline : line.indent ≤ roomAfter lines) : Follows (lines ++ [line]) (layout.add line) := by
  have hroom : line.indent ≤ layout.outline.spine.length := by rwa [h.spine, h.room]
  rw [h.add_eq hline]
  refine ⟨?_, ?_, ?_, h.misplaced⟩
  · simp [Outline.listing_push, h.listing, hroom]
  · simp [Outline.spine_push, hroom]
  · simp [roomAfter]

theorem Follows.ofLines {lines : List Line} (h : WellPlaced lines) :
    Follows lines (ofLines lines) := by
  induction lines using List.reverseRecOn with
  | nil => exact .start
  | append_singleton lines line ih =>
    obtain ⟨hlines, hline⟩ := wellPlaced_concat_iff.mp h
    rw [Layout.ofLines, List.foldl_append]
    exact (ih hlines).add hline

/-- Once a line is out of place, no further line is laid out. -/
theorem foldl_add_of_misplaced {layout : Layout} (h : layout.misplaced.isSome)
    (lines : List Line) : lines.foldl add layout = layout := by
  induction lines with
  | nil => rfl
  | cons line lines ih => rw [List.foldl_cons, add, if_pos h, ih]

/-- The first line out of place is the last that is laid out. -/
theorem ofLines_append_of_misplaced {kept : List Line} {line : Line} (hkept : WellPlaced kept)
    (hline : roomAfter kept < line.indent) (dropped : List Line) :
    ofLines (kept ++ line :: dropped) =
      { ofLines kept with
        outline := (ofLines kept).outline.push line (roomAfter kept - 1)
        misplaced := some line } := by
  have h := Follows.ofLines hkept
  have hadd : (ofLines kept).add line =
      { ofLines kept with
        outline := (ofLines kept).outline.push line (roomAfter kept - 1)
        misplaced := some line } := by
    simp [Layout.add, h.misplaced, h.room, hline]
  rw [ofLines, List.foldl_append, List.foldl_cons, ← ofLines, hadd]
  exact foldl_add_of_misplaced rfl dropped

/-- The first line out of place is kept beside the line before it, and nothing after it is. -/
theorem ofLines_of_misplaced {kept : List Line} {line : Line} (hkept : WellPlaced kept)
    (hline : roomAfter kept < line.indent) (dropped : List Line) :
    (ofLines (kept ++ line :: dropped)).outline.listing 0 =
        (kept.map fun line => (line.indent, line)) ++
          [(kept.getLast?.elim 0 Line.indent, line)] ∧
      (ofLines (kept ++ line :: dropped)).misplaced = some line := by
  have h := Follows.ofLines hkept
  have hdepth : roomAfter kept - 1 = kept.getLast?.elim 0 Line.indent := by
    cases hlast : kept.getLast? <;> simp [roomAfter, hlast]
  rw [ofLines_append_of_misplaced hkept hline dropped]
  refine ⟨?_, rfl⟩
  rw [Outline.listing_push, h.listing, h.spine, h.room, Nat.min_eq_left (Nat.sub_le _ 1),
    Nat.zero_add, hdepth]

theorem ofText_of_eq_nil {source : Text} (h : contentLines source = []) :
    ofText source = { start with outline := .entry .empty .empty .empty } := by
  rw [ofText, h]

theorem ofText_of_ne_nil {source : Text} (h : contentLines source ≠ []) :
    ofText source = ofLines (contentLines source) := by
  rw [ofText]
  split
  · exact absurd ‹_› h
  · rfl

theorem outline_add_ne_empty {layout : Layout}
    (h : layout.outline ≠ .empty ∨ layout.misplaced.isNone) (line : Line) :
    (layout.add line).outline ≠ .empty := by
  unfold add
  split
  · next hmisplaced => exact h.resolve_right (by simp [Option.isSome_iff_ne_none.mp hmisplaced])
  · split <;> exact Outline.push_ne_empty _ _ _

theorem outline_foldl_add_ne_empty {layout : Layout} (h : layout.outline ≠ .empty)
    (lines : List Line) : (lines.foldl add layout).outline ≠ .empty := by
  induction lines generalizing layout with
  | nil => exact h
  | cons line lines ih => exact ih (outline_add_ne_empty (.inl h) line)

theorem outline_ofText_ne_empty (source : Text) : (ofText source).outline ≠ .empty := by
  cases hlines : contentLines source with
  | nil => simp [ofText_of_eq_nil hlines]
  | cons line lines =>
    rw [ofText_of_ne_nil (by simp [hlines]), hlines]
    exact outline_foldl_add_ne_empty (outline_add_ne_empty (.inr rfl) line) lines

/-- The layout of a script is that of its lines with content, one of three: a single empty line
where there is none, all of them where none is out of place, and otherwise those up to the first
that is out of place, which is kept beside the line before it and reported. Every other line stands
at the depth of its indentation, and no other outline has the same listing. -/
theorem ofText_listing (source : Text) :
    let lines := contentLines source
    let layout := ofText source
    (∀ outline : Outline, outline.listing 0 = layout.outline.listing 0 →
      outline = layout.outline) ∧
    ((lines = [] ∧ layout.outline.listing 0 = [(0, .empty)] ∧ layout.problems = []) ∨
      (lines ≠ [] ∧ (∀ k, ¬ IsMisplaced lines k) ∧
        layout.outline.listing 0 = (lines.map fun line => (line.indent, line)) ∧
        layout.problems = []) ∨
      ∃ k line, lines[k]? = some line ∧ IsMisplaced lines k ∧
        (∀ j < k, ¬ IsMisplaced lines j) ∧
        layout.outline.listing 0 = ((lines.take k).map fun line => (line.indent, line)) ++
          [((lines.take k).getLast?.elim 0 Line.indent, line)] ∧
        layout.problems = [{ line, cause := .indentation }]) := by
  intro lines layout
  refine ⟨fun outline h => Outline.listing_injective 0 h, ?_⟩
  by_cases hlines : contentLines source = []
  · left
    have hlayout : layout = _ := ofText_of_eq_nil hlines
    exact ⟨hlines, by rw [hlayout]; rfl, by rw [hlayout]; rfl⟩
  have hlayout : layout = ofLines lines := ofText_of_ne_nil hlines
  by_cases hplaced : WellPlaced lines
  · have h := Follows.ofLines hplaced
    refine .inr (.inl ⟨hlines, hplaced, ?_, ?_⟩)
    · rw [hlayout, h.listing]
    · rw [hlayout, problems, h.misplaced]
      rfl
  · obtain ⟨kept, line, dropped, hsplit, hkept, hroom⟩ := exists_first_misplaced hplaced
    obtain ⟨hlisting, hmisplaced⟩ := ofLines_of_misplaced hkept hroom dropped
    rw [← hsplit, ← hlayout] at hlisting hmisplaced
    refine .inr (.inr ⟨kept.length, line, ?_, ?_, ?_, ?_, ?_⟩)
    · simp [hsplit]
    · rw [hsplit]
      exact isMisplaced_length_iff.mpr hroom
    · intro k hk hmis
      rw [hsplit] at hmis
      exact hkept k ((isMisplaced_append_iff hk).mp hmis)
    · rw [hlisting, hsplit, List.take_left]
    · rw [problems, hmisplaced]
      rfl

end CampaignScript.Layout
