import CampaignScript.Proofs.Outline.Mapping
import CampaignScript.Proofs.Outline.Writing

/-! Scripts that are written one behind the other. The lines of the second are numbered behind those
of the first, and where they begin at the top level, they are laid out as they are alone: a line at
the top level leaves nothing open that further lines could be nested under. -/
namespace CampaignScript

/-- The line as it is numbered behind `count` more lines. -/
def Line.shift (count : Nat) (line : Line) : Line :=
  { line with number := line.number + count }

@[simp] theorem Line.text_shift (count : Nat) (line : Line) :
    (line.shift count).text = line.text := rfl

@[simp] theorem Line.indent_shift (count : Nat) (line : Line) :
    (line.shift count).indent = line.indent := rfl

def Problem.shift (count : Nat) (problem : Problem) : Problem :=
  { problem with line := problem.line.shift count }

namespace Outline

def shift (count : Nat) : Outline → Outline
  | empty => empty
  | entry line nested rest => entry (line.shift count) (nested.shift count) (rest.shift count)

@[simp] theorem entries_ofEntries (list : List Entry) : (ofEntries list).entries = list := by
  induction list with
  | nil => rfl
  | cons entry list ih => exact congrArg (entry :: ·) ih

@[simp] theorem ofEntries_entries (outline : Outline) : ofEntries outline.entries = outline := by
  induction outline with
  | empty => rfl
  | entry line nested rest _ ih => exact congrArg (entry line nested) ih

/-- The entries of an outline and then those of another one. -/
def append : Outline → Outline → Outline
  | empty, more => more
  | entry line nested rest, more => entry line nested (rest.append more)

instance : Append Outline := ⟨append⟩

@[simp] theorem empty_append (more : Outline) : empty ++ more = more := rfl

@[simp] theorem entry_append (line : Line) (nested rest more : Outline) :
    entry line nested rest ++ more = entry line nested (rest ++ more) := rfl

theorem entries_append (outline more : Outline) :
    (outline ++ more).entries = outline.entries ++ more.entries := by
  induction outline with
  | empty => rfl
  | entry line nested rest _ ih => rw [entry_append, entries, entries, ih, List.cons_append]

theorem append_ne_empty (outline : Outline) {more : Outline} (h : more ≠ empty) :
    outline ++ more ≠ empty := by
  cases outline with
  | empty => exact h
  | entry => exact Outline.noConfusion

/-- A line that is pushed behind two outlines does not touch the first of them. -/
theorem push_append (line : Line) (level : Nat) (outline : Outline) {more : Outline}
    (h : more ≠ empty) : (outline ++ more).push line level = outline ++ more.push line level := by
  induction outline with
  | empty => rfl
  | entry head nested rest _ ih =>
    rw [entry_append, push_entry_of_ne_empty _ _ _ _ (append_ne_empty rest h), ih, entry_append]

theorem push_zero (line : Line) (outline : Outline) :
    outline.push line 0 = outline ++ entry line empty empty := by
  induction outline with
  | empty => rfl
  | entry head nested rest _ ih => rw [push, ih, entry_append]; simp

theorem shift_eq_map (count : Nat) (outline : Outline) :
    outline.shift count = outline.map (Line.shift count) := by
  induction outline with
  | empty => rfl
  | entry line nested rest ihNested ihRest => rw [shift, map, ihNested, ihRest]

end Outline

namespace Layout

def shift (count : Nat) (layout : Layout) : Layout :=
  { outline := layout.outline.shift count
    room := layout.room
    misplaced := layout.misplaced.map (Line.shift count) }

/-- The layout with an outline in front of its own. -/
def behind (front : Outline) (layout : Layout) : Layout :=
  { layout with outline := front ++ layout.outline }

theorem shift_eq_map (count : Nat) (layout : Layout) :
    layout.shift count = layout.map (Line.shift count) := by
  rw [shift, map, Outline.shift_eq_map]

theorem problems_shift (count : Nat) (layout : Layout) :
    (layout.shift count).problems = layout.problems.map (Problem.shift count) := by
  rw [shift_eq_map, problems_map]
  rfl

theorem shift_ofLines (count : Nat) (lines : List Line) :
    ofLines (lines.map (Line.shift count)) = (ofLines lines).shift count := by
  rw [shift_eq_map]
  exact ofLines_map (Line.indent_shift count) lines

theorem behind_add (front : Outline) {layout : Layout} (h : layout.outline ≠ .empty) (line : Line) :
    (layout.behind front).add line = (layout.add line).behind front := by
  have hpush (level : Nat) := Outline.push_append line level front h
  unfold add
  by_cases hmisplaced : layout.misplaced.isSome
  · rw [if_pos hmisplaced, if_pos (by exact hmisplaced)]
  · rw [if_neg hmisplaced, if_neg (by exact hmisplaced)]
    by_cases hroom : line.indent ≤ layout.room
    · rw [if_pos hroom, if_pos (by exact hroom)]
      simp [behind, hpush]
    · rw [if_neg hroom, if_neg (by exact hroom)]
      simp [behind, hpush]

theorem behind_foldl_add (front : Outline) {layout : Layout} (h : layout.outline ≠ .empty)
    (lines : List Line) :
    lines.foldl add (layout.behind front) = (lines.foldl add layout).behind front := by
  induction lines generalizing layout with
  | nil => rfl
  | cons line lines ih =>
    -- The outline behind `front` is not empty again, so no line comes to be nested in `front`.
    rw [List.foldl_cons, List.foldl_cons, behind_add front h]
    exact ih (outline_add_ne_empty (.inl h) line)

/-- A line at the top level is laid out behind what there is as it is laid out first. -/
theorem add_of_indent_eq_zero {layout : Layout} (hmisplaced : layout.misplaced = none) {line : Line}
    (hline : line.indent = 0) : layout.add line = (start.add line).behind layout.outline := by
  simp [add, start, behind, hmisplaced, hline, Outline.push_zero]

theorem contentFrom_add (number count : Nat) (written : List Text) :
    contentFrom (number + count) written = (contentFrom number written).map (Line.shift count) := by
  induction written generalizing number with
  | nil => rfl
  | cons text written ih =>
    have hline : Line.ofSource text (number + count) = (Line.ofSource text number).shift count := rfl
    rw [contentFrom_cons, contentFrom_cons, Nat.add_right_comm, ih, hline]
    split_ifs with hblank hshifted
    · rfl
    · exact absurd hblank hshifted
    · contradiction
    · rfl

section Append
variable {front : Text}

theorem contentLines_append (hfront : front.getLast? = some '\n') (more : Text) :
    contentLines (front ++ more) =
      contentLines front ++ (contentLines more).map (Line.shift front.lines.length) := by
  have hlines : (front ++ more).lines = front.lines ++ more.lines := by
    apply Text.lines_append_of_getLast?
    intro c hc
    exact (Option.some.inj (hfront.symm.trans hc)).symm
  show contentFrom 1 (front ++ more).lines = _
  rw [hlines, contentFrom_append, contentFrom_add]
  rfl

theorem ofLines_append (lines more : List Line) :
    ofLines (lines ++ more) = more.foldl add (ofLines lines) :=
  List.foldl_append

theorem contentLines_append_ne_nil (hfront : front.getLast? = some '\n')
    (hne : contentLines front ≠ []) (more : Text) : contentLines (front ++ more) ≠ [] := by
  rw [contentLines_append hfront]
  exact List.append_ne_nil_of_left_ne_nil hne _

/-- Behind a line that is out of place nothing is read. -/
theorem ofText_append_of_misplaced (hfront : front.getLast? = some '\n')
    (h : (ofText front).misplaced.isSome) (more : Text) : ofText (front ++ more) = ofText front := by
  have hne : contentLines front ≠ [] := by
    intro hnil
    rw [ofText_of_eq_nil hnil] at h
    contradiction
  rw [ofText_of_ne_nil hne] at h
  rw [ofText_of_ne_nil hne, ofText_of_ne_nil (contentLines_append_ne_nil hfront hne more),
    contentLines_append hfront, ofLines_append, foldl_add_of_misplaced h]

/-- A script that begins at the top level is laid out behind another one as it is alone. -/
theorem ofText_append_of_indent_eq_zero (hfront : front.getLast? = some '\n')
    (hmisplaced : (ofText front).misplaced = none) (hne : contentLines front ≠ []) {more : Text}
    {first : Line} (hfirst : (contentLines more).head? = some first) (hindent : first.indent = 0) :
    ofText (front ++ more) =
      ((ofText more).shift front.lines.length).behind (ofText front).outline := by
  obtain ⟨rest, hmore⟩ := List.head?_eq_some_iff.mp hfirst
  have hmoreNe : contentLines more ≠ [] := by
    rw [hmore]
    exact List.cons_ne_nil first rest
  rw [ofText_of_ne_nil hne] at hmisplaced
  rw [ofText_of_ne_nil hne, ofText_of_ne_nil hmoreNe,
    ofText_of_ne_nil (contentLines_append_ne_nil hfront hne more), contentLines_append hfront,
    ofLines_append, hmore, ← shift_ofLines, List.map_cons, List.foldl_cons]
  have hshifted : (first.shift front.lines.length).indent = 0 := hindent
  rw [add_of_indent_eq_zero hmisplaced hshifted, behind_foldl_add]
  · rfl
  · exact outline_add_ne_empty (.inr rfl) _

/-- Blank lines in front of a script move it on in the numbering. -/
theorem ofText_append_of_blank (hfront : front.getLast? = some '\n')
    (hblank : contentLines front = []) {more : Text} (hmore : contentLines more ≠ []) :
    ofText (front ++ more) = (ofText more).shift front.lines.length := by
  have hlines := contentLines_append hfront more
  rw [hblank, List.nil_append] at hlines
  rw [ofText_of_ne_nil hmore, ofText_of_ne_nil, hlines, shift_ofLines]
  rw [hlines]
  simpa using hmore

end Append

end Layout

end CampaignScript
