import CampaignScript.Proofs.Outline.Layout

/-! Scripts with their lines changed one by one. The layout takes notice of nothing of a line but
its indentation, so a change that keeps the indentation goes through it. -/
namespace CampaignScript

variable (f : Line → Line)

/-- The problem as one of the changed line. -/
def Problem.map (problem : Problem) : Problem :=
  { problem with line := f problem.line }

namespace Outline

/-- The outline with each of its lines changed. -/
def map : Outline → Outline
  | empty => empty
  | entry line nested rest => entry (f line) nested.map rest.map

end Outline

def Entry.map (entry : Entry) : Entry :=
  { line := f entry.line, nested := entry.nested.map f }

namespace Outline

theorem entries_map (outline : Outline) :
    (outline.map f).entries = outline.entries.map (Entry.map f) := by
  induction outline with
  | empty => rfl
  | entry line nested rest _ ih => rw [map, entries, ih]; rfl

theorem lines_map (outline : Outline) : (outline.map f).lines = outline.lines.map f := by
  rw [lines, lines, entries_map, List.map_map, List.map_map]
  rfl

theorem map_push (line : Line) (level : Nat) (outline : Outline) :
    (outline.push line level).map f = (outline.map f).push (f line) level := by
  fun_induction push line level outline with
  | case1 => rfl
  | case2 last nested level ih => rw [map, ih]; rfl
  | case3 level head nested rest hlast ih =>
    rw [map, ih]
    cases rest with
    | empty =>
      cases level with
      | zero => rfl
      | succ level => exact absurd rfl (hlast level rfl)
    | entry => exact (push_entry_of_ne_empty _ _ _ _ Outline.noConfusion).symm

end Outline

namespace Layout

def map (layout : Layout) : Layout :=
  { outline := layout.outline.map f
    room := layout.room
    misplaced := layout.misplaced.map f }

theorem problems_map (layout : Layout) :
    (layout.map f).problems = layout.problems.map (Problem.map f) := by
  rw [problems, problems, map]
  cases layout.misplaced <;> rfl

variable {f} (h : ∀ line, (f line).indent = line.indent)
include h

theorem map_add (layout : Layout) (line : Line) :
    (layout.map f).add (f line) = (layout.add line).map f := by
  unfold add
  by_cases hmisplaced : layout.misplaced.isSome
  · rw [if_pos hmisplaced, if_pos (by simpa [map] using hmisplaced)]
  · rw [if_neg hmisplaced, if_neg (by simpa [map] using hmisplaced), h]
    by_cases hroom : line.indent ≤ layout.room
    · rw [if_pos hroom, if_pos (by exact hroom)]
      simp [map, Outline.map_push]
    · rw [if_neg hroom, if_neg (by exact hroom)]
      simp [map, Outline.map_push]

theorem foldl_add_map (layout : Layout) (lines : List Line) :
    (lines.map f).foldl add (layout.map f) = (lines.foldl add layout).map f := by
  rw [List.foldl_map]
  exact List.foldl_hom (map f) (map_add h)

theorem ofLines_map (lines : List Line) : ofLines (lines.map f) = (ofLines lines).map f :=
  foldl_add_map h start lines

end Layout

end CampaignScript
