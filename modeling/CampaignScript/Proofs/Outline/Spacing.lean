import CampaignScript.Proofs.Outline.Mapping
import CampaignScript.Proofs.Outline.Writing
import CampaignScript.Proofs.Text.Pieces
import Mathlib.Data.List.Forall2

/-! White space in a script that its layout does not show: how tabs and line ends are written, what
blank lines consist of, and what stands behind the content of a line. -/
namespace CampaignScript

namespace Text

/-- Whether two texts are the same, or both blank. -/
def SameOrBlank (text other : Text) : Prop :=
  text = other ∨ text.IsBlank ∧ other.IsBlank

instance (text other : Text) : Decidable (SameOrBlank text other) :=
  inferInstanceAs (Decidable (text = other ∨ text.IsBlank ∧ other.IsBlank))

/-- The text, or none where it is blank. -/
private def blanked (text : Text) : Text :=
  if text.IsBlank then [] else text

private theorem isBlank_blanked_iff (text : Text) : (blanked text).IsBlank ↔ text.IsBlank := by
  rw [blanked]
  split_ifs with h
  · exact iff_of_true (List.forall_mem_nil _) h
  · rfl

private theorem blanked_dropReturn (text : Text) :
    blanked (dropReturn text) = dropReturn (blanked text) := by
  simp only [blanked, isBlank_dropReturn_iff]
  split_ifs <;> rfl

private theorem SameOrBlank.blanked_eq {text other : Text} (h : SameOrBlank text other) :
    blanked text = blanked other := by
  rcases h with rfl | ⟨htext, hother⟩
  · rfl
  · rw [blanked, blanked, if_pos htext, if_pos hother]

end Text

namespace Line

open Text

theorem eq_space_of_mem_spaces {text : Text} {c : Char} (h : c ∈ spaces text) : c = ' ' := by
  simpa using List.mem_takeWhile_imp h

theorem isBlank_spaces (text : Text) : IsBlank (spaces text) := by
  intro c hc
  rw [eq_space_of_mem_spaces hc]
  rfl

/-- The line with its content directly behind the spaces that it begins with, and nothing behind
its content. -/
def bare (line : Line) : Line :=
  { line with raw := spaces line.raw ++ line.text }

theorem text_bare (line : Line) : line.bare.text = line.text := by
  have htext : line.bare.text = line.text.trim := by
    rw [Line.text, bare, trim, trimStart_append_of_isBlank (isBlank_spaces line.raw), ← trim]
  rw [htext]
  exact trim_trim line.raw

theorem spaces_trim (text : Text) : spaces text.trim = [] :=
  spaces_eq_nil (trimStart_trim text)

theorem indent_bare (line : Line) : line.bare.indent = line.indent := by
  have hspaces : spaces (spaces line.raw ++ line.raw.trim) = spaces line.raw := by
    rw [spaces, List.takeWhile_append_of_pos fun c hc => beq_iff_eq.mpr (eq_space_of_mem_spaces hc)]
    exact (congrArg _ (spaces_trim line.raw)).trans (List.append_nil _)
  exact congrArg (·.length / indentWidth) hspaces

theorem spaces_append {text : Text} (h : ¬ text.IsBlank) (more : Text) :
    spaces (text ++ more) = spaces text := by
  have hlength : (spaces text).length ≠ text.length := by
    intro hlength
    have heq : spaces text = text := (List.takeWhile_prefix _).eq_of_length hlength
    exact h (heq ▸ isBlank_spaces text)
  rw [spaces, List.takeWhile_append]
  exact if_neg hlength

/-- What stands behind the content of a line does not show on the bare line. -/
theorem bare_ofSource_trimEnd {text : Text} (h : ¬ text.IsBlank) (number : Nat) :
    (ofSource text.trimEnd number).bare = (ofSource text number).bare := by
  obtain ⟨space, htext, hspace⟩ := eq_trimEnd_append text
  have hraw : expandTabs text = expandTabs text.trimEnd ++ expandTabs space := by
    rw [← expandTabs_append, ← htext]
  have hspace : (expandTabs space).IsBlank := isBlank_expandTabs_iff.mpr hspace
  have hcontent : ¬ (expandTabs text.trimEnd).IsBlank := by
    rwa [isBlank_expandTabs_iff, isBlank_trimEnd_iff]
  simp only [bare, Line.text, ofSource]
  rw [hraw, spaces_append hcontent, trim_append_of_isBlank _ hspace]

theorem lineFeed_mem_expandTabs_iff {text : Text} : '\n' ∈ expandTabs text ↔ '\n' ∈ text := by
  constructor
  · intro h
    exact ((mem_expandTabs h).resolve_left (by decide)).2
  · intro h
    exact mem_expandTabs_of_mem h (by decide)

theorem expandTabs_dropReturn (text : Text) :
    expandTabs (dropReturn text) = dropReturn (expandTabs text) := by
  rcases text.eq_nil_or_concat' with rfl | ⟨front, c, rfl⟩
  · rfl
  · by_cases htab : c = '\t'
    · have hspaces : expandTabs ['\t'] = "   ".toList ++ [' '] := rfl
      rw [htab, dropReturn_concat, if_neg (by decide), expandTabs_append, hspaces,
        ← List.append_assoc, dropReturn_concat, if_neg (by decide)]
    · have hself : expandTabs [c] = [c] := expandTabs_eq_self (by simpa using Ne.symm htab)
      rw [dropReturn_concat, expandTabs_append, hself, dropReturn_concat]
      split_ifs
      · rfl
      · rw [expandTabs_append, hself]

theorem lines_expandTabs (text : Text) : (expandTabs text).lines = text.lines.map expandTabs := by
  induction text using piecewise with
  | last text h =>
    rw [lines_of_notMem h, lines_of_notMem (mt lineFeed_mem_expandTabs_iff.mp h)]
    cases text with
    | nil => rfl
    | cons c text =>
      have hne : expandTabs (c :: text) ≠ [] := by
        rw [expandTabs, List.flatMap_cons]
        split_ifs <;> simp [indentWidth]
      rw [if_neg hne, if_neg (List.cons_ne_nil c text), List.map_singleton]
  | piece piece rest h ih =>
    have hfeed : expandTabs (piece ++ '\n' :: rest) = expandTabs piece ++ '\n' :: expandTabs rest :=
      expandTabs_append piece _
    rw [hfeed, lines_append_lineFeed h, lines_append_lineFeed (mt lineFeed_mem_expandTabs_iff.mp h),
      ih, List.map_cons, expandTabs_dropReturn]

theorem expandTabs_expandTabs (text : Text) : expandTabs (expandTabs text) = expandTabs text :=
  expandTabs_eq_self (tab_notMem_raw text 0)

end Line

namespace Layout

open Text

/-- A change to the written lines that keeps the blank ones apart and shows on the others by the
change `f` at most goes through to the lines with content. -/
theorem map_contentFrom_map {change : Text → Text} {f : Line → Line}
    (hblank : ∀ text, (change text).IsBlank ↔ text.IsBlank)
    (hline : ∀ text number, ¬ text.IsBlank →
      f (Line.ofSource (change text) number) = f (Line.ofSource text number))
    (number : Nat) (written : List Text) :
    (contentFrom number (written.map change)).map f = (contentFrom number written).map f := by
  induction written generalizing number with
  | nil => rfl
  | cons text written ih =>
    rw [List.map_cons, contentFrom_cons, contentFrom_cons]
    simp only [Line.isBlank_ofSource_iff, hblank]
    split_ifs with h
    · exact ih (number + 1)
    · rw [List.map_cons, List.map_cons, hline text number h, ih]

theorem contentFrom_concat_nil (number : Nat) (written : List Text) :
    contentFrom number (written ++ [[]]) = contentFrom number written := by
  rw [contentFrom_append]
  exact List.append_nil _

theorem contentLines_eq_contentFrom_pieceLines (source : Text) :
    contentLines source = contentFrom 1 (pieceLines (source.splitOn '\n')) := by
  rcases pieceLines_splitOn source with h | h
  · rw [h]
    rfl
  · rw [h, contentFrom_concat_nil]
    rfl

theorem contentLines_expandTabs (source : Text) :
    contentLines (Line.expandTabs source) = contentLines source := by
  show contentFrom 1 (Line.expandTabs source).lines = contentFrom 1 source.lines
  have hline (text : Text) (number : Nat) (_ : ¬ text.IsBlank) :
      id (Line.ofSource (Line.expandTabs text) number) = id (Line.ofSource text number) := by
    simp [Line.ofSource, Line.expandTabs_expandTabs]
  have h := map_contentFrom_map (fun _ => Line.isBlank_expandTabs_iff) hline 1 source.lines
  rwa [List.map_id, List.map_id, ← Line.lines_expandTabs] at h

private theorem contentFrom_blanked (number : Nat) (written : List Text) :
    contentFrom number (written.map blanked) = contentFrom number written := by
  have hline (text : Text) (number : Nat) (h : ¬ text.IsBlank) :
      id (Line.ofSource (blanked text) number) = id (Line.ofSource text number) := by
    rw [blanked, if_neg h]
  have h := map_contentFrom_map isBlank_blanked_iff hline number written
  rwa [List.map_id, List.map_id] at h

/-- It does not matter what blank lines consist of. -/
theorem contentLines_of_sameOrBlank {source edited : Text}
    (h : List.Forall₂ SameOrBlank (source.splitOn '\n') (edited.splitOn '\n')) :
    contentLines edited = contentLines source := by
  have hblanked : (source.splitOn '\n').map blanked = (edited.splitOn '\n').map blanked := by
    rw [← List.forall₂_eq_eq_eq, List.forall₂_map_left_iff, List.forall₂_map_right_iff]
    exact h.imp fun _ _ => SameOrBlank.blanked_eq
  rw [contentLines_eq_contentFrom_pieceLines, ← contentFrom_blanked,
    map_pieceLines blanked_dropReturn, ← hblanked, ← map_pieceLines blanked_dropReturn,
    contentFrom_blanked, ← contentLines_eq_contentFrom_pieceLines]

theorem contentLines_flatMap_lineFeed {source : Text} (h : '\r' ∉ source) :
    contentLines (source.flatMap fun c => if c = '\n' then "\r\n".toList else [c]) =
      contentLines source :=
  congrArg (contentFrom 1) (lines_flatMap_lineFeed h)

theorem contentLines_concat_lineFeed {source : Text} (h : '\r' ∉ source) :
    contentLines (source ++ ['\n']) = contentLines source := by
  rcases lines_concat_lineFeed h with hlines | hlines
  · exact congrArg (contentFrom 1) hlines
  · exact (congrArg (contentFrom 1) hlines).trans (contentFrom_concat_nil 1 _)

/-- What stands behind the content of lines shows in nothing but their text as written. -/
theorem map_bare_contentLines {source edited : Text}
    (h : (edited.splitOn '\n').map trimEnd = (source.splitOn '\n').map trimEnd) :
    (contentLines edited).map Line.bare = (contentLines source).map Line.bare := by
  have hwritten (text : Text) :
      (contentLines text).map Line.bare =
        (contentFrom 1 ((text.splitOn '\n').map trimEnd)).map Line.bare := by
    rw [contentLines_eq_contentFrom_pieceLines, ← map_trimEnd_pieceLines]
    exact (map_contentFrom_map (fun _ => isBlank_trimEnd_iff)
      (fun _ number h => Line.bare_ofSource_trimEnd h number) 1 _).symm
  rw [hwritten, h, ← hwritten]

theorem ofText_of_contentLines_eq {source edited : Text}
    (h : contentLines edited = contentLines source) : ofText edited = ofText source := by
  rw [ofText, ofText, h]

theorem map_ofText_of_map_contentLines_eq {f : Line → Line}
    (hindent : ∀ line, (f line).indent = line.indent) {source edited : Text}
    (h : (contentLines edited).map f = (contentLines source).map f) :
    (ofText edited).map f = (ofText source).map f := by
  by_cases hsource : contentLines source = []
  · have hedited : contentLines edited = [] := by simpa [hsource] using h
    rw [ofText_of_eq_nil hsource, ofText_of_eq_nil hedited]
  · have hedited : contentLines edited ≠ [] := by
      intro hnil
      rw [hnil] at h
      exact hsource (List.map_eq_nil_iff.mp h.symm)
    rw [ofText_of_ne_nil hsource, ofText_of_ne_nil hedited, ← ofLines_map hindent,
      ← ofLines_map hindent, h]

end Layout

end CampaignScript
