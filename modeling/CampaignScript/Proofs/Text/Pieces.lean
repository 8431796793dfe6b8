import CampaignScript.Proofs.Text.Lines
import CampaignScript.Proofs.Text.Space

/-! The pieces of a text between its line feeds. Its lines are these pieces, each without the
carriage return that may stand before the line feed; the last piece is a line as it is, and none
where it is empty. So a line end may be written with a carriage return or without one. -/
namespace CampaignScript.Text

theorem dropReturn_of_notMem {text : Text} (h : '\r' ∉ text) : dropReturn text = text :=
  dropReturn_eq_self fun hlast => h (List.mem_of_getLast? hlast)

theorem eq_dropReturn_append (text : Text) :
    ∃ space : Text, text = dropReturn text ++ space ∧ space.IsBlank := by
  rcases text.eq_nil_or_concat' with rfl | ⟨front, c, rfl⟩
  · exact ⟨[], rfl, by decide⟩
  · rw [dropReturn_concat]
    split_ifs with hc
    · exact ⟨['\r'], by rw [hc], by decide⟩
    · exact ⟨[], (List.append_nil _).symm, by decide⟩

@[simp] theorem trimEnd_dropReturn (text : Text) : (dropReturn text).trimEnd = text.trimEnd := by
  obtain ⟨space, htext, hspace⟩ := eq_dropReturn_append text
  rw [← trimEnd_append_of_isBlank (dropReturn text) hspace, ← htext]

theorem isBlank_dropReturn_iff {text : Text} : (dropReturn text).IsBlank ↔ text.IsBlank := by
  rw [← isBlank_trimEnd_iff, trimEnd_dropReturn, isBlank_trimEnd_iff]

theorem splitOn_flatMap {written : List Text} (h : ∀ line ∈ written, '\n' ∉ line) :
    (written.flatMap fun line => line ++ ['\n']).splitOn '\n' = written ++ [[]] := by
  induction written with
  | nil => rfl
  | cons line written ih =>
    obtain ⟨hline, hwritten⟩ := List.forall_mem_cons.mp h
    rw [List.flatMap_cons, List.append_assoc, List.singleton_append,
      List.splitOn_append_cons_self_of_not_mem hline, ih hwritten, List.cons_append]

/-- The pieces of a text as lines, the last one included where it is empty. -/
def pieceLines : List Text → List Text
  | [] => []
  | [last] => [last]
  | piece :: pieces => dropReturn piece :: pieceLines pieces

theorem pieceLines_cons (piece : Text) {pieces : List Text} (h : pieces ≠ []) :
    pieceLines (piece :: pieces) = dropReturn piece :: pieceLines pieces := by
  cases pieces with
  | nil => exact absurd rfl h
  | cons => rfl

theorem map_pieceLines {change : Text → Text}
    (h : ∀ text, change (dropReturn text) = dropReturn (change text)) (pieces : List Text) :
    (pieceLines pieces).map change = pieceLines (pieces.map change) := by
  fun_induction pieceLines pieces with
  | case1 => rfl
  | case2 => rfl
  | case3 piece pieces hpieces ih =>
    rw [List.map_cons, List.map_cons, ih, h, pieceLines_cons _ (by simpa using hpieces)]

theorem map_trimEnd_pieceLines (pieces : List Text) :
    (pieceLines pieces).map trimEnd = pieces.map trimEnd := by
  fun_induction pieceLines pieces with
  | case1 => rfl
  | case2 => rfl
  | case3 piece pieces _ ih => rw [List.map_cons, List.map_cons, ih, trimEnd_dropReturn]

/-- The lines of a text are its pieces, save for an empty one at the end. -/
theorem pieceLines_splitOn (text : Text) :
    pieceLines (text.splitOn '\n') = text.lines ∨
      pieceLines (text.splitOn '\n') = text.lines ++ [[]] := by
  induction text using piecewise with
  | last text h =>
    rw [List.splitOn_eq_singleton h, lines_of_notMem h]
    split_ifs with htext
    · exact .inr (by rw [htext]; rfl)
    · exact .inl rfl
  | piece piece rest h ih =>
    rw [List.splitOn_append_cons_self_of_not_mem h, lines_append_lineFeed h,
      pieceLines_cons piece (List.splitOn_ne_nil _ _), List.cons_append, List.cons.injEq,
      List.cons.injEq]
    exact ih.imp (.intro rfl) (.intro rfl)

/-- Carriage returns before the line feeds belong to the line ends. -/
theorem lines_flatMap_lineFeed {text : Text} (h : '\r' ∉ text) :
    Text.lines (text.flatMap fun c => if c = '\n' then "\r\n".toList else [c]) = text.lines := by
  induction text using piecewise with
  | last text hfeed => rw [flatMap_replace_eq_self hfeed]
  | piece piece rest hfeed ih =>
    rw [List.mem_append, not_or, List.mem_cons, not_or] at h
    have hending (more : Text) :
        piece ++ ("\r\n".toList ++ more) = (piece ++ ['\r']) ++ '\n' :: more := by simp
    have hreturn : '\n' ∉ piece ++ ['\r'] := by simp [hfeed]
    rw [List.flatMap_append, flatMap_replace_eq_self hfeed, List.flatMap_cons, if_pos rfl, hending,
      lines_append_lineFeed hreturn, lines_append_lineFeed hfeed, ih h.2.2, dropReturn_concat,
      if_pos rfl, dropReturn_of_notMem h.1]

/-- A line feed behind a text without carriage returns ends its last line. -/
theorem lines_concat_lineFeed {text : Text} (h : '\r' ∉ text) :
    (text ++ ['\n']).lines = text.lines ∨ (text ++ ['\n']).lines = text.lines ++ [[]] := by
  induction text using piecewise with
  | last text hfeed =>
    rw [lines_append_lineFeed hfeed, lines_of_notMem hfeed, dropReturn_of_notMem h]
    split_ifs with htext
    · exact .inr (by rw [htext]; rfl)
    · exact .inl rfl
  | piece piece rest hfeed ih =>
    rw [List.mem_append, not_or, List.mem_cons, not_or] at h
    rw [List.append_assoc, List.cons_append, lines_append_lineFeed hfeed,
      lines_append_lineFeed hfeed, List.cons_append, List.cons.injEq, List.cons.injEq]
    exact (ih h.2.2).imp (.intro rfl) (.intro rfl)

end CampaignScript.Text
