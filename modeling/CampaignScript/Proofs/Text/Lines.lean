import CampaignScript.Text.Lines
import Mathlib.Data.List.Basic

/-! Texts written line by line come apart into the same lines, and no line holds a line feed. A text
is gone through from one line feed to the next. -/
namespace CampaignScript.Text

/-- A character that a text does not have can be replaced in it without a change. -/
theorem flatMap_replace_eq_self {text : Text} {c : Char} (h : c ∉ text) (replacement : Text) :
    (text.flatMap fun d => if d = c then replacement else [d]) = text := by
  induction text with
  | nil => rfl
  | cons d text ih =>
    rw [List.mem_cons, not_or] at h
    rw [List.flatMap_cons, ih h.2, if_neg (Ne.symm h.1)]
    rfl

theorem lines_cons {c : Char} {rest : Text} (hfeed : c ≠ '\n')
    (hreturn : ∀ back, c = '\r' → rest = '\n' :: back → False) :
    Text.lines (c :: rest) = extendFirst c (Text.lines rest) := by
  rw [lines]
  · exact hfeed
  · exact hreturn

/-- A text is made of pieces without line feeds, with line feeds between them. -/
@[elab_as_elim]
theorem piecewise {motive : Text → Prop} (last : ∀ text, '\n' ∉ text → motive text)
    (piece : ∀ piece rest, '\n' ∉ piece → motive rest → motive (piece ++ '\n' :: rest))
    (text : Text) : motive text := by
  by_cases h : '\n' ∈ text
  · obtain ⟨front, rest, htext, hfront⟩ := List.eq_append_cons_of_mem h
    rw [htext]
    exact piece front rest hfront (piecewise last piece rest)
  · exact last text h
termination_by text.length
decreasing_by simp [htext]; omega

/-- The text without a carriage return at its end, as a line is kept that a line feed ends. -/
def dropReturn : Text → Text
  | [] => []
  | ['\r'] => []
  | c :: rest => c :: dropReturn rest

theorem dropReturn_concat (front : Text) (c : Char) :
    dropReturn (front ++ [c]) = if c = '\r' then front else front ++ [c] := by
  induction front with
  | nil =>
    split_ifs with hc
    · rw [hc]
      rfl
    · exact dropReturn.eq_3 c [] fun h _ => hc h
  | cons d front ih =>
    have htail (_ : d = '\r') (h : front ++ [c] = []) : False := by simp at h
    rw [List.cons_append, dropReturn.eq_3 d _ htail, ih]
    split_ifs <;> rfl

theorem dropReturn_eq_self {text : Text} (h : text.getLast? ≠ some '\r') :
    dropReturn text = text := by
  rcases text.eq_nil_or_concat' with rfl | ⟨front, c, rfl⟩
  · rfl
  · rw [List.getLast?_concat, Ne, Option.some.injEq] at h
    rw [dropReturn_concat, if_neg h]

theorem dropReturn_isPrefix (text : Text) : dropReturn text <+: text := by
  rcases text.eq_nil_or_concat' with rfl | ⟨front, c, rfl⟩
  · exact List.prefix_rfl
  · rw [dropReturn_concat]
    split_ifs
    · exact List.prefix_append front [c]
    · exact List.prefix_rfl

theorem lines_of_notMem {text : Text} (h : '\n' ∉ text) :
    text.lines = if text = [] then [] else [text] := by
  induction text with
  | nil => rfl
  | cons c text ih =>
    rw [List.mem_cons, not_or] at h
    rw [lines_cons (Ne.symm h.1), ih h.2, if_neg (List.cons_ne_nil c text)]
    · cases text <;> rfl
    · rintro back - rfl
      exact h.2 List.mem_cons_self

theorem lines_append_lineFeed {piece : Text} (h : '\n' ∉ piece) (rest : Text) :
    (piece ++ '\n' :: rest).lines = dropReturn piece :: rest.lines := by
  fun_induction dropReturn piece with
  | case1 => rfl
  | case2 => rfl
  | case3 c piece hreturn ih =>
    rw [List.mem_cons, not_or] at h
    rw [List.cons_append, lines_cons (Ne.symm h.1), ih h.2]
    · rfl
    · intro back hc hback
      cases piece with
      | nil => exact hreturn hc rfl
      | cons d piece =>
        rw [List.cons_append, List.cons.injEq] at hback
        exact h.2 (hback.1 ▸ List.mem_cons_self)

theorem lineFeed_notMem_of_mem_lines {text line : Text} (h : line ∈ text.lines) : '\n' ∉ line := by
  induction text using piecewise with
  | last text hfeed =>
    rw [lines_of_notMem hfeed] at h
    split_ifs at h
    · exact absurd h List.not_mem_nil
    · rwa [List.mem_singleton.mp h]
  | piece piece rest hfeed ih =>
    rw [lines_append_lineFeed hfeed] at h
    rcases List.mem_cons.mp h with rfl | h
    · exact fun hmem => hfeed ((dropReturn_isPrefix piece).subset hmem)
    · exact ih h

/-- Whether a text with a line feed behind it is a line with all its characters. -/
def IsLine (text : Text) : Prop :=
  '\n' ∉ text ∧ text.getLast? ≠ some '\r'

theorem lines_append {line : Text} (h : line.IsLine) (rest : Text) :
    (line ++ '\n' :: rest).lines = line :: rest.lines := by
  rw [lines_append_lineFeed h.1, dropReturn_eq_self h.2]

theorem lines_flatMap {written : List Text} (h : ∀ line ∈ written, line.IsLine) :
    Text.lines (written.flatMap fun line => line ++ ['\n']) = written := by
  induction written with
  | nil => rfl
  | cons line written ih =>
    obtain ⟨hline, hwritten⟩ := List.forall_mem_cons.mp h
    rw [List.flatMap_cons, List.append_assoc, List.singleton_append, lines_append hline,
      ih hwritten]

/-- Behind a line feed a new line begins, whatever stands there. -/
theorem lines_append_of_getLast? {text : Text} (h : ∀ c ∈ text.getLast?, c = '\n') (more : Text) :
    (text ++ more).lines = text.lines ++ more.lines := by
  induction text using piecewise with
  | last text hfeed =>
    have hnil : text = [] := by
      rw [← List.getLast?_eq_none_iff, Option.eq_none_iff_forall_not_mem]
      rintro c hc
      exact hfeed (h c hc ▸ List.mem_of_getLast? hc)
    rw [hnil]
    rfl
  | piece piece rest hfeed ih =>
    have hrest : ∀ c ∈ rest.getLast?, c = '\n' := by
      intro c hc
      apply h
      rw [List.getLast?_append, List.getLast?_cons, Option.mem_def.mp hc]
      rfl
    rw [List.append_assoc, List.cons_append, lines_append_lineFeed hfeed,
      lines_append_lineFeed hfeed, ih hrest, List.cons_append]

end CampaignScript.Text
