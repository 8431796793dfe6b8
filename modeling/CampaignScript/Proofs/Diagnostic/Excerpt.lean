import CampaignScript.Proofs.Diagnostic.Form
import CampaignScript.Proofs.Diagnostic.Lines

/-! The line shown under a diagnostic, and the caret under it. The three lines have a bar in one
place, because the line number is as wide as the margin that the other two have. The caret has as
many spaces before it as the raw line has characters of white space at its start, so it stands under
the first character of the content. -/
namespace CampaignScript

namespace Text

/-- The content of a text that is not blank is what comes after the white space at its start. -/
theorem exists_content {text : Text} (h : ¬ text.IsBlank) :
    ∃ first, text[(text.takeWhile isSpace).length]? = some first ∧ isSpace first = false ∧
      IsBlank (text.take (text.takeWhile isSpace).length) := by
  obtain ⟨first, rest, hrest⟩ := List.exists_cons_of_ne_nil (mt trimStart_eq_nil_iff.mp h)
  have hfirst : isSpace first = false :=
    trimStart_eq_self_iff.mp (trimStart_trimStart text) first (by rw [hrest]; rfl)
  have hblank : IsBlank (text.takeWhile isSpace) := fun c hc => List.mem_takeWhile_imp hc
  have htext : text = text.takeWhile isSpace ++ first :: rest := by
    rw [← hrest]
    exact List.takeWhile_append_dropWhile.symm
  generalize text.takeWhile isSpace = space at hblank htext ⊢
  subst htext
  exact ⟨first, by simp, hfirst, by rwa [List.take_left]⟩

theorem getElem?_trimEnd {text : Text} {i : Nat} {c : Char} (h : text[i]? = some c)
    (hc : isSpace c = false) : text.trimEnd[i]? = some c := by
  obtain ⟨space, htext, hspace⟩ := eq_trimEnd_append text
  rw [htext, List.getElem?_append] at h
  split_ifs at h
  · exact h
  · rw [hspace c (List.mem_of_getElem? h)] at hc
    contradiction

theorem idxOf?_append_cons {front : Text} {c : Char} (h : c ∉ front) (rest : Text) :
    (front ++ c :: rest).idxOf? c = some front.length := by
  induction front with
  | nil => simp [List.idxOf?_cons]
  | cons d front ih =>
    rw [List.mem_cons, not_or] at h
    rw [List.cons_append, List.idxOf?_cons, ih h.2, if_neg (by simpa using Ne.symm h.1)]
    rfl

/-- A text beside a bar. -/
def beside (margin text : Text) : Text :=
  margin ++ ' ' :: '|' :: text

theorem idxOf?_beside {margin : Text} (h : '|' ∉ margin) (text : Text) :
    (beside margin text).idxOf? '|' = some (margin.length + 1) := by
  have hfront : '|' ∉ margin ++ [' '] := by simp [h]
  rw [beside, List.append_cons, idxOf?_append_cons hfront, List.length_append,
    List.length_singleton]

theorem drop_beside (margin text : Text) :
    (beside margin text).drop (margin.length + 2) = text := by
  rw [beside, List.drop_length_add_append]
  rfl

theorem getElem?_beside (margin text : Text) (i : Nat) :
    (beside margin text)[margin.length + 2 + i]? = text[i]? := by
  rw [← List.getElem?_drop, drop_beside]

end Text

/-- Three lines with bars one under the other. The one in the middle has the raw line behind its
bar, and the last has a caret, the only one, under the first character that is not white space. -/
structure PointsAt (raw above shown below : Text) (bar start : Nat) (first : Char) : Prop where
  content : raw[start]? = some first ∧ Text.isSpace first = false ∧ Text.IsBlank (raw.take start)
  bars : ∀ line ∈ [above, shown, below], line.idxOf? '|' = some bar
  single : above.count '|' = 1 ∧ below.count '|' = 1
  behind : shown.drop (bar + 1) = ' ' :: raw.trimEnd
  caret : below.idxOf? '^' = some (bar + 2 + start) ∧ below.count '^' = 1
  under : shown[bar + 2 + start]? = some first

/-- A number that is as wide as the margin lines the three up. -/
theorem pointsAt_beside {raw margin number : Text} (hcontent : ¬ raw.IsBlank)
    (hmargin : ∀ c ∈ margin, c = ' ') (hnumber : '|' ∉ number)
    (hwidth : number.length = margin.length) :
    let start := (raw.takeWhile Text.isSpace).length
    ∃ first, PointsAt raw (Text.beside margin []) (Text.beside number (' ' :: raw.trimEnd))
      (Text.beside margin (' ' :: List.replicate start ' ' ++ ['^'])) (margin.length + 1) start
      first := by
  intro start
  obtain ⟨first, hfirst, hshows, hspace⟩ := Text.exists_content hcontent
  have hbar : '|' ∉ margin := fun hmem => absurd (hmargin _ hmem) (by decide)
  have hcaret : '^' ∉ margin := fun hmem => absurd (hmargin _ hmem) (by decide)
  refine ⟨first, ?_⟩
  constructor
  case content => exact ⟨hfirst, hshows, hspace⟩
  case bars =>
    simp only [List.forall_mem_cons, Text.idxOf?_beside hbar, Text.idxOf?_beside hnumber, hwidth,
      List.not_mem_nil, false_implies, implies_true, and_self]
  case single =>
    have hcount := List.count_eq_zero.mpr hbar
    simp [Text.beside, List.count_replicate, hcount]
  case behind =>
    rw [← hwidth]
    exact Text.drop_beside number _
  case caret =>
    have hbefore : '^' ∉ Text.beside margin (' ' :: List.replicate start ' ') := by
      simp [Text.beside, hcaret]
    have hbelow : Text.beside margin (' ' :: List.replicate start ' ' ++ ['^']) =
        Text.beside margin (' ' :: List.replicate start ' ') ++ ['^'] := by
      simp [Text.beside]
    rw [hbelow]
    constructor
    · rw [Text.idxOf?_append_cons hbefore]
      simp only [Text.beside, List.length_append, List.length_cons, List.length_replicate]
      congr 1
      omega
    · rw [List.count_append, List.count_eq_zero.mpr hbefore, List.count_singleton_self]
  case under =>
    have hplace : margin.length + 1 + 2 + start = number.length + 2 + (start + 1) := by omega
    rw [hplace, Text.getElem?_beside, List.getElem?_cons_succ]
    exact Text.getElem?_trimEnd hfirst hshows

namespace Diagnostic
variable {diagnostic : Diagnostic} {file : Text}

theorem excerpt?_plain (h : diagnostic.Fits) :
    let margin := List.replicate diagnostic.gutterWidth ' '
    let number := (Text.numeral diagnostic.line.number).leftpad diagnostic.gutterWidth ' '
    let indent := List.replicate (diagnostic.line.raw.takeWhile Text.isSpace).length ' '
    diagnostic.excerpt? .plain =
      some
        [Text.beside margin [], Text.beside number (' ' :: diagnostic.line.raw.trimEnd),
          Text.beside margin (' ' :: indent ++ ['^'])] := by
  rw [excerpt?, if_pos h]
  simp [Text.beside, column, List.leftpad]

theorem pointsAt_excerpt (h : diagnostic.Fits) (hcontent : ¬ diagnostic.line.raw.IsBlank) :
    ∃ above shown below bar start first, diagnostic.excerpt? .plain = some [above, shown, below] ∧
      diagnostic.column = start + 1 ∧
      PointsAt diagnostic.line.raw above shown below bar start first := by
  have hnumber := Text.notMem_leftpad_numeral (c := '|') rfl (by decide) diagnostic.gutterWidth
    diagnostic.line.number
  have hwidth : ((Text.numeral diagnostic.line.number).leftpad diagnostic.gutterWidth ' ').length =
      (List.replicate diagnostic.gutterWidth ' ').length := by
    rw [List.length_leftpad, List.length_replicate]
    exact max_eq_left (Nat.le_max_right 3 _)
  obtain ⟨first, hpoints⟩ := pointsAt_beside hcontent (fun c => List.eq_of_mem_replicate) hnumber
    hwidth
  exact ⟨_, _, _, _, _, first, excerpt?_plain h, rfl, hpoints⟩

theorem splitOn_intercalate_lines (hmessage : '\n' ∉ diagnostic.message)
    (hraw : '\n' ∉ diagnostic.line.raw) (hfile : '\n' ∉ file) {palette : Palette}
    {lines : List Text} (hlines : diagnostic.lines? palette file = some lines) :
    (['\n'].intercalate lines).splitOn '\n' = lines := by
  refine List.splitOn_intercalate _ (fun line hline => ?_) ?_
  · exact lineFeed_notMem_of_mem_lines hmessage hraw hfile hlines hline
  · obtain ⟨excerpt, -, rfl⟩ := Option.map_eq_some_iff.mp hlines
    exact List.cons_ne_nil _ _

/-- A full diagnostic without colours is its concise form, an empty line and three more. They show
the line without the white space at its end, and point at its first character that is not white
space, the column of which is in the concise form. There is no such diagnostic exactly where that
column is beyond the limit of widths. -/
theorem form?_plain_pointsAt (hmessage : '\n' ∉ diagnostic.message)
    (hraw : '\n' ∉ diagnostic.line.raw) (hcontent : ¬ diagnostic.line.raw.IsBlank)
    (hfile : '\n' ∉ file) :
    (Text.widthLimit < diagnostic.column → diagnostic.form? .plain file = none) ∧
    (diagnostic.column ≤ Text.widthLimit →
      ∃ text above shown below bar start first,
        diagnostic.form? .plain file = some text ∧
        text.splitOn '\n' = [diagnostic.concise .plain file, [], above, shown, below] ∧
        PointsAt diagnostic.line.raw above shown below bar start first ∧
        diagnostic.column = start + 1 ∧
        diagnostic.concise .plain file =
          "error: ".toList ++ file ++ ':' :: Text.numeral diagnostic.line.number ++
            ':' :: Text.numeral (start + 1) ++ ' ' :: diagnostic.message) := by
  rw [form?_eq]
  constructor
  · intro h
    rw [lines?_eq_none (Nat.not_le_of_lt h), Option.map_none]
  · intro h
    obtain ⟨above, shown, below, bar, start, first, hexcerpt, hcolumn, hpoints⟩ :=
      pointsAt_excerpt h hcontent
    have hlines : diagnostic.lines? .plain file =
        some [diagnostic.concise .plain file, [], above, shown, below] := by
      rw [lines?, hexcerpt]
      rfl
    refine ⟨_, above, shown, below, bar, start, first, by rw [hlines]; rfl,
      splitOn_intercalate_lines hmessage hraw hfile hlines, hpoints, hcolumn, ?_⟩
    simp [concise, hcolumn]

/-- A line that is indented by a wide space too, with a bar and a caret of its own. -/
theorem form?_plain_pointsAt_wide_space :
    let raw : Text := " \u3000wait | for ^\u00a0".toList
    let diagnostic : Diagnostic := ⟨⟨1234, raw⟩, "what?".toList⟩
    let file : Text := "a | b".toList
    let above : Text := "     |".toList
    let shown : Text := "1234 |  \u3000wait | for ^".toList
    let below : Text := "     |   ^".toList
    ('\n' ∉ diagnostic.message ∧ '\n' ∉ raw ∧ ¬ raw.IsBlank ∧ '\n' ∉ file) ∧
    (∃ text, diagnostic.form? .plain file = some text ∧
      text.splitOn '\n' = ["error: a | b:1234:3 what?".toList, [], above, shown, below]) ∧
    PointsAt raw above shown below 5 2 'w' := by
  intro raw diagnostic file above shown below
  have hmessage : '\n' ∉ diagnostic.message := by decide
  have hraw : '\n' ∉ diagnostic.line.raw := by decide
  have hcontent : ¬ raw.IsBlank := by decide
  have hfile : '\n' ∉ file := by decide
  obtain ⟨text, _, _, _, bar, start, first, htext, hsplit, hpoints, hcolumn, -⟩ :=
    (form?_plain_pointsAt hmessage hraw hcontent hfile).2 (by decide)
  have hlines : diagnostic.lines? .plain file =
      some ["error: a | b:1234:3 what?".toList, [], above, shown, below] := by decide +kernel
  have hsame := splitOn_intercalate_lines hmessage hraw hfile hlines
  rw [form?_eq, hlines, Option.map_some, Option.some.injEq] at htext
  rw [htext, hsplit] at hsame
  simp only [List.cons.injEq, and_true] at hsame
  obtain ⟨hconcise, -, rfl, rfl, rfl⟩ := hsame
  obtain rfl : start = 2 := by
    have htwo : diagnostic.column = 3 := by decide
    omega
  obtain rfl : bar = 5 :=
    Option.some.inj ((hpoints.bars above (by simp)).symm.trans (by rfl))
  obtain rfl : first = 'w' := Option.some.inj (hpoints.content.1.symm.trans (by rfl))
  refine ⟨⟨hmessage, hraw, hcontent, hfile⟩, ⟨text, ?_, ?_⟩, hpoints⟩
  · rw [form?_eq, hlines, Option.map_some, htext]
  · rw [hsplit, hconcise]

theorem column_of_spaces {n : Nat} {c : Char} {rest message : Text} {number : Nat}
    (hc : Text.isSpace c = false) :
    column ⟨⟨number, List.replicate n ' ' ++ c :: rest⟩, message⟩ = n + 1 := by
  rw [column, Text.takeWhile_replicate_append, List.length_replicate]
  simpa using hc

/-- A line that more than sixteen thousand tabs indent has no full diagnostic. -/
theorem form?_plain_beyond_limit :
    let raw : Text := List.replicate 65536 ' ' ++ "when a user a".toList
    let diagnostic : Diagnostic := ⟨⟨1, raw⟩, "Indentation is not allowed here.".toList⟩
    let file : Text := "a".toList
    ('\n' ∉ diagnostic.message ∧ '\n' ∉ raw ∧ ¬ raw.IsBlank ∧ '\n' ∉ file) ∧
    diagnostic.form? .plain file = none := by
  intro raw diagnostic file
  have hcolumn : diagnostic.column = 65537 := column_of_spaces (by decide)
  have hfits : ¬ diagnostic.Fits := by
    rw [Fits, hcolumn]
    decide
  refine ⟨⟨by decide, ?_, ?_, by decide⟩, ?_⟩
  · intro h
    rcases List.mem_append.mp h with h | h
    · exact absurd (List.eq_of_mem_replicate h) (by decide)
    · exact absurd h (by decide)
  · intro h
    exact absurd (h 'w' (List.mem_append_right _ List.mem_cons_self)) (by decide)
  · rw [form?_eq, lines?_eq_none hfits, Option.map_none]

end Diagnostic

end CampaignScript
