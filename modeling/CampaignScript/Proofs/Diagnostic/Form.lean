import CampaignScript.Diagnostic.Excerpt
import CampaignScript.Proofs.Text.Space

/-! The form of a full diagnostic comes out as its lines. A field is as wide as its column before it
has colour, and colour only makes it wider, so it is not widened again. The text begins and ends
with what shows, so only the margins above and below it are taken away. -/
namespace CampaignScript

namespace Text

theorem rightpad_eq_self {width : Nat} {text : Text} (h : width ≤ text.length) (c : Char) :
    text.rightpad width c = text := by
  rw [List.rightpad, Nat.sub_eq_zero_of_le h, List.replicate_zero, List.append_nil]

theorem leftpad_eq_self {width : Nat} {text : Text} (h : width ≤ text.length) (c : Char) :
    text.leftpad width c = text := by
  rw [List.leftpad, Nat.sub_eq_zero_of_le h, List.replicate_zero, List.nil_append]

theorem rightpad_singleton {width : Nat} (h : 0 < width) (c : Char) :
    [c].rightpad width c = List.replicate width c := by
  obtain ⟨width, rfl⟩ := Nat.exists_eq_succ_of_ne_zero h.ne'
  rfl

theorem isSpace_of_isAsciiSpace {c : Char} (h : isAsciiSpace c) : isSpace c := by
  simp only [isAsciiSpace, Bool.or_eq_true, decide_eq_true_eq] at h
  rcases h with (((rfl | rfl) | rfl) | rfl) | rfl <;> rfl

theorem isAsciiSpace_eq_false {c : Char} (h : isSpace c = false) : isAsciiSpace c = false := by
  rw [← Bool.not_eq_true] at h ⊢
  exact mt isSpace_of_isAsciiSpace h

/-- What shows at both of its ends is what trimming leaves of a text between margins. -/
theorem trimAscii_between {before text after : Text} {first last : Char}
    (hbefore : ∀ c ∈ before, isAsciiSpace c) (hafter : ∀ c ∈ after, isAsciiSpace c)
    (hfirst : text.head? = some first) (hlast : text.getLast? = some last)
    (hshows : isSpace first = false ∧ isSpace last = false) :
    trimAscii (before ++ text ++ after) = text := by
  obtain ⟨rest, rfl⟩ := List.head?_eq_some_iff.mp hfirst
  obtain ⟨front, htext⟩ := List.getLast?_eq_some_iff.mp hlast
  have hfirstAscii := isAsciiSpace_eq_false hshows.1
  have hlastAscii := isAsciiSpace_eq_false hshows.2
  have hstart : (before ++ first :: rest ++ after).dropWhile isAsciiSpace =
      first :: rest ++ after := by
    rw [List.append_assoc, List.dropWhile_append_of_pos hbefore, List.cons_append,
      List.dropWhile_cons_of_neg (by rw [hfirstAscii]; exact Bool.false_ne_true)]
  rw [trimAscii, hstart, List.reverse_append,
    List.dropWhile_append_of_pos fun c hc => hafter c (List.mem_reverse.mp hc), htext,
    List.reverse_concat, List.dropWhile_cons_of_neg (by rw [hlastAscii]; exact Bool.false_ne_true),
    List.reverse_cons, List.reverse_reverse]

end Text

namespace Palette
variable (palette : Palette) (part : Part)

/-- A field has the width of its column before it has colour, and colour takes nothing from it. -/
theorem le_length_paint_leftpad (width : Nat) (text : Text) :
    width ≤ (palette.paint part (text.leftpad width ' ')).length := by
  have hwidth : width ≤ (text.leftpad width ' ').length := by
    rw [List.length_leftpad]
    exact Nat.le_max_left _ _
  unfold paint
  split
  · simp only [List.length_append]
    omega
  · exact hwidth

/-- A part begins with its own first character or with that of a control sequence. -/
theorem exists_head?_paint {text : Text} {c : Char} (h : text.head? = some c)
    (hc : Text.isSpace c = false) :
    ∃ first, (palette.paint part text).head? = some first ∧ Text.isSpace first = false := by
  unfold paint
  split
  · exact ⟨'\x1b', rfl, by decide⟩
  · exact ⟨c, h, hc⟩

theorem exists_getLast?_paint {text : Text} {c : Char} (h : text.getLast? = some c)
    (hc : Text.isSpace c = false) :
    ∃ last, (palette.paint part text).getLast? = some last ∧ Text.isSpace last = false := by
  unfold paint
  split
  · refine ⟨'m', ?_, by decide⟩
    simp [select, List.getLast?_append, List.getLast?_cons]
  · exact ⟨c, h, hc⟩

end Palette

namespace Diagnostic
variable {palette : Palette} {file : Text} {diagnostic : Diagnostic}

theorem gutterWidth_pos (diagnostic : Diagnostic) : 0 < diagnostic.gutterWidth :=
  Nat.lt_of_lt_of_le (by decide) (Nat.le_max_left 3 _)

theorem padStart?_column (text : Text) :
    Text.padStart? diagnostic.column text =
      if diagnostic.Fits then some (text.leftpad diagnostic.column ' ') else none := rfl

theorem lines?_eq (h : diagnostic.Fits) :
    diagnostic.lines? palette file =
      let margin := List.replicate diagnostic.gutterWidth ' '
      let number := (Text.numeral diagnostic.line.number).leftpad diagnostic.gutterWidth ' '
      let caret := ['^'].leftpad diagnostic.column ' '
      let bar := ' ' :: palette.paint .gutter ['|']
      some
        [diagnostic.concise palette file, [], margin ++ bar,
          palette.paint .gutter number ++ bar ++ ' ' :: diagnostic.line.raw.trimEnd,
          margin ++ bar ++ ' ' :: palette.paint .caret caret] := by
  rw [lines?, excerpt?, if_pos h]
  rfl

theorem lines?_eq_none (h : ¬ diagnostic.Fits) : diagnostic.lines? palette file = none := by
  rw [lines?, excerpt?, if_neg h]
  rfl

/-- A full diagnostic begins and ends with what shows. -/
theorem exists_ends (h : diagnostic.Fits) {lines : List Text}
    (hlines : diagnostic.lines? palette file = some lines) :
    ∃ first last, (['\n'].intercalate lines).head? = some first ∧
      (['\n'].intercalate lines).getLast? = some last ∧
      Text.isSpace first = false ∧ Text.isSpace last = false := by
  have hword : "error".toList.head? = some 'e' := rfl
  have hcaret : (['^'].leftpad diagnostic.column ' ').getLast? = some '^' := by
    simp [List.leftpad]
  obtain ⟨first, hfirst, hfirstShows⟩ := palette.exists_head?_paint .label hword (by decide)
  obtain ⟨last, hlast, hlastShows⟩ := palette.exists_getLast?_paint .caret hcaret (by decide)
  rw [lines?_eq h, Option.some.injEq] at hlines
  subst hlines
  refine ⟨first, last, ?_, ?_, hfirstShows, hlastShows⟩
  · simp only [List.intercalate_cons_cons, concise, List.append_assoc, List.head?_append, hfirst,
      Option.some_or]
  · simp only [List.intercalate_cons_cons, List.intercalate_singleton, List.getLast?_append,
      List.getLast?_cons, hlast]
    rfl

/-- The form comes out as the lines, and there is the one where there are the others. -/
theorem form?_eq (palette : Palette) (file : Text) (diagnostic : Diagnostic) :
    diagnostic.form? palette file =
      (diagnostic.lines? palette file).map ['\n'].intercalate := by
  by_cases h : diagnostic.Fits
  · have hwide := palette.le_length_paint_leftpad
    have hlines : diagnostic.lines? palette file = _ := lines?_eq h
    obtain ⟨first, last, hfirst, hlast, hshow⟩ := exists_ends h hlines
    have habove : ∀ c ∈ ['\n'], Text.isAsciiSpace c := by
      simp [Text.isAsciiSpace]
    have hbelow : ∀ c ∈ '\n' :: List.replicate 8 ' ', Text.isAsciiSpace c := by
      simp [Text.isAsciiSpace]
    have htrim := Text.trimAscii_between habove hbelow hfirst hlast hshow
    rw [hlines, Option.map_some, ← htrim, form?]
    simp only [padStart?_column, if_pos h, Option.bind_eq_bind, Option.bind_some,
      Text.rightpad_eq_self (hwide ..), Text.leftpad_eq_self (hwide ..),
      Text.rightpad_singleton diagnostic.gutterWidth_pos]
    simp only [concise, List.intercalate_cons_cons, List.intercalate_singleton,
      List.append_assoc, List.cons_append, List.nil_append]
    rfl
  · rw [lines?_eq_none h, form?, padStart?_column, if_neg h]
    rfl

end Diagnostic

end CampaignScript
