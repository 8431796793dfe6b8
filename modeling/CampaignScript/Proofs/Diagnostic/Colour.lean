import CampaignScript.Proofs.Diagnostic.Form
import CampaignScript.Proofs.Text.Numeral
import CampaignScript.Source.LoadError

/-! Colour changes nothing but colour, whichever colours they are. A text is gone through from one
control sequence to the next, and the sequences are taken out. Of a part with colour that leaves the
part, whatever comes after. So it leaves of a coloured diagnostic the plain one, where the texts
that it is made of have no escape character. -/
namespace CampaignScript

namespace Text

/-- What comes after the control sequence that a text starts with, if it starts with one: an escape
character, a bracket, a number and an `m`. -/
def afterControl? : Text → Option Text
  | '\x1b' :: '[' :: rest =>
    match rest.takeWhile Char.isDigit, rest.dropWhile Char.isDigit with
    | _ :: _, 'm' :: after => some after
    | _, _ => none
  | _ => none

theorem afterControl?_eq_some_iff {text after : Text} :
    afterControl? text = some after ↔ ∃ digits : Text,
      text = '\x1b' :: '[' :: digits ++ 'm' :: after ∧ digits ≠ [] ∧ ∀ c ∈ digits, c.isDigit := by
  constructor
  · intro h
    unfold afterControl? at h
    split at h
    · next rest =>
      split at h
      · next digit digits behind hdigits hbehind =>
        cases h
        refine ⟨digit :: digits, ?_, List.cons_ne_nil _ _, fun c hc => ?_⟩
        · rw [← hdigits, ← hbehind, List.cons_append, List.cons_append,
            List.takeWhile_append_dropWhile]
        · exact List.mem_takeWhile_imp (hdigits ▸ hc)
      · contradiction
    · contradiction
  · rintro ⟨digits, rfl, hne, hdigits⟩
    have htake : (digits ++ 'm' :: after).takeWhile Char.isDigit = digits := by
      rw [List.takeWhile_append_of_pos hdigits]
      simp
    have hdrop : (digits ++ 'm' :: after).dropWhile Char.isDigit = 'm' :: after := by
      rw [List.dropWhile_append_of_pos hdigits]
      simp
    simp only [List.cons_append, afterControl?, htake, hdrop]
    cases digits with
    | nil => contradiction
    | cons => rfl

theorem length_of_afterControl? {text after : Text} (h : afterControl? text = some after) :
    after.length < text.length := by
  obtain ⟨digits, rfl, -⟩ := afterControl?_eq_some_iff.mp h
  simp only [List.cons_append, List.length_cons, List.length_append]
  omega

/-- The text without its control sequences. -/
def uncoloured (text : Text) : Text :=
  match _h : afterControl? text with
  | some after => uncoloured after
  | none =>
    match text with
    | [] => []
    | c :: rest => c :: uncoloured rest
termination_by text.length
decreasing_by
  · exact length_of_afterControl? _h
  · simp

theorem afterControl?_cons {c : Char} (h : c ≠ '\x1b') (rest : Text) :
    afterControl? (c :: rest) = none := by
  unfold afterControl?
  split
  · next heq => exact absurd (List.cons.inj heq).1 h
  · rfl

theorem uncoloured_nil : uncoloured [] = [] := by
  rw [uncoloured]
  rfl

theorem uncoloured_cons {c : Char} (h : c ≠ '\x1b') (rest : Text) :
    uncoloured (c :: rest) = c :: uncoloured rest := by
  rw [uncoloured]
  split
  · next heq => simp [afterControl?_cons h] at heq
  · rfl

theorem uncoloured_of_afterControl? {text after : Text} (h : afterControl? text = some after) :
    uncoloured text = uncoloured after := by
  rw [uncoloured]
  split
  · next heq => rw [Option.some.inj (h.symm.trans heq)]
  · next heq => rw [heq] at h; contradiction

/-- Whether a text shows as `plain` does where control sequences are taken out, whatever follows. -/
def Shows (text plain : Text) : Prop :=
  ∀ rest, uncoloured (text ++ rest) = plain ++ uncoloured rest

namespace Shows
variable {text other plain plain' : Text}

theorem uncoloured_eq (h : Shows text plain) : uncoloured text = plain := by
  simpa [uncoloured_nil] using h []

theorem append (h : Shows text plain) (h' : Shows other plain') :
    Shows (text ++ other) (plain ++ plain') := by
  intro rest
  rw [List.append_assoc, h, h', List.append_assoc]

theorem of_notMem (h : '\x1b' ∉ text) : Shows text text := by
  intro rest
  induction text with
  | nil => rfl
  | cons c text ih =>
    rw [List.mem_cons, not_or] at h
    rw [List.cons_append, uncoloured_cons (Ne.symm h.1), ih h.2, List.cons_append]

theorem cons {c : Char} (hc : c ≠ '\x1b') (h : Shows text plain) :
    Shows (c :: text) (c :: plain) := by
  have hsingle : '\x1b' ∉ [c] := by simpa using hc.symm
  exact (of_notMem hsingle).append h

theorem intercalate {separator : Text} (hseparator : '\x1b' ∉ separator) {lines plains : List Text}
    (h : List.Forall₂ Shows lines plains) :
    Shows (separator.intercalate lines) (separator.intercalate plains) := by
  induction h with
  | nil => exact of_notMem List.not_mem_nil
  | cons hline hlines ih =>
    cases hlines with
    | nil => simpa using hline
    | cons =>
      rw [List.intercalate_cons_cons, List.intercalate_cons_cons]
      exact (hline.append (of_notMem hseparator)).append ih

/-- A control sequence shows as nothing. -/
theorem select (code : Nat) : Shows (Palette.select code) [] := by
  intro rest
  refine uncoloured_of_afterControl? (afterControl?_eq_some_iff.mpr ?_)
  refine ⟨numeral code, ?_, numeral_ne_nil code, fun _ => isDigit_of_mem_numeral⟩
  simp [Palette.select]

theorem paint (palette : Palette) (part : Part) (h : '\x1b' ∉ text) :
    Shows (palette.paint part text) text := by
  unfold Palette.paint
  split
  · simpa using ((select _).append (of_notMem h)).append (select _)
  · exact of_notMem h

/-- The word that all messages open with. -/
theorem opening (palette : Palette) :
    Shows (palette.paint .label "error".toList ++ ": ".toList) ("error".toList ++ ": ".toList) :=
  (paint palette .label (by decide)).append (of_notMem (by decide))

end Shows

end Text

open Text

namespace Diagnostic
variable {palette : Palette} {diagnostic : Diagnostic} {file : Text}

theorem shows_concise (hmessage : '\x1b' ∉ diagnostic.message) (hfile : '\x1b' ∉ file) :
    Shows (diagnostic.concise palette file) (diagnostic.concise .plain file) := by
  have hnumeral (n : Nat) : '\x1b' ∉ Text.numeral n := Text.notMem_numeral rfl n
  have hplace : '\x1b' ∉ file ++ ':' :: Text.numeral diagnostic.line.number ++
      ':' :: Text.numeral diagnostic.column := by
    simp [hfile, hnumeral]
  have hlocation := Shows.paint palette .location hplace
  have hproblem := Shows.paint palette .problem hmessage
  exact ((Shows.opening palette).append hlocation).append (hproblem.cons (by decide))

/-- Line for line, what is shown in colour shows as what is shown without. -/
theorem map_uncoloured_form? (hmessage : '\x1b' ∉ diagnostic.message)
    (hraw : '\x1b' ∉ diagnostic.line.raw) (hfile : '\x1b' ∉ file) :
    (diagnostic.form? palette file).map uncoloured = diagnostic.form? .plain file := by
  rw [form?_eq, form?_eq]
  by_cases h : diagnostic.Fits
  · have hmargin : '\x1b' ∉ List.replicate diagnostic.gutterWidth ' ' := by simp
    have hnumber := Text.notMem_leftpad_numeral (c := '\x1b') rfl (by decide)
      diagnostic.gutterWidth diagnostic.line.number
    have hcaret : '\x1b' ∉ ['^'].leftpad diagnostic.column ' ' := by simp [List.leftpad]
    have htext : '\x1b' ∉ diagnostic.line.raw.trimEnd :=
      fun hmem => hraw ((Text.trimEnd_isPrefix _).subset hmem)
    have hspace {text plain : Text} (h : Shows text plain) : Shows (' ' :: text) (' ' :: plain) :=
      h.cons (by decide)
    have hmark : '\x1b' ∉ ['|'] := by decide
    have hbar := hspace (Shows.paint palette .gutter hmark)
    have habove := (Shows.of_notMem hmargin).append hbar
    have hbeside := (Shows.paint palette .gutter hnumber).append hbar
    have hshown := hbeside.append (hspace (Shows.of_notMem htext))
    have hbelow := habove.append (hspace (Shows.paint palette .caret hcaret))
    have hfeed : '\x1b' ∉ ['\n'] := by decide
    have hconcise : Shows (diagnostic.concise palette file) _ := shows_concise hmessage hfile
    have hlines := Shows.intercalate hfeed
      (.cons hconcise (.cons (.of_notMem List.not_mem_nil)
        (.cons habove (.cons hshown (.cons hbelow .nil)))))
    rw [lines?_eq h, lines?_eq h]
    exact congrArg some hlines.uncoloured_eq
  · rw [lines?_eq_none h, lines?_eq_none h]
    rfl

end Diagnostic

theorem LoadError.shows_concise {palette : Palette} {error : LoadError} {file : Text}
    (hproblem : '\x1b' ∉ error.problem) (hdetails : '\x1b' ∉ error.details)
    (hfile : '\x1b' ∉ file) :
    Shows (error.concise palette file) (error.concise .plain file) := by
  have hmessage : '\x1b' ∉ error.message := by
    unfold message
    split <;> simp [hproblem, hdetails]
  have hname : Shows (file ++ ": ".toList) (file ++ ": ".toList) :=
    (Shows.of_notMem hfile).append (.of_notMem (by decide))
  have hwhole := ((Shows.opening palette).append hname).append (.paint palette .problem hmessage)
  simpa only [concise, Palette.paint_plain, List.append_assoc] using hwhole

/-- Without its control sequences, all that is written in colour is what is written without,
whichever codes begin and end the look of a part. What has no form in one colour has none in
another. -/
theorem Palette.uncoloured_eq_plain (palette : Palette) {file : Text} (hfile : '\x1b' ∉ file) :
    (∀ diagnostic : Diagnostic, '\x1b' ∉ diagnostic.message → '\x1b' ∉ diagnostic.line.raw →
      (diagnostic.form? palette file).map uncoloured = diagnostic.form? .plain file ∧
      uncoloured (diagnostic.concise palette file) = diagnostic.concise .plain file) ∧
    ∀ error : LoadError, '\x1b' ∉ error.problem → '\x1b' ∉ error.details →
      uncoloured (error.concise palette file) = error.concise .plain file := by
  constructor
  · intro diagnostic hmessage hraw
    exact ⟨Diagnostic.map_uncoloured_form? hmessage hraw hfile,
      (Diagnostic.shows_concise hmessage hfile).uncoloured_eq⟩
  · intro error hproblem hdetails
    exact (LoadError.shows_concise hproblem hdetails hfile).uncoloured_eq

/-- Texts that look like control sequences but for the escape character are left alone. -/
theorem Palette.uncoloured_eq_plain_brackets :
    let file : Text := "[1m".toList
    let diagnostic : Diagnostic := ⟨⟨7, "  [0m  ".toList⟩, "39m".toList⟩
    let error : LoadError := ⟨"[91m".toList, "m".toList⟩
    let coloured : Text := (
      "\x1b[91merror\x1b[39m: [1m:7:3 \x1b[1m39m\x1b[0m\n\n" ++
      "    \x1b[94m|\x1b[39m\n" ++
      "\x1b[94m  7\x1b[39m \x1b[94m|\x1b[39m   [0m\n" ++
      "    \x1b[94m|\x1b[39m \x1b[91m  ^\x1b[39m").toList
    ('\x1b' ∉ file ∧ '\x1b' ∉ diagnostic.message ∧ '\x1b' ∉ diagnostic.line.raw ∧
      '\x1b' ∉ error.problem ∧ '\x1b' ∉ error.details) ∧
    diagnostic.form? .ansi file = some coloured ∧
    uncoloured coloured =
      "error: [1m:7:3 39m\n\n    |\n  7 |   [0m\n    |   ^".toList ∧
    uncoloured "\x1b[91merror\x1b[39m: [1m: \x1b[1m[91m: m\x1b[0m".toList =
      "error: [1m: [91m: m".toList := by
  intro file diagnostic error coloured
  have hfile : '\x1b' ∉ file := by decide
  have hmessage : '\x1b' ∉ diagnostic.message := by decide
  have hraw : '\x1b' ∉ diagnostic.line.raw := by decide
  have hproblem : '\x1b' ∉ error.problem := by decide
  have hdetails : '\x1b' ∉ error.details := by decide
  obtain ⟨hdiagnostics, herrors⟩ := Palette.uncoloured_eq_plain .ansi hfile
  obtain ⟨hform, -⟩ := hdiagnostics diagnostic hmessage hraw
  have hcoloured : diagnostic.form? .ansi file = some coloured := by decide +kernel
  have hplain : diagnostic.form? .plain file =
      some "error: [1m:7:3 39m\n\n    |\n  7 |   [0m\n    |   ^".toList := by decide +kernel
  refine ⟨⟨hfile, hmessage, hraw, hproblem, hdetails⟩, hcoloured, ?_,
    herrors error hproblem hdetails⟩
  rw [hcoloured, hplain, Option.map_some, Option.some.injEq] at hform
  exact hform

end CampaignScript
