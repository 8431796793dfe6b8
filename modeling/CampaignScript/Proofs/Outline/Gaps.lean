import CampaignScript.Proofs.Outline.Order
import CampaignScript.Proofs.Outline.Spacing

/-! What stands between two lines of a script. The layout shows no blank lines, but it has the
numbers of the lines with content: where there is a gap in the numbers, a line stands between, and
it is blank, or it is nested under the first of the two. -/
namespace CampaignScript

namespace Layout

open Text

/-- The written lines of a script strictly between two line numbers. -/
def between (source : Text) (number next : Nat) : List Text :=
  (source.lines.take (next - 1)).drop number

/-- Whether a blank line stands between two line numbers. -/
def HasBlankBetween (source : Text) (number next : Nat) : Prop :=
  ∃ text ∈ between source number next, text.IsBlank

instance (source : Text) (number next : Nat) : Decidable (HasBlankBetween source number next) :=
  inferInstanceAs (Decidable (∃ text ∈ _, IsBlank text))

/-- A line with content tells the written line that it was made from, and so what is written before
that and behind it. -/
theorem exists_of_contentFrom_eq {number : Nat} {written : List Text} {front more : List Line}
    {line : Line} (h : contentFrom number written = front ++ line :: more) :
    ∃ before text after, written = before ++ text :: after ∧
      line.number = number + before.length ∧ contentFrom number before = front ∧
      contentFrom (line.number + 1) after = more := by
  induction written generalizing number front with
  | nil => simp [contentFrom] at h
  | cons text written ih =>
    rw [contentFrom_cons] at h
    split_ifs at h with hblank
    · obtain ⟨before, own, after, rfl, hnumber, hbefore, hafter⟩ := ih h
      refine ⟨text :: before, own, after, rfl, ?_, ?_, hafter⟩
      · rw [List.length_cons]
        omega
      · rw [contentFrom_cons, if_pos hblank, hbefore]
    · cases front with
      | nil =>
        obtain ⟨rfl, hmore⟩ := List.cons.inj h
        exact ⟨[], text, written, rfl, rfl, rfl, hmore⟩
      | cons first front =>
        obtain ⟨rfl, hrest⟩ := List.cons.inj h
        obtain ⟨before, own, after, rfl, hnumber, hbefore, hafter⟩ := ih hrest
        refine ⟨text :: before, own, after, rfl, ?_, ?_, hafter⟩
        · rw [List.length_cons]
          omega
        · rw [contentFrom_cons, if_neg hblank, hbefore]

/-- The lines with content between two lines are those that the script has there. -/
theorem contentFrom_between {source : Text} {line next : Line} {middle : List Line}
    (h : line :: middle ++ [next] <:+: contentLines source) :
    contentFrom (line.number + 1) (between source line.number next.number) = middle ∧
      line.number + (between source line.number next.number).length + 1 = next.number := by
  obtain ⟨front, more, hcontent⟩ := h
  have hsplit : contentFrom 1 source.lines = front ++ line :: (middle ++ next :: more) :=
    hcontent.symm.trans (by simp)
  obtain ⟨before, text, after, hlines, hnumber, -, hafter⟩ := exists_of_contentFrom_eq hsplit
  obtain ⟨inner, nextText, rest, rfl, hnext, hinner, -⟩ := exists_of_contentFrom_eq hafter
  have hbetween : between source line.number next.number = inner := by
    have htake : next.number - 1 = (before ++ text :: inner).length := by
      rw [List.length_append, List.length_cons]
      omega
    have hdrop : line.number = (before ++ [text]).length := by
      rw [List.length_append, List.length_singleton]
      omega
    have happend : before ++ text :: (inner ++ nextText :: rest) =
        (before ++ text :: inner) ++ nextText :: rest := by simp
    have hinside : before ++ text :: inner = (before ++ [text]) ++ inner := by simp
    rw [between, hlines, happend, htake, List.take_left, hdrop, hinside, List.drop_left]
  rw [hbetween]
  exact ⟨hinner, by omega⟩

/-- There is a gap in the numbers of two lines where a blank line or a line with content stands
between them. -/
theorem gap_iff {source : Text} {line next : Line} {middle : List Line}
    (h : line :: middle ++ [next] <:+: contentLines source) :
    line.number + 1 < next.number ↔
      HasBlankBetween source line.number next.number ∨ middle ≠ [] := by
  obtain ⟨hmiddle, hlength⟩ := contentFrom_between h
  constructor
  · intro hgap
    rw [or_iff_not_imp_left, HasBlankBetween, not_exists]
    intro hblank hnil
    rw [hnil, contentFrom_eq_nil_iff] at hmiddle
    obtain ⟨text, htext⟩ := List.exists_mem_of_length_pos
      (show 0 < (between source line.number next.number).length by omega)
    exact hblank text ⟨htext, hmiddle text htext⟩
  · intro hgap
    have hne : between source line.number next.number ≠ [] := by
      intro hnil
      rw [hnil] at hmiddle
      rcases hgap with ⟨text, htext, -⟩ | hne
      · rw [hnil] at htext
        exact absurd htext List.not_mem_nil
      · exact hne hmiddle.symm
    have hpos := List.length_pos_iff.mpr hne
    omega

/-- Entries next to each other have a gap between them where a blank line or a line nested under the
first of them stands there. -/
theorem isChain_entries {source : Text} {outline : Outline}
    (h : outline.preorder <:+: contentLines source) :
    outline.entries.IsChain fun entry next => entry.line.number + 1 < next.line.number ↔
      HasBlankBetween source entry.line.number next.line.number ∨ entry.nested ≠ .empty := by
  induction outline with
  | empty => exact .nil
  | entry line nested rest _ ih =>
    rw [Outline.preorder, ← List.cons_append] at h
    have hrest := ih ((List.suffix_append _ _).isInfix.trans h)
    cases rest with
    | empty => exact .singleton _
    | entry next nextNested rest =>
      have hnext : line :: nested.preorder ++ [next] <:+: contentLines source := by
        refine List.IsInfix.trans ⟨[], nextNested.preorder ++ rest.preorder, ?_⟩ h
        simp [Outline.preorder]
      have hnested : nested.preorder ≠ [] ↔ nested ≠ .empty := by
        cases nested <;> simp [Outline.preorder]
      rw [Outline.entries, Outline.entries, List.isChain_cons_cons, ← hnested]
      exact ⟨gap_iff hnext, hrest⟩

end Layout

end CampaignScript
