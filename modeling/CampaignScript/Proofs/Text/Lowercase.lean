import CampaignScript.Proofs.Text.Phrase
import CampaignScript.Text.Lowercase
import CampaignScript.Text.Space
import Mathlib.Data.List.Basic

/-! A text in lower case is not changed by a further change to lower case. This rests on the letter
table: none of its small letters is one of its capitals, and none is white space. -/
namespace CampaignScript.Text

namespace CapitalRun

/-- The last of the small letters of a run. -/
def smallLast (run : CapitalRun) : Nat :=
  run.small + (run.last - run.first)

/-- Whether all small letters of a run lie outside of a range. -/
def smallOutside (run : CapitalRun) (range : Nat × Nat) : Bool :=
  Nat.blt range.2 run.small || Nat.blt run.smallLast range.1

/-- Whether no small letter of a run is a capital of another. They lie apart, or take turns. -/
def smallApart (run other : CapitalRun) : Bool :=
  run.smallOutside (other.first, other.last) ||
    other.step % 2 == 0 && (run.step % 2 == 0 || run.first == run.last) &&
      (run.small + other.first) % 2 == 1

theorem small?_eq_some_iff {run : CapitalRun} {n small : Nat} :
    run.small? n = some small ↔
      (run.first ≤ n ∧ n ≤ run.last ∧ (n - run.first) % run.step = 0) ∧
        small = run.small + (n - run.first) := by
  rw [small?, Option.ite_none_right_eq_some, Option.some.injEq, eq_comm (a := small)]

theorem small_le {run : CapitalRun} {n small : Nat} (h : run.small? n = some small) :
    run.small ≤ small ∧ small ≤ run.smallLast := by
  obtain ⟨⟨hfirst, hlast, -⟩, rfl⟩ := small?_eq_some_iff.mp h
  rw [smallLast]
  omega

theorem smallOutside_small? {run : CapitalRun} {n small : Nat} (h : run.small? n = some small)
    {range : Nat × Nat} (hrange : run.smallOutside range) :
    ¬ (range.1 ≤ small ∧ small ≤ range.2) := by
  have hsmall := small_le h
  simp only [smallOutside, Bool.or_eq_true, Nat.blt_eq] at hrange
  omega

theorem smallApart_small? {run other : CapitalRun} {n small : Nat} (h : run.small? n = some small)
    (hapart : run.smallApart other) : other.small? small = none := by
  rw [Option.eq_none_iff_forall_ne_some]
  intro twice htwice
  obtain ⟨⟨hfirst, hlast, hstep⟩, -⟩ := small?_eq_some_iff.mp htwice
  rw [smallApart, Bool.or_eq_true] at hapart
  rcases hapart with houtside | hturns
  · exact smallOutside_small? h houtside ⟨hfirst, hlast⟩
  · simp only [Bool.and_eq_true, Bool.or_eq_true, beq_iff_eq] at hturns
    obtain ⟨⟨heven, hrun⟩, hodd⟩ := hturns
    obtain ⟨⟨hn, hnlast, hnstep⟩, rfl⟩ := small?_eq_some_iff.mp h
    have hsmall := Nat.dvd_trans (Nat.dvd_of_mod_eq_zero heven) (Nat.dvd_of_mod_eq_zero hstep)
    have hcapital : 2 ∣ n - run.first := by
      rcases hrun with hrun | hrun
      · exact Nat.dvd_trans (Nat.dvd_of_mod_eq_zero hrun) (Nat.dvd_of_mod_eq_zero hnstep)
      · omega
    omega

end CapitalRun

/-- The code points that no small letter of the table may have: the surrogates, the two capitals
that are not in the table, and white space. -/
def barredRanges : List (Nat × Nat) :=
  (0xD800, 0xDFFF) :: (0x130, 0x130) :: (0x3A3, 0x3A3) :: spaceRanges

private theorem capitalRuns_smallApart :
    (capitalRuns.all fun run => capitalRuns.all run.smallApart) = true := by
  decide +kernel

private theorem capitalRuns_smallOutside :
    (capitalRuns.all fun run =>
      Nat.blt run.smallLast 0x110000 && barredRanges.all run.smallOutside) = true := by
  decide +kernel

/-- What the small letters of the table have in common: each is a character without a small form
of its own, and no barred one. -/
structure IsSmall (n : Nat) : Prop where
  isValidChar : n.isValidChar
  findSome? : capitalRuns.findSome? (fun run => run.small? n) = none
  notMem : ∀ range ∈ barredRanges, ¬ (range.1 ≤ n ∧ n ≤ range.2)

theorem isSmall_of_small? {run : CapitalRun} (hrun : run ∈ capitalRuns) {n small : Nat}
    (h : run.small? n = some small) : IsSmall small := by
  have hcheck := List.all_eq_true.mp capitalRuns_smallOutside run hrun
  rw [Bool.and_eq_true, Nat.blt_eq, List.all_eq_true] at hcheck
  obtain ⟨hlast, hbarred⟩ := hcheck
  have houtside : ∀ range ∈ barredRanges, ¬ (range.1 ≤ small ∧ small ≤ range.2) :=
    fun range hrange => CapitalRun.smallOutside_small? h (hbarred range hrange)
  refine ⟨?_, List.findSome?_eq_none_iff.mpr ?_, houtside⟩
  · have hsmall := CapitalRun.small_le h
    have hsurrogate := houtside _ List.mem_cons_self
    show small < 0xD800 ∨ 0xDFFF < small ∧ small < 0x110000
    omega
  · intro other hother
    have hapart := List.all_eq_true.mp capitalRuns_smallApart run hrun
    exact CapitalRun.smallApart_small? h (List.all_eq_true.mp hapart other hother)

theorem lowerChar_eq_self_or (c : Char) :
    lowerChar c = c ∧ capitalRuns.findSome? (fun run => run.small? c.toNat) = none ∨
      IsSmall (lowerChar c).toNat := by
  rw [lowerChar]
  split
  · next n hn =>
    obtain ⟨run, hrun, hsmall⟩ := List.exists_of_findSome?_eq_some hn
    have h := isSmall_of_small? hrun hsmall
    rw [toNat_ofNat h.isValidChar]
    exact .inr h
  · next hnone => exact .inl ⟨rfl, hnone⟩

theorem lowerChar_lowerChar (c : Char) : lowerChar (lowerChar c) = lowerChar c := by
  rcases lowerChar_eq_self_or c with ⟨hself, -⟩ | hsmall
  · rw [hself, hself]
  · rw [lowerChar, hsmall.findSome?]

theorem IsSmall.ne {c d : Char} (h : IsSmall c.toNat) (hd : (d.toNat, d.toNat) ∈ barredRanges) :
    c ≠ d := by
  rintro rfl
  exact h.notMem _ hd ⟨Nat.le_refl _, Nat.le_refl _⟩

theorem IsSmall.isSpace {c : Char} (h : IsSmall c.toNat) : Text.isSpace c = false := by
  rw [Text.isSpace, inRanges, List.any_eq_false]
  intro range hrange
  have hbarred := h.notMem range (by simp [barredRanges, hrange])
  simpa using hbarred

/-- Whether a character stands for itself in lower case, wherever it stands. -/
def IsLower (c : Char) : Prop :=
  ∀ before after, lowerBetween before c after = [c]

theorem isLower_of_lowerChar {c : Char} (hsigma : c ≠ 'Σ') (hdotted : c ≠ 'İ')
    (h : lowerChar c = c) : IsLower c := by
  intro before after
  rw [lowerBetween, if_neg hsigma, if_neg hdotted, h]

theorem isLower_lowerChar {c : Char} (hsigma : c ≠ 'Σ') (hdotted : c ≠ 'İ') :
    IsLower (lowerChar c) := by
  rcases lowerChar_eq_self_or c with ⟨hself, -⟩ | hsmall
  · rw [hself]
    exact isLower_of_lowerChar hsigma hdotted hself
  · have hsigma' := hsmall.ne (d := 'Σ') (by decide)
    have hdotted' := hsmall.ne (d := 'İ') (by decide)
    exact isLower_of_lowerChar hsigma' hdotted' (lowerChar_lowerChar c)

/-- The small letters that stand for the two capitals outside of the table. -/
def specialLetters : Text :=
  ['ς', 'σ', 'i', '\u0307']

theorem mem_lowerBetween {before after : Text} {c d : Char} (h : d ∈ lowerBetween before c after) :
    d ∈ specialLetters ∨ c ≠ 'Σ' ∧ c ≠ 'İ' ∧ d = lowerChar c := by
  rw [lowerBetween] at h
  split_ifs at h with hsigma hfinal hdotted
  · rw [List.mem_singleton.mp h]
    exact .inl (by decide)
  · rw [List.mem_singleton.mp h]
    exact .inl (by decide)
  · rcases List.mem_pair.mp h with rfl | rfl
    · exact .inl (by decide)
    · exact .inl (by decide)
  · exact .inr ⟨hsigma, hdotted, List.mem_singleton.mp h⟩

theorem isLower_of_mem_lowerBetween {before after : Text} {c d : Char}
    (h : d ∈ lowerBetween before c after) : IsLower d := by
  rcases mem_lowerBetween h with hspecial | ⟨hsigma, hdotted, rfl⟩
  · have hletters : specialLetters.all
        (fun d => decide (d ≠ 'Σ' ∧ d ≠ 'İ' ∧ lowerChar d = d)) = true := by
      decide +kernel
    have hletter := List.all_eq_true.mp hletters d hspecial
    obtain ⟨hsigma, hdotted, hself⟩ := of_decide_eq_true hletter
    exact isLower_of_lowerChar hsigma hdotted hself
  · exact isLower_lowerChar hsigma hdotted

/-- White space comes from white space only, where a text is put in lower case. -/
theorem eq_of_mem_lowerBetween {before after : Text} {c d : Char}
    (h : d ∈ lowerBetween before c after) (hd : isSpace d = true) : d = c := by
  rcases mem_lowerBetween h with hspecial | ⟨-, -, rfl⟩
  · have hletters : specialLetters.any isSpace = false := by decide
    exact absurd hd (List.any_eq_false.mp hletters d hspecial)
  · rcases lowerChar_eq_self_or c with ⟨hself, -⟩ | hsmall
    · exact hself
    · rw [hsmall.isSpace] at hd
      contradiction

theorem lowerBetween_ne_nil (before after : Text) (c : Char) :
    lowerBetween before c after ≠ [] := by
  rw [lowerBetween]
  split_ifs <;> simp

theorem mem_lowercase_go {before text : Text} {d : Char} (h : d ∈ lowercase.go before text) :
    ∃ front c after, c ∈ text ∧ d ∈ lowerBetween front c after := by
  induction text generalizing before with
  | nil => exact absurd h List.not_mem_nil
  | cons c text ih =>
    rw [lowercase.go, List.mem_append] at h
    rcases h with h | h
    · exact ⟨before, c, text, List.mem_cons_self, h⟩
    · obtain ⟨front, e, after, he, hd⟩ := ih h
      exact ⟨front, e, after, List.mem_cons_of_mem c he, hd⟩

theorem lowercase_go_of_isLower (before : Text) {text : Text} (h : ∀ c ∈ text, IsLower c) :
    lowercase.go before text = text := by
  induction text generalizing before with
  | nil => rfl
  | cons c text ih =>
    obtain ⟨hc, htext⟩ := List.forall_mem_cons.mp h
    rw [lowercase.go, hc, ih _ htext]
    rfl

theorem isLower_of_mem_lowercase {text : Text} {d : Char} (h : d ∈ text.lowercase) : IsLower d := by
  obtain ⟨front, c, after, -, hd⟩ := mem_lowercase_go h
  exact isLower_of_mem_lowerBetween hd

theorem mem_of_mem_lowercase {text : Text} {d : Char} (h : d ∈ text.lowercase)
    (hd : isSpace d = true) : d ∈ text := by
  obtain ⟨front, c, after, hc, hmem⟩ := mem_lowercase_go h
  exact eq_of_mem_lowerBetween hmem hd ▸ hc

theorem lowercase_of_isLower {text : Text} (h : ∀ c ∈ text, IsLower c) : text.lowercase = text :=
  lowercase_go_of_isLower [] h

theorem lowercase_go_ne_nil (before : Text) {text : Text} (h : text ≠ []) :
    lowercase.go before text ≠ [] := by
  cases text with
  | nil => exact absurd rfl h
  | cons c text =>
    rw [lowercase.go]
    exact List.append_ne_nil_of_left_ne_nil (lowerBetween_ne_nil before text c) _

/-- A text that does not end in white space does not do so in lower case. -/
theorem isSpace_of_getLast?_lowercase_go {before text : Text}
    (h : ∀ c ∈ text.getLast?, isSpace c = false) :
    ∀ d ∈ (lowercase.go before text).getLast?, isSpace d = false := by
  induction text generalizing before with
  | nil => simp [lowercase.go]
  | cons c text ih =>
    intro d hd
    rw [lowercase.go] at hd
    cases text with
    | nil =>
      have hmem : d ∈ lowerBetween before c [] := by
        rw [lowercase.go, List.append_nil] at hd
        exact List.mem_of_getLast? hd
      have hc : isSpace c = false := h c rfl
      cases hspace : isSpace d with
      | false => rfl
      | true => rw [← eq_of_mem_lowerBetween hmem hspace, hspace] at hc; contradiction
    | cons e text =>
      rw [List.getLast?_append_of_ne_nil _ (lowercase_go_ne_nil _ (List.cons_ne_nil e text))] at hd
      exact ih (fun e' he => h e' (by rwa [List.getLast?_cons_cons])) d hd

end CampaignScript.Text
