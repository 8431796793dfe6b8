import CampaignScript.Text.Phrase
import Mathlib.Tactic.SplitIfs

/-! What it means that a phrase is met in a text: which parts of the text stand before it, in its
place and after it. -/
namespace CampaignScript.Text

theorem toNat_ofNat {n : Nat} (h : n.isValidChar) : (Char.ofNat n).toNat = n := by
  rw [Char.ofNat, dif_pos h]
  rfl

/-- Only small letters are met in another form than their own. -/
theorem foldCase_eq_self_or (c : Char) :
    foldCase c = c ∨ 97 ≤ (foldCase c).toNat ∧ (foldCase c).toNat ≤ 122 := by
  unfold foldCase
  split_ifs with hcapital hs hk
  · right
    have hlow : 65 ≤ c.toNat := hcapital.1
    have hhigh : c.toNat ≤ 90 := hcapital.2
    rw [toNat_ofNat (Or.inl (by omega))]
    omega
  · exact .inr (by decide)
  · exact .inr (by decide)
  · exact .inl rfl

theorem foldCase_eq_space_iff {c : Char} : foldCase c = ' ' ↔ c = ' ' := by
  constructor
  · intro h
    rcases foldCase_eq_self_or c with hself | hletter
    · exact hself ▸ h
    · rw [h] at hletter
      exact absurd hletter.1 (by decide)
  · rintro rfl
    decide

theorem afterPhrase?_eq_some_iff {phrase text rest : Text} :
    afterPhrase? phrase text = some rest ↔
      ∃ opening, text = opening ++ rest ∧ opening.map foldCase = phrase := by
  fun_induction afterPhrase? phrase text with
  | case1 text => simp
  | case2 => simp
  | case3 phrase c text ih =>
    rw [ih]
    constructor
    · rintro ⟨opening, rfl, rfl⟩
      exact ⟨c :: opening, rfl, rfl⟩
    · rintro ⟨opening, htext, hopening⟩
      cases opening with
      | nil => simp at hopening
      | cons d opening =>
        simp only [List.map_cons, List.cons_append, List.cons.injEq] at htext hopening
        exact ⟨opening, htext.2, hopening.2⟩
  | case4 p phrase c text hp =>
    simp only [reduceCtorEq, false_iff, not_exists, not_and]
    intro opening htext hopening
    cases opening with
    | nil => simp at hopening
    | cons d opening =>
      simp only [List.map_cons, List.cons_append, List.cons.injEq] at htext hopening
      exact hp (htext.1 ▸ hopening.1)

theorem beforePhrase?_eq_some_iff {phrase text before : Text} :
    beforePhrase? phrase text = some before ↔
      ∃ closing, text = before ++ closing ∧ closing.map foldCase = phrase := by
  simp only [beforePhrase?, Option.map_eq_some_iff, afterPhrase?_eq_some_iff]
  constructor
  · rintro ⟨rest, ⟨opening, htext, hopening⟩, rfl⟩
    refine ⟨opening.reverse, ?_, ?_⟩
    · rw [← List.reverse_append, ← htext, List.reverse_reverse]
    · rw [List.map_reverse, hopening, List.reverse_reverse]
  · rintro ⟨closing, rfl, rfl⟩
    exact ⟨before.reverse, ⟨closing.reverse, by simp, by simp⟩, by simp⟩

theorem splitAtChar?_eq_some_iff {separator : Char} {text before after : Text} :
    splitAtChar? separator text = some (before, after) ↔
      text = before ++ separator :: after ∧ separator ∉ before := by
  fun_induction splitAtChar? separator text generalizing before with
  | case1 => simp
  | case2 text =>
    cases before with
    | nil => simp
    | cons d before => simp +contextual [eq_comm]
  | case3 c text hc ih =>
    cases before with
    | nil => simp [hc]
    | cons d before =>
      simp only [Option.map_eq_some_iff, Prod.exists, Prod.mk.injEq, List.cons.injEq,
        List.cons_append, List.mem_cons, not_or]
      constructor
      · rintro ⟨before, after, h, ⟨rfl, rfl⟩, rfl⟩
        obtain ⟨htext, hbefore⟩ := ih.mp h
        exact ⟨⟨rfl, htext⟩, Ne.symm hc, hbefore⟩
      · rintro ⟨⟨rfl, htext⟩, -, hbefore⟩
        exact ⟨before, after, ih.mpr ⟨htext, hbefore⟩, ⟨rfl, rfl⟩, rfl⟩

theorem splitAtChar?_of_notMem {separator : Char} {text : Text} (h : separator ∉ text) :
    splitAtChar? separator text = none := by
  rw [Option.eq_none_iff_forall_ne_some]
  rintro ⟨before, after⟩ hsome
  rw [(splitAtChar?_eq_some_iff.mp hsome).1] at h
  exact h (List.mem_append_right before List.mem_cons_self)

theorem afterPhrase?_append {phrase : Text} (h : phrase.map foldCase = phrase) (rest : Text) :
    afterPhrase? phrase (phrase ++ rest) = some rest :=
  afterPhrase?_eq_some_iff.mpr ⟨phrase, rfl, h⟩

/-- Whether a phrase is met nowhere in a text that comes before another one, the place where they
join included. -/
def Unmet (phrase before text : Text) : Prop :=
  ∀ back, back <:+ before → back ≠ [] → afterPhrase? phrase (back ++ text) = none

theorem Unmet.nil (phrase text : Text) : Unmet phrase [] text :=
  fun _ hback hne => absurd (List.suffix_nil.mp hback) hne

theorem unmet_cons_iff {phrase before text : Text} {c : Char} :
    Unmet phrase (c :: before) text ↔
      afterPhrase? phrase (c :: (before ++ text)) = none ∧ Unmet phrase before text := by
  constructor
  · intro h
    exact ⟨h (c :: before) List.suffix_rfl (List.cons_ne_nil c before),
      fun back hback => h back (hback.trans (List.suffix_cons c before))⟩
  · rintro ⟨hc, h⟩ back hback hne
    rcases List.suffix_cons_iff.mp hback with rfl | hback
    · exact hc
    · exact h back hback hne

theorem Unmet.append {phrase before more text : Text} (h : Unmet phrase before (more ++ text))
    (hmore : Unmet phrase more text) : Unmet phrase (before ++ more) text := by
  induction before with
  | nil => exact hmore
  | cons c before ih =>
    obtain ⟨hc, hbefore⟩ := unmet_cons_iff.mp h
    rw [← List.append_assoc] at hc
    exact unmet_cons_iff.mpr ⟨hc, ih hbefore⟩

theorem unmet_of_space_notMem {before : Text} (h : ' ' ∉ before) (phrase text : Text) :
    Unmet (' ' :: phrase) before text := by
  induction before with
  | nil => exact .nil _ text
  | cons c before ih =>
    rw [List.mem_cons, not_or] at h
    have hc : foldCase c ≠ ' ' := fun hc => h.1 (foldCase_eq_space_iff.mp hc).symm
    exact unmet_cons_iff.mpr ⟨by rw [afterPhrase?, if_neg hc], ih h.2⟩

/-- The text before a phrase ends where the phrase is met for the first time. -/
theorem splitAtPhrase?_append {phrase before text after : Text} (hbefore : Unmet phrase before text)
    (htext : afterPhrase? phrase text = some after) :
    splitAtPhrase? phrase (before ++ text) = some (before, after) := by
  induction before with
  | nil => cases text <;> simp [splitAtPhrase?, htext]
  | cons c before ih =>
    obtain ⟨hc, hbefore⟩ := unmet_cons_iff.mp hbefore
    rw [List.cons_append, splitAtPhrase?, hc, ih hbefore]
    rfl

theorem splitAtPhrase?_eq_some_iff {phrase text before after : Text} :
    splitAtPhrase? phrase text = some (before, after) ↔
      ∃ rest, text = before ++ rest ∧ afterPhrase? phrase rest = some after ∧
        Unmet phrase before rest := by
  constructor
  · intro h
    fun_induction splitAtPhrase? phrase text generalizing before with
    | case1 =>
      obtain ⟨rest, hrest, heq⟩ := Option.map_eq_some_iff.mp h
      cases heq
      exact ⟨[], rfl, hrest, .nil _ _⟩
    | case2 c text rest hrest =>
      cases h
      exact ⟨c :: text, rfl, hrest, .nil _ _⟩
    | case3 c text hnone ih =>
      obtain ⟨⟨front, back⟩, hsplit, heq⟩ := Option.map_eq_some_iff.mp h
      cases heq
      obtain ⟨rest, rfl, hrest, hunmet⟩ := ih hsplit
      exact ⟨rest, rfl, hrest, unmet_cons_iff.mpr ⟨hnone, hunmet⟩⟩
  · rintro ⟨rest, rfl, hrest, hunmet⟩
    exact splitAtPhrase?_append hunmet hrest

/-- A phrase is unmet in a text where none of its occurrences begins there. -/
theorem unmet_iff {phrase before text : Text} :
    Unmet phrase before text ↔
      ∀ earlier opening later, before ++ text = earlier ++ opening ++ later →
        opening.map foldCase = phrase → before.length ≤ earlier.length := by
  constructor
  · intro h earlier opening later htext hopening
    refine Nat.le_of_not_lt fun hlt => ?_
    rw [List.append_assoc] at htext
    obtain ⟨back, rfl, hback⟩ | ⟨back, hearlier, -⟩ := List.append_eq_append_iff.mp htext.symm
    · have hne : back ≠ [] := by
        rintro rfl
        simp at hlt
      have hmet := h back (List.suffix_append earlier back) hne
      rw [← hback, afterPhrase?_eq_some_iff.mpr ⟨opening, rfl, hopening⟩] at hmet
      contradiction
    · rw [hearlier, List.length_append] at hlt
      omega
  · rintro h back ⟨front, rfl⟩ hne
    rw [Option.eq_none_iff_forall_ne_some]
    intro later hlater
    obtain ⟨opening, htext, hopening⟩ := afterPhrase?_eq_some_iff.mp hlater
    have hle := h front opening later (by rw [List.append_assoc, htext, List.append_assoc]) hopening
    have hpos := List.length_pos_iff.mpr hne
    rw [List.length_append] at hle
    omega

end CampaignScript.Text
