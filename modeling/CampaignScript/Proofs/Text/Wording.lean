import CampaignScript.Proofs.Text.Phrase
import Mathlib.Data.List.Forall2

/-! How fixed phrases may be written in a script, and the places at which they divide a text. The
readers fold letters; what they accept is told here without folding. -/
namespace CampaignScript.Text

/-- Whether a text is a phrase of small letters as it may be written: each letter in either case,
and an s as the long s too. -/
def IsWritten (phrase text : Text) : Prop :=
  List.Forall₂ (fun p c => c.toLower = p ∨ p = 's' ∧ c = 'ſ') phrase text

instance (phrase text : Text) : Decidable (IsWritten phrase text) :=
  inferInstanceAs (Decidable (List.Forall₂ _ phrase text))

/-- Whether a text falls into the parts before and after an occurrence of `phrase`, the first of
those that have at least `start` characters before them. -/
structure Divides (phrase : Text) (start : Nat) (text before after : Text) : Prop where
  occurs : ∃ middle, IsWritten phrase middle ∧ text = before ++ middle ++ after
  start_le : start ≤ before.length
  first : ∀ earlier middle later, IsWritten phrase middle → text = earlier ++ middle ++ later →
    start ≤ earlier.length → before.length ≤ earlier.length

/-- Whether folding takes each letter of a phrase to itself and none but its own forms to it. The
letter k is left out because the Kelvin sign folds to it. -/
def IsFixed (phrase : Text) : Prop :=
  phrase.map foldCase = phrase ∧ 'k' ∉ phrase

instance (phrase : Text) : Decidable (IsFixed phrase) :=
  inferInstanceAs (Decidable (_ ∧ _))

theorem toNat_toLower (c : Char) :
    c.toLower.toNat = if 65 ≤ c.toNat ∧ c.toNat ≤ 90 then c.toNat + 32 else c.toNat := by
  have hcapital : (c.val ≥ 'A'.val ∧ c.val ≤ 'Z'.val) ↔ 65 ≤ c.toNat ∧ c.toNat ≤ 90 := Iff.rfl
  delta Char.toLower
  split_ifs with h h' h'
  · have hsum : (c.val + 32).toNat = c.toNat + 32 := by
      rw [UInt32.toNat_add]
      exact Nat.mod_eq_of_lt (by show c.toNat + 32 < 2 ^ 32; omega)
    exact hsum
  · exact absurd (hcapital.mp h) h'
  · exact absurd (hcapital.mpr h') h
  · rfl

theorem foldCase_eq_toLower {c : Char} (hs : c ≠ 'ſ') (hkelvin : c ≠ '\u212a') :
    foldCase c = c.toLower := by
  apply Char.toNat_inj.mp
  rw [toNat_toLower, foldCase, if_neg hs, if_neg hkelvin]
  split_ifs with h h' h'
  · exact toNat_ofNat (Or.inl (by omega))
  · exact absurd h h'
  · exact absurd h' h
  · rfl

theorem foldCase_eq_iff {p c : Char} (hp : foldCase p = p) (hk : p ≠ 'k') :
    foldCase c = p ↔ c.toLower = p ∨ p = 's' ∧ c = 'ſ' := by
  by_cases hs : c = 'ſ'
  · subst hs
    constructor
    · exact fun h => .inr ⟨h.symm, rfl⟩
    · rintro (rfl | ⟨rfl, -⟩)
      · exact absurd hp (by decide)
      · rfl
  · by_cases hkelvin : c = '\u212a'
    · subst hkelvin
      constructor
      · exact fun h => absurd h.symm hk
      · rintro (rfl | ⟨-, h⟩)
        · exact absurd hp (by decide)
        · exact absurd h hs
    · rw [foldCase_eq_toLower hs hkelvin]
      simp [hs]

theorem toLower_eq_space_iff {c : Char} : c.toLower = ' ' ↔ c = ' ' := by
  rw [← Char.toNat_inj, ← Char.toNat_inj, toNat_toLower]
  show _ = 32 ↔ _ = 32
  split_ifs <;> omega

/-- Only an s has a form besides the two letter cases. -/
theorem isWritten_iff_map_toLower {phrase text : Text} (h : 's' ∉ phrase) :
    IsWritten phrase text ↔ text.map Char.toLower = phrase := by
  induction phrase generalizing text with
  | nil => simp [IsWritten]
  | cons p phrase ih =>
    rw [List.mem_cons, not_or] at h
    cases text with
    | nil => simp [IsWritten]
    | cons c text =>
      have hletter : (c.toLower = p ∨ p = 's' ∧ c = 'ſ') ↔ c.toLower = p :=
        or_iff_left fun hs => h.1 hs.1.symm
      rw [IsWritten, List.forall₂_cons, hletter, List.map_cons, List.cons.injEq]
      exact and_congr_right' (ih h.2)

/-- A space at the end of a phrase is written as it is. -/
theorem IsWritten.eq_append_space (phrase : Text) {text : Text}
    (h : IsWritten (phrase ++ [' ']) text) : ∃ front, text = front ++ [' '] := by
  induction phrase generalizing text with
  | nil =>
    obtain ⟨c, rest, hc, hrest, rfl⟩ := List.forall₂_cons_left_iff.mp h
    rw [List.forall₂_nil_left_iff.mp hrest]
    have hspace : c = ' ' := toLower_eq_space_iff.mp (hc.resolve_right (by simp))
    exact ⟨[], by rw [hspace]; rfl⟩
  | cons p phrase ih =>
    obtain ⟨c, rest, -, hrest, rfl⟩ := List.forall₂_cons_left_iff.mp h
    obtain ⟨front, rfl⟩ := ih hrest
    exact ⟨c :: front, rfl⟩

section Fixed
variable {phrase : Text}

theorem map_foldCase_eq_iff (h : IsFixed phrase) {text : Text} :
    text.map foldCase = phrase ↔ IsWritten phrase text := by
  obtain ⟨hfold, hk⟩ := h
  induction phrase generalizing text with
  | nil => simp [IsWritten]
  | cons p phrase ih =>
    rw [List.map_cons, List.cons.injEq] at hfold
    rw [List.mem_cons, not_or] at hk
    cases text with
    | nil => simp [IsWritten]
    | cons c text =>
      rw [List.map_cons, List.cons.injEq, foldCase_eq_iff hfold.1 (Ne.symm hk.1),
        ih hfold.2 hk.2, IsWritten, IsWritten, List.forall₂_cons]

theorem afterPhrase?_eq_some_iff_isWritten (h : IsFixed phrase) {text rest : Text} :
    afterPhrase? phrase text = some rest ↔
      ∃ opening, IsWritten phrase opening ∧ text = opening ++ rest := by
  simp only [afterPhrase?_eq_some_iff, map_foldCase_eq_iff h, and_comm]

theorem beforePhrase?_eq_some_iff_isWritten (h : IsFixed phrase) {text before : Text} :
    beforePhrase? phrase text = some before ↔
      ∃ closing, IsWritten phrase closing ∧ text = before ++ closing := by
  simp only [beforePhrase?_eq_some_iff, map_foldCase_eq_iff h, and_comm]

theorem splitAtPhrase?_eq_some_iff_divides (h : IsFixed phrase) {text before after : Text} :
    splitAtPhrase? phrase text = some (before, after) ↔ Divides phrase 0 text before after := by
  simp only [splitAtPhrase?_eq_some_iff, afterPhrase?_eq_some_iff_isWritten h, unmet_iff,
    map_foldCase_eq_iff h]
  constructor
  · rintro ⟨_, rfl, ⟨middle, hmiddle, rfl⟩, hfirst⟩
    refine ⟨⟨middle, hmiddle, (List.append_assoc _ _ _).symm⟩, Nat.zero_le _, ?_⟩
    intro earlier again later hagain htext _
    exact hfirst earlier again later htext hagain
  · rintro ⟨⟨middle, hmiddle, rfl⟩, -, hfirst⟩
    refine ⟨middle ++ after, List.append_assoc _ _ _, ⟨middle, hmiddle, rfl⟩, ?_⟩
    intro earlier again later htext hagain
    exact hfirst earlier again later hagain (by rw [← htext, List.append_assoc]) (Nat.zero_le _)

end Fixed

/-- Dividing behind the first character is dividing what stands behind it. -/
theorem divides_cons_iff {phrase text before after : Text} {start : Nat} {c : Char} :
    Divides phrase (start + 1) (c :: text) before after ↔
      ∃ back, before = c :: back ∧ Divides phrase start text back after := by
  constructor
  · rintro ⟨⟨middle, hmiddle, htext⟩, hstart, hfirst⟩
    cases before with
    | nil => simp at hstart
    | cons d back =>
      rw [List.cons_append, List.cons_append, List.cons.injEq] at htext
      obtain ⟨rfl, rfl⟩ := htext
      refine ⟨back, rfl, ⟨middle, hmiddle, rfl⟩, Nat.le_of_succ_le_succ hstart, ?_⟩
      intro earlier again later hagain htext hle
      have hlength := hfirst (c :: earlier) again later hagain (by rw [htext]; rfl)
        (Nat.succ_le_succ hle)
      exact Nat.le_of_succ_le_succ hlength
  · rintro ⟨back, rfl, ⟨⟨middle, hmiddle, rfl⟩, hstart, hfirst⟩⟩
    refine ⟨⟨middle, hmiddle, rfl⟩, Nat.succ_le_succ hstart, ?_⟩
    intro earlier again later hagain htext hle
    cases earlier with
    | nil => simp at hle
    | cons d earlier =>
      rw [List.cons_append, List.cons_append, List.cons.injEq] at htext
      exact Nat.succ_le_succ
        (hfirst earlier again later hagain htext.2 (Nat.le_of_succ_le_succ hle))

theorem Divides.text_ne_nil {phrase text before after : Text} {start : Nat}
    (h : Divides phrase (start + 1) text before after) : text ≠ [] := by
  obtain ⟨middle, -, rfl⟩ := h.occurs
  have hlength := h.start_le
  intro hnil
  simp only [List.append_eq_nil_iff] at hnil
  rw [hnil.1.1] at hlength
  exact absurd hlength (by simp)

end CampaignScript.Text
