import CampaignScript.Proofs.Text.Lowercase
import CampaignScript.Proofs.Text.Wording

/-! English words in any letter case. A text that gives an English word in lower case is that word
but for the case of ASCII letters, since no other character has a small form among its letters. The
letter k stands apart: it is the small form of the Kelvin sign too. -/
namespace CampaignScript.Text

/-- Whether a text consists of small letters other than k. -/
def IsWord (text : Text) : Prop :=
  ∀ c ∈ text, 0x61 ≤ c.toNat ∧ c.toNat ≤ 0x7A ∧ c.toNat ≠ 0x6B

instance (text : Text) : Decidable (IsWord text) :=
  List.decidableBAll _ text

/-- The run of the capitals of ASCII is the first of the table. -/
theorem capitalRuns_eq_cons : capitalRuns = ⟨0x41, 0x5A, 1, 0x61⟩ :: capitalRuns.tail := rfl

/-- The capitals of the other runs lie behind the letters of ASCII, and only the small letter of the
Kelvin sign is one of those. -/
private theorem capitalRuns_tail :
    (capitalRuns.tail.all fun run =>
      Nat.blt 0x7A run.first && run.smallOutside (0x61, 0x6A) && run.smallOutside (0x6C, 0x7A)) =
        true := by
  decide +kernel

theorem lowerChar_of_capital {c : Char} (h : 0x41 ≤ c.toNat ∧ c.toNat ≤ 0x5A) :
    lowerChar c = c.toLower := by
  have hsmall : CapitalRun.small? ⟨0x41, 0x5A, 1, 0x61⟩ c.toNat = some (c.toNat + 32) := by
    refine CapitalRun.small?_eq_some_iff.mpr ⟨⟨h.1, h.2, Nat.mod_one _⟩, ?_⟩
    show c.toNat + 32 = 0x61 + (c.toNat - 0x41)
    omega
  rw [lowerChar, capitalRuns_eq_cons, List.findSome?_cons, hsmall]
  apply Char.toNat_inj.mp
  rw [toNat_toLower, if_pos h]
  exact toNat_ofNat (Or.inl (by omega))

/-- A character that is no capital of ASCII is its own small form, or it lies behind the letters of
ASCII and so does its small form, or that is a k. -/
theorem lowerChar_of_not_capital {c : Char} (h : ¬ (0x41 ≤ c.toNat ∧ c.toNat ≤ 0x5A)) :
    lowerChar c = c ∨ 0x7A < c.toNat ∧ ∀ word, IsWord word → lowerChar c ∉ word := by
  have hfirst : CapitalRun.small? ⟨0x41, 0x5A, 1, 0x61⟩ c.toNat = none :=
    if_neg fun hrun => h ⟨hrun.1, hrun.2.1⟩
  rcases hfind : capitalRuns.findSome? fun run => run.small? c.toNat with _ | small
  · exact .inl (by rw [lowerChar, hfind])
  · have htail : capitalRuns.tail.findSome? (fun run => run.small? c.toNat) = some small := by
      rwa [capitalRuns_eq_cons, List.findSome?_cons, hfirst] at hfind
    obtain ⟨run, hrun, hsmall⟩ := List.exists_of_findSome?_eq_some htail
    have hcheck := List.all_eq_true.mp capitalRuns_tail run hrun
    simp only [Bool.and_eq_true, Nat.blt_eq] at hcheck
    obtain ⟨⟨hbehind, hbefore⟩, hafter⟩ := hcheck
    obtain ⟨⟨hle, -⟩, -⟩ := CapitalRun.small?_eq_some_iff.mp hsmall
    refine .inr ⟨by omega, fun word hword hmem => ?_⟩
    have hvalid := isSmall_of_small? (List.mem_of_mem_tail hrun) hsmall
    have htoNat : (lowerChar c).toNat = small := by
      rw [lowerChar, hfind]
      exact toNat_ofNat hvalid.isValidChar
    have hletter := hword _ hmem
    have hbefore := CapitalRun.smallOutside_small? hsmall hbefore
    have hafter := CapitalRun.smallOutside_small? hsmall hafter
    rw [htoNat] at hletter
    simp only at hbefore hafter
    omega

section Word
variable {word : Text}

theorem lowerChar_eq_iff (hword : IsWord word) {w : Char} (hw : w ∈ word) {c : Char} :
    lowerChar c = w ↔ c.toLower = w := by
  by_cases hcapital : 0x41 ≤ c.toNat ∧ c.toNat ≤ 0x5A
  · rw [lowerChar_of_capital hcapital]
  · have hlower : c.toLower = c := by
      apply Char.toNat_inj.mp
      rw [toNat_toLower, if_neg hcapital]
    rw [hlower]
    rcases lowerChar_of_not_capital hcapital with hself | ⟨hbehind, hnot⟩
    · rw [hself]
    · constructor
      · rintro rfl
        exact absurd hw (hnot word hword)
      · rintro rfl
        exact absurd (hword c hw).2.1 (by omega)

/-- The two capitals outside of the table give letters that no English word has. -/
theorem exists_mem_lowerBetween {c : Char} (h : c = 'Σ' ∨ c = 'İ') (before after : Text) :
    ∃ d ∈ lowerBetween before c after, 0x7A < d.toNat := by
  rcases h with rfl | rfl
  · rw [lowerBetween, if_pos rfl]
    split_ifs
    · exact ⟨'ς', List.mem_singleton_self _, by decide⟩
    · exact ⟨'σ', List.mem_singleton_self _, by decide⟩
  · exact ⟨'\u0307', by simp [lowerBetween], by decide⟩

theorem lowercase_go_eq_iff (hword : IsWord word) {before text : Text} :
    lowercase.go before text = word ↔ text.map Char.toLower = word := by
  induction text generalizing before word with
  | nil => rfl
  | cons c text ih =>
    rw [lowercase.go, List.map_cons]
    by_cases hspecial : c = 'Σ' ∨ c = 'İ'
    · -- Neither side gives a word.
      obtain ⟨d, hd, hbehind⟩ := exists_mem_lowerBetween hspecial before text
      have hlower : 0x7A < c.toLower.toNat := by
        rcases hspecial with rfl | rfl <;> decide
      constructor
      · rintro rfl
        exact absurd (hword d (List.mem_append_left _ hd)).2.1 (by omega)
      · rintro rfl
        exact absurd (hword _ List.mem_cons_self).2.1 (by omega)
    · rw [not_or] at hspecial
      rw [lowerBetween, if_neg hspecial.1, if_neg hspecial.2, List.singleton_append]
      cases word with
      | nil => simp
      | cons w word =>
        rw [List.cons.injEq, List.cons.injEq, lowerChar_eq_iff hword List.mem_cons_self,
          ih fun d hd => hword d (List.mem_cons_of_mem w hd)]

/-- A text is an English word in lower case if it is one in small letters of ASCII. -/
theorem lowercase_eq_iff (hword : IsWord word) {text : Text} :
    text.lowercase = word ↔ text.map Char.toLower = word :=
  lowercase_go_eq_iff hword

end Word

end CampaignScript.Text
