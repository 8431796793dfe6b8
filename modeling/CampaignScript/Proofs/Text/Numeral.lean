import CampaignScript.Proofs.Text.Space
import CampaignScript.Text.Numeral
import Mathlib.Data.List.TakeWhile

/-! Numerals are read as the numbers that they were written for. -/
namespace CampaignScript.Text

theorem numeral_ne_nil (n : Nat) : numeral n ≠ [] :=
  Nat.toDigits_ne_nil

theorem isDigit_of_mem_numeral {c : Char} {n : Nat} (h : c ∈ numeral n) : c.isDigit = true :=
  Nat.isDigit_of_mem_toDigits (by decide) (by decide) h

theorem notMem_numeral {c : Char} (hc : c.isDigit = false) (n : Nat) : c ∉ numeral n := by
  intro h
  rw [isDigit_of_mem_numeral h] at hc
  contradiction

theorem notMem_leftpad_numeral {c : Char} (hdigit : c.isDigit = false) (hspace : c ≠ ' ')
    (width n : Nat) : c ∉ (numeral n).leftpad width ' ' := by
  simp [List.leftpad, notMem_numeral hdigit, hspace]

theorem isSpace_of_isDigit {c : Char} (h : c.isDigit = true) : isSpace c = false := by
  simp only [Char.isDigit, Bool.and_eq_true, decide_eq_true_eq] at h
  have hlow : 48 ≤ c.toNat := h.1
  have hhigh : c.toNat ≤ 57 := h.2
  exact isSpace_of_between (by omega)

/-- Whether a text is one or more digits that stand for `n`. -/
def IsNumeral (digits : Text) (n : Nat) : Prop :=
  digits ≠ [] ∧ (∀ c ∈ digits, c.isDigit = true) ∧ Nat.ofDigitChars 10 digits 0 = n

theorem number?_eq_some_iff {text : Text} {n : Nat} :
    number? text = some n ↔ IsNumeral text n := by
  rw [number?, Option.ite_none_right_eq_some, Option.some.injEq, List.all_eq_true, and_assoc]
  rfl

theorem IsNumeral.notMem {digits : Text} {n : Nat} (h : IsNumeral digits n) {c : Char}
    (hc : c.isDigit = false) : c ∉ digits := by
  intro hmem
  rw [h.2.1 c hmem] at hc
  contradiction

theorem isNumeral_numeral (n : Nat) : IsNumeral (numeral n) n :=
  ⟨numeral_ne_nil n, fun _ => isDigit_of_mem_numeral, Nat.ofDigitChars_ten_toDigits⟩

theorem number?_numeral (n : Nat) : number? (numeral n) = some n :=
  number?_eq_some_iff.mpr (isNumeral_numeral n)

theorem takeWhile_numeral (n : Nat) : (numeral n).takeWhile Char.isDigit = numeral n :=
  List.takeWhile_eq_self_iff.mpr fun _ h => isDigit_of_mem_numeral h

end CampaignScript.Text
