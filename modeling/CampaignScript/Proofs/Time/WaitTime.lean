import CampaignScript.Proofs.Text.LetterCase
import CampaignScript.Proofs.Time.Spelling
import Mathlib.Algebra.Group.Nat.Defs

/-! What stands for the amount and for the unit of a waiting time. An amount is told by all the
digits at its start, however many, and what follows them does not matter. -/
namespace CampaignScript

open Text

/-- Whether `digits` are the digits that a text starts with: one at least, and all there are. -/
structure Text.Opens (digits text : Text) : Prop where
  ne_nil : digits ≠ []
  isDigit : ∀ c ∈ digits, c.isDigit = true
  ends : ∃ rest : Text, text = digits ++ rest ∧ ∀ c ∈ rest.head?, c.isDigit = false

theorem Text.opens_iff {digits text : Text} :
    Opens digits text ↔ digits ≠ [] ∧ text.takeWhile Char.isDigit = digits := by
  constructor
  · rintro ⟨hne, hdigits, rest, rfl, hrest⟩
    have hend : rest.takeWhile Char.isDigit = [] := by
      cases rest with
      | nil => rfl
      | cons c rest => exact List.takeWhile_cons_of_neg (by simp [hrest c rfl])
    refine ⟨hne, ?_⟩
    rw [List.takeWhile_append_of_pos hdigits, hend, List.append_nil]
  · rintro ⟨hne, rfl⟩
    refine ⟨hne, fun c hc => List.mem_takeWhile_imp hc, text.dropWhile Char.isDigit,
      List.takeWhile_append_dropWhile.symm, fun c hc => ?_⟩
    have hhead := List.head?_dropWhile_not Char.isDigit text
    rw [Option.mem_def.mp hc] at hhead
    exact hhead

theorem Text.Opens.isDigit_head {digits rest : Text} {c : Char} (h : Opens digits (c :: rest)) :
    c.isDigit = true := by
  obtain ⟨hne, hdigits, tail, htext, -⟩ := h
  obtain ⟨d, digits, rfl⟩ := List.exists_cons_of_ne_nil hne
  rw [List.cons_append, List.cons.injEq] at htext
  exact htext.1 ▸ hdigits d List.mem_cons_self

namespace WaitTime

/-- Whether a text stands for the amount `n`: a number below the thirty-second power of two, with a
sign in front of it or without one. No amount but zero is negative. -/
def IsAmount (text : Text) (n : Nat) : Prop :=
  ∃ sign number digits : Text, text = sign ++ number ∧ sign ∈ [[], ['+'], ['-']] ∧
    Opens digits number ∧ Nat.ofDigitChars 10 digits 0 = n ∧ n < 2 ^ 32 ∧ (sign = ['-'] → n = 0)

theorem limit_eq : limit = 2 ^ 32 := rfl

theorem bounded?_eq_none_iff {n : Nat} : bounded? n = none ↔ 2 ^ 32 ≤ n := by
  rw [bounded?, limit_eq]
  split_ifs with h
  · exact iff_of_false (by simp) (Nat.not_le_of_lt h)
  · exact iff_of_true rfl (Nat.le_of_not_lt h)

theorem leadingNumber?_eq_some_iff {text : Text} {n : Nat} :
    leadingNumber? text = some n ↔
      ∃ digits, Opens digits text ∧ Nat.ofDigitChars 10 digits 0 = n ∧ n < 2 ^ 32 := by
  have hall : (text.takeWhile Char.isDigit).all Char.isDigit = true := List.all_takeWhile
  simp only [leadingNumber?, number?, hall, and_true, Option.bind_eq_some_iff,
    Option.ite_none_right_eq_some, Option.some.injEq, bounded?_eq_some_iff, limit_eq, opens_iff]
  constructor
  · rintro ⟨_, ⟨hne, rfl⟩, rfl, hlt⟩
    exact ⟨_, ⟨hne, rfl⟩, rfl, hlt⟩
  · rintro ⟨_, ⟨hne, rfl⟩, rfl, hlt⟩
    exact ⟨_, ⟨hne, rfl⟩, rfl, hlt⟩

theorem amount?_eq_some_iff {text : Text} {n : Nat} : amount? text = some n ↔ IsAmount text n := by
  have hminus : '-'.isDigit = false := by decide
  have hplus : '+'.isDigit = false := by decide
  constructor
  · fun_cases amount? text with
    | case1 text =>
      rw [Option.filter_eq_some_iff, leadingNumber?_eq_some_iff, beq_iff_eq]
      rintro ⟨⟨digits, hopens, hn, hlt⟩, hzero⟩
      exact ⟨['-'], text, digits, rfl, by decide, hopens, hn, hlt, fun _ => hzero⟩
    | case2 text =>
      rw [leadingNumber?_eq_some_iff]
      rintro ⟨digits, hopens, hn, hlt⟩
      exact ⟨['+'], text, digits, rfl, by decide, hopens, hn, hlt, fun h => by simp at h⟩
    | case3 =>
      rw [leadingNumber?_eq_some_iff]
      rintro ⟨digits, hopens, hn, hlt⟩
      exact ⟨[], text, digits, rfl, by decide, hopens, hn, hlt, fun h => by simp at h⟩
  · rintro ⟨sign, number, digits, rfl, hsign, hopens, hn, hlt, hzero⟩
    have hnumber := leadingNumber?_eq_some_iff.mpr ⟨digits, hopens, hn, hlt⟩
    simp only [List.mem_cons, List.not_mem_nil, or_false] at hsign
    rcases hsign with rfl | rfl | rfl
    · -- A text that starts with a digit starts with no sign.
      rw [List.nil_append, amount?, hnumber]
      · rintro text rfl
        exact absurd hopens.isDigit_head (by simp [hminus])
      · rintro text rfl
        exact absurd hopens.isDigit_head (by simp [hplus])
    · exact hnumber
    · exact Option.filter_eq_some_iff.mpr ⟨hnumber, by rw [hzero rfl]; rfl⟩

end WaitTime

namespace WaitUnit

/-- The names of the units in small letters, each with the minutes in one of the unit. -/
def table : List (Text × Nat) :=
  [("minute".toList, 1), ("minutes".toList, 1), ("mins".toList, 1), ("hour".toList, 60),
    ("hours".toList, 60), ("day".toList, 1440), ("days".toList, 1440)]

/-- Whether a text is the name of a unit of `k` minutes in any case of its letters. -/
def IsUnit (text : Text) (k : Nat) : Prop :=
  (text.map Char.toLower, k) ∈ table

instance (text : Text) (k : Nat) : Decidable (IsUnit text k) :=
  inferInstanceAs (Decidable (_ ∈ table))

theorem mem_table_iff {name : Text} {k : Nat} :
    (name, k) ∈ table ↔ ∃ unit : WaitUnit, name ∈ unit.names ∧ unit.minutes = k := by
  have htable : table = all.flatMap fun unit => unit.names.map fun name => (name, unit.minutes) :=
    rfl
  simp only [htable, List.mem_flatMap, List.mem_map, Prod.mk.injEq]
  constructor
  · rintro ⟨unit, -, _, hname, rfl, hk⟩
    exact ⟨unit, hname, hk⟩
  · rintro ⟨unit, hname, hk⟩
    exact ⟨unit, by cases unit <;> decide, name, hname, rfl, hk⟩

theorem isWord_of_mem_names {unit : WaitUnit} {name : Text} (h : name ∈ unit.names) :
    IsWord name := by
  have hwords : ∀ name ∈ unit.names, IsWord name := by
    cases unit <;> decide
  exact hwords name h

/-- No two units share a name. -/
theorem find?_names {unit : WaitUnit} {name : Text} (h : name ∈ unit.names) :
    (all.find? fun unit => unit.names.contains name) = some unit := by
  have hfind : ∀ name ∈ unit.names,
      (all.find? fun unit => unit.names.contains name) = some unit := by
    cases unit <;> decide
  exact hfind name h

theorem lowercase_mem_names_iff {text : Text} {unit : WaitUnit} :
    text.lowercase ∈ unit.names ↔ text.map Char.toLower ∈ unit.names := by
  constructor
  · intro h
    have hword := isWord_of_mem_names h
    rwa [(lowercase_eq_iff hword).mp rfl]
  · intro h
    have hword := isWord_of_mem_names h
    rwa [(lowercase_eq_iff hword).mpr rfl]

theorem ofName?_eq_some_iff {text : Text} {unit : WaitUnit} :
    ofName? text = some unit ↔ text.map Char.toLower ∈ unit.names := by
  rw [← lowercase_mem_names_iff]
  constructor
  · intro h
    rw [ofName?] at h
    have hcontains := List.find?_some h
    exact List.contains_iff_mem.mp hcontains
  · exact find?_names

theorem isUnit_iff {text : Text} {k : Nat} :
    IsUnit text k ↔ ∃ unit, ofName? text = some unit ∧ unit.minutes = k := by
  simp only [IsUnit, mem_table_iff, ofName?_eq_some_iff]

end WaitUnit

end CampaignScript
