import CampaignScript.Proofs.Campaign.Grammar
import CampaignScript.Proofs.Reading.Frame
import CampaignScript.Proofs.Time.WaitTime

/-! The arithmetic of waiting times. A time is read exactly where amount and unit are good and the
product of the two stays within the limit. Otherwise the amount, the unit or both are reported, each
once at most. -/
namespace CampaignScript

namespace WaitTime

section Read
variable {line : Line} {amount unit : Text}

theorem forall_not_isUnit_iff : (∀ k, ¬ WaitUnit.IsUnit unit k) ↔ WaitUnit.ofName? unit = none := by
  simp only [WaitUnit.isUnit_iff, Option.eq_none_iff_forall_ne_some, Ne, not_exists, not_and]
  constructor
  · exact fun h found hfound => h _ found hfound rfl
  · exact fun h _ found hfound _ => h found hfound

theorem value_read_eq_some_iff {m : Nat} :
    (WaitTime.read line amount unit).value = some m ↔
      ∃ n k, IsAmount amount n ∧ WaitUnit.IsUnit unit k ∧ m = n * k ∧ n * k < 2 ^ 32 := by
  simp only [value_read, Option.bind_eq_some_iff, amount?_eq_some_iff, bounded?_eq_some_iff,
    limit_eq, WaitUnit.isUnit_iff]
  constructor
  · rintro ⟨n, hn, found, hfound, rfl, hlt⟩
    exact ⟨n, found.minutes, hn, ⟨found, hfound, rfl⟩, rfl, hlt⟩
  · rintro ⟨n, _, hn, ⟨found, hfound, rfl⟩, rfl, hlt⟩
    exact ⟨n, hn, found, hfound, rfl, hlt⟩

/-- The amount and the unit are reported in that order, each once at most. -/
theorem added_read_sublist :
    (WaitTime.read line amount unit).added.Sublist
      [{ line, cause := .waitAmount amount }, { line, cause := .waitUnit unit }] := by
  rw [added_read]
  split
  · split
    · exact .cons_cons _ (List.nil_sublist _)
    · exact List.nil_sublist _
  · exact .cons _ (.refl _)
  · exact .cons_cons _ (List.nil_sublist _)
  · exact .refl _

theorem waitAmount_mem_added_iff :
    { line, cause := .waitAmount amount } ∈ (WaitTime.read line amount unit).added ↔
      (∀ n, ¬ IsAmount amount n) ∨
        ∃ n k, IsAmount amount n ∧ WaitUnit.IsUnit unit k ∧ 2 ^ 32 ≤ n * k := by
  simp only [← amount?_eq_some_iff, WaitUnit.isUnit_iff, added_read]
  rcases amount? amount with _ | n
  · cases WaitUnit.ofName? unit <;> simp
  · rcases WaitUnit.ofName? unit with _ | found
    · simp
    · simp [bounded?_eq_none_iff]

theorem waitUnit_mem_added_iff :
    { line, cause := .waitUnit unit } ∈ (WaitTime.read line amount unit).added ↔
      ∀ k, ¬ WaitUnit.IsUnit unit k := by
  rw [forall_not_isUnit_iff, added_read]
  rcases amount? amount with _ | n
  · cases WaitUnit.ofName? unit <;> simp
  · rcases WaitUnit.ofName? unit with _ | found
    · simp
    · simp

theorem added_read_eq_nil_iff :
    (WaitTime.read line amount unit).added = [] ↔
      (WaitTime.read line amount unit).value ≠ none := by
  rw [value_read, added_read]
  rcases amount? amount with _ | n
  · cases WaitUnit.ofName? unit <;> simp
  · rcases WaitUnit.ofName? unit with _ | found
    · simp
    · cases hbounded : bounded? (n * found.minutes) <;> simp [hbounded]

end Read

end WaitTime

/-- A waiting time is the product of its amount and its unit, or it is absent and told why. -/
theorem Step.wait_arithmetic (entry : Entry) {amount unit : Text}
    (hfeed : '\n' ∉ entry.line.text)
    (h : StepSentence.Says entry.line.text (.wait amount unit)) (found : List Problem) :
    ∃ minutes problems,
      (Step.read entry).run found = (.wait minutes, found ++ problems) ∧
      (∀ m, minutes = some m ↔ ∃ n k, WaitTime.IsAmount amount n ∧ WaitUnit.IsUnit unit k ∧
        m = n * k ∧ n * k < 2 ^ 32) ∧
      problems.Sublist
        [{ line := entry.line, cause := .waitAmount amount },
          { line := entry.line, cause := .waitUnit unit }] ∧
      ({ line := entry.line, cause := .waitAmount amount } ∈ problems ↔
        (∀ n, ¬ WaitTime.IsAmount amount n) ∨
          ∃ n k, WaitTime.IsAmount amount n ∧ WaitUnit.IsUnit unit k ∧ 2 ^ 32 ≤ n * k) ∧
      ({ line := entry.line, cause := .waitUnit unit } ∈ problems ↔
        ∀ k, ¬ WaitUnit.IsUnit unit k) ∧
      (problems = [] ↔ minutes ≠ none) := by
  have hsentence := StepSentence.ofText?_eq_some_iff.mpr ⟨hfeed, h⟩
  refine ⟨(WaitTime.read entry.line amount unit).value,
    (WaitTime.read entry.line amount unit).added, ?_, fun m => WaitTime.value_read_eq_some_iff,
    WaitTime.added_read_sublist, WaitTime.waitAmount_mem_added_iff,
    WaitTime.waitUnit_mem_added_iff, WaitTime.added_read_eq_nil_iff⟩
  rw [appends_read entry found, value_read, added_read, hsentence]

/-- Two amounts on either side of the limit, the one with leading zeros and a fraction. -/
theorem Step.wait_arithmetic_at_limit :
    let within : Entry :=
      { line := { number := 2, raw := "Wait for +0071582788.5 Hours".toList }, nested := .empty }
    let past : Entry :=
      { line := { number := 3, raw := "wait for 71582789 hours".toList }, nested := .empty }
    (Step.read within).run [] = (.wait (some 4294967280), []) ∧
      ∃ problems, (Step.read past).run [] = (.wait none, problems) ∧
        { line := past.line, cause := .waitAmount "71582789".toList } ∈ problems ∧
        { line := past.line, cause := .waitUnit "hours".toList } ∉ problems := by
  intro within past
  obtain ⟨hfeed, hsays⟩ := StepSentence.ofText?_eq_some_iff.mp
    (show StepSentence.ofText? within.line.text =
        some (.wait "+0071582788.5".toList "Hours".toList) by decide +kernel)
  obtain ⟨hfeed', hsays'⟩ := StepSentence.ofText?_eq_some_iff.mp
    (show StepSentence.ofText? past.line.text =
        some (.wait "71582789".toList "hours".toList) by decide +kernel)
  have hwithin : WaitTime.IsAmount "+0071582788.5".toList 71582788 :=
    WaitTime.amount?_eq_some_iff.mp (by decide +kernel)
  have hpast : WaitTime.IsAmount "71582789".toList 71582789 :=
    WaitTime.amount?_eq_some_iff.mp (by decide +kernel)
  have hhours : WaitUnit.IsUnit "hours".toList 60 := by decide
  refine ⟨?_, ?_⟩
  · obtain ⟨minutes, problems, hrun, hvalue, -, -, -, hnil⟩ := wait_arithmetic within hfeed hsays []
    have hminutes : minutes = some 4294967280 :=
      (hvalue _).mpr ⟨71582788, 60, hwithin, by decide, rfl, by decide⟩
    have hproblems : problems = [] := hnil.mpr (by simp [hminutes])
    rw [hrun, hminutes, hproblems]
    rfl
  · obtain ⟨minutes, problems, hrun, -, -, hamount, hunit, hnil⟩ :=
      wait_arithmetic past hfeed' hsays' []
    have hmem := hamount.mpr (.inr ⟨71582789, 60, hpast, hhours, by decide⟩)
    have hnone : minutes = none := by
      by_contra hsome
      rw [hnil.mpr hsome] at hmem
      exact absurd hmem List.not_mem_nil
    exact ⟨problems, by rw [hrun, hnone]; rfl, hmem, fun h => hunit.mp h 60 hhours⟩

end CampaignScript
