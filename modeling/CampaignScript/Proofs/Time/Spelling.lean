import CampaignScript.Proofs.Text.Enumeration
import CampaignScript.Proofs.Time.Clock
import CampaignScript.Time.WaitTime

/-! Days, times of day and waiting times are read as they were written, and those that are read can
be written. -/
namespace CampaignScript

open Text

theorem isItem_numeral (n : Nat) : Enumeration.IsItem (numeral n) :=
  ⟨numeral_ne_nil n, notMem_numeral rfl n, fun _ h => isSpace_of_isDigit (isDigit_of_mem_numeral h)⟩

namespace Weekday

theorem isItem_name (day : Weekday) : Enumeration.IsItem day.name := by
  cases day <;> decide

theorem ofName?_name (day : Weekday) : ofName? day.name = some day := by
  cases day <;> decide +kernel

theorem ofEnumeration_spell {days : List Weekday} (h : days ≠ []) :
    ofEnumeration (Enumeration.spell (days.map name)) = .ok days :=
  Enumeration.read_spell h (fun day _ => isItem_name day) fun day _ => ofName?_name day

private theorem unmet_flatMap (days : List Weekday) (text : Text) :
    Unmet " at ".toList ((days.map name).flatMap fun name => ',' :: ' ' :: name) text := by
  induction days with
  | nil => exact .nil _ text
  | cons day days ih =>
    rw [List.map_cons, List.flatMap_cons, List.cons_append, List.cons_append]
    have hday := unmet_of_space_notMem (isItem_name day).space_notMem
    refine unmet_cons_iff.mpr ⟨rfl, unmet_cons_iff.mpr ⟨?_, (hday _ _).append ih⟩⟩
    cases day <;> rfl

/-- No day begins like the words that divide days from times. -/
theorem unmet_spell (days : List Weekday) (text : Text) :
    Unmet " at ".toList (Enumeration.spell (days.map name)) text := by
  cases days with
  | nil => exact .nil _ text
  | cons day days =>
    rw [List.map_cons, Enumeration.spell_cons]
    have hday := unmet_of_space_notMem (isItem_name day).space_notMem
    exact (hday _ _).append (unmet_flatMap days text)

theorem ne_nil_of_ofEnumeration {text : Text} {days : List Weekday}
    (h : ofEnumeration text = .ok days) : days ≠ [] :=
  (Enumeration.read_eq_ok_iff.mp h).1

end Weekday

namespace TimeOfDay

/-- Whether a clock shows the time. -/
def IsShown (time : TimeOfDay) : Prop :=
  time.hour ≤ 24 ∧ time.minute ≤ 59

theorem isItem_clock (hour minute : Nat) {half : Text} (h : Enumeration.IsItem half) :
    Enumeration.IsItem (numeral hour ++ '.' :: numeral minute ++ half) := by
  have hpoint : Enumeration.IsItem ['.'] := by decide
  exact ((isItem_numeral hour).append (hpoint.append (isItem_numeral minute))).append h

theorem isItem_spell (time : TimeOfDay) : Enumeration.IsItem time.spell := by
  rw [spell]
  split
  · exact isItem_clock _ _ (by decide)
  · exact isItem_clock _ _ (by decide)

theorem isFace_numerals {hour minute : Nat} (hhour : hour ≤ 12) (hminute : minute ≤ 59) :
    IsFace (numeral hour ++ '.' :: numeral minute) hour minute :=
  ⟨.inr ⟨_, _, rfl, isNumeral_numeral hour, isNumeral_numeral minute⟩, hhour, hminute⟩

theorem ofText?_spell {time : TimeOfDay} (h : time.IsShown) : ofText? time.spell = some time := by
  obtain ⟨hhour, hminute⟩ := h
  rw [ofText?_eq_some_iff, spell]
  split_ifs with hnoon
  · have hface : time.hour ≤ 12 := by omega
    have hmidnight : time.hour ≠ 12 := by omega
    exact ⟨_, _, _, rfl, isFace_numerals hface hminute, .inl ⟨rfl, (if_neg hmidnight).symm⟩⟩
  · have hface : time.hour - 12 ≤ 12 := by omega
    have hback : time.hour = time.hour - 12 + 12 := by omega
    exact ⟨_, _, _, rfl, isFace_numerals hface hminute, .inr ⟨rfl, hback⟩⟩

theorem isShown_of_ofText? {text : Text} {time : TimeOfDay} (h : ofText? text = some time) :
    time.IsShown :=
  bounds_of_ofText? h

theorem ofEnumeration_spell {times : List TimeOfDay} (hne : times ≠ [])
    (h : ∀ time ∈ times, time.IsShown) :
    ofEnumeration (Enumeration.spell (times.map spell)) = .ok times :=
  Enumeration.read_spell hne (fun time _ => isItem_spell time)
    fun time htime => ofText?_spell (h time htime)

theorem isShown_of_ofEnumeration {text : Text} {times : List TimeOfDay}
    (h : ofEnumeration text = .ok times) : times ≠ [] ∧ ∀ time ∈ times, time.IsShown := by
  obtain ⟨hne, hread⟩ := Enumeration.read_eq_ok_iff.mp h
  refine ⟨hne, fun time htime => ?_⟩
  have hmem : some time ∈ times.map some := List.mem_map_of_mem htime
  rw [← hread] at hmem
  obtain ⟨item, -, hitem⟩ := List.mem_map.mp hmem
  exact isShown_of_ofText? hitem

end TimeOfDay

namespace WaitTime

theorem bounded?_eq_some_iff {n m : Nat} : bounded? n = some m ↔ n = m ∧ m < limit := by
  rw [bounded?, Option.ite_none_right_eq_some, Option.some.injEq, and_comm]
  exact and_congr_right fun h => h ▸ Iff.rfl

theorem leadingNumber?_numeral {minutes : Nat} (h : minutes < limit) :
    leadingNumber? (numeral minutes) = some minutes := by
  rw [leadingNumber?, takeWhile_numeral, number?_numeral]
  exact bounded?_eq_some_iff.mpr ⟨rfl, h⟩

theorem amount?_numeral {minutes : Nat} (h : minutes < limit) :
    amount? (numeral minutes) = some minutes := by
  have hminus : '-' ∉ numeral minutes := notMem_numeral rfl minutes
  have hplus : '+' ∉ numeral minutes := notMem_numeral rfl minutes
  have hnumber := leadingNumber?_numeral h
  rw [amount?, hnumber]
  · rintro text htext
    exact hminus (htext ▸ List.mem_cons_self)
  · rintro text htext
    exact hplus (htext ▸ List.mem_cons_self)

end WaitTime

theorem WaitUnit.ofName?_minutes : WaitUnit.ofName? "minutes".toList = some .minute := by
  decide +kernel

end CampaignScript
