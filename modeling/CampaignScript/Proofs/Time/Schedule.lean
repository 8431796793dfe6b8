import CampaignScript.Proofs.Text.Enumeration
import CampaignScript.Proofs.Text.LetterCase
import CampaignScript.Time.TimeOfDay
import CampaignScript.Time.Weekday

/-! Enumerations of days and of times are read as a whole, or the first item that is no day or no
time is told. A day is told by its English name in any case of its ASCII letters and by nothing
else, so days can be enumerated in any way that a sentence allows. -/
namespace CampaignScript

open Text

namespace Weekday

/-- Whether a text is the English name of a day in any case of its letters. -/
def IsName (text : Text) (day : Weekday) : Prop :=
  text.map Char.toLower = day.name

instance (text : Text) (day : Weekday) : Decidable (IsName text day) :=
  inferInstanceAs (Decidable (_ = _))

theorem isWord_name (day : Weekday) : IsWord day.name := by
  cases day <;> decide

theorem name_ne_nil (day : Weekday) : day.name ≠ [] := by
  cases day <;> decide

/-- No day is called "and". -/
theorem name_ne_and (day : Weekday) : day.name ≠ "and".toList := by
  cases day <;> decide

theorem find?_name (day : Weekday) : (all.find? fun other => other.name == day.name) = some day := by
  cases day <;> decide

theorem lowercase_eq_name_iff {text : Text} {day : Weekday} :
    text.lowercase = day.name ↔ IsName text day :=
  lowercase_eq_iff (isWord_name day)

theorem ofName?_eq_some_iff {text : Text} {day : Weekday} :
    ofName? text = some day ↔ IsName text day := by
  rw [← lowercase_eq_name_iff, ofName?]
  constructor
  · intro h
    have hname := List.find?_some h
    exact (beq_iff_eq.mp hname).symm
  · intro h
    rw [h]
    exact find?_name day

theorem IsName.isItem {text : Text} {day : Weekday} (h : IsName text day) :
    Enumeration.IsItem text := by
  have hletter : ∀ c ∈ text, 0x41 ≤ c.toNat ∧ c.toNat ≤ 0x7A := by
    intro c hc
    have hword := isWord_name day c.toLower (h ▸ List.mem_map_of_mem hc)
    rw [toNat_toLower] at hword
    split_ifs at hword <;> omega
  refine ⟨?_, fun hcomma => absurd (hletter ',' hcomma).1 (by decide), fun c hc => ?_⟩
  · rintro rfl
    exact name_ne_nil day h.symm
  · have hc := hletter c hc
    exact isSpace_of_between (by omega)

theorem IsName.isJoinable {text : Text} {day : Weekday} (h : IsName text day) :
    Enumeration.IsJoinable text := by
  apply Enumeration.IsItem.isJoinable h.isItem
  rintro rfl
  exact name_ne_and day h.symm

/-- Days can be enumerated in any order, more than once, and with any separators between them. -/
theorem ofEnumeration_joined {first : Text} {pairs : List (Text × Text)} {days : List Weekday}
    (hseparators : ∀ pair ∈ pairs, pair.1 ∈ Enumeration.separators)
    (hnames : List.Forall₂ IsName (first :: pairs.map Prod.snd) days) :
    ofEnumeration (first ++ Enumeration.joined pairs) = .ok days := by
  have hjoinable : ∀ item ∈ first :: pairs.map Prod.snd, Enumeration.IsJoinable item :=
    ((List.forall₂_and_left _ _).mp (hnames.imp fun _ _ h => ⟨h.isJoinable, h⟩)).1
  rw [List.forall_mem_cons, List.forall_mem_map] at hjoinable
  have hitems := Enumeration.items_joinable hjoinable.1
    fun pair hpair => ⟨hseparators pair hpair, hjoinable.2 pair hpair⟩
  refine ((Enumeration.isReadAs_read (fun _ _ => ofName?_eq_some_iff) _).ok_iff days).mpr ?_
  rw [hitems]
  exact ⟨List.cons_ne_nil _ _, hnames⟩

end Weekday

/-- A schedule is read item by item: the days by their names, which are all that is a name of a day
in lower case, and the times as they are told. Where an item cannot be read, the first such item is
told, and where there is no item, the text itself. Days are read in whatever way they are joined. -/
theorem Enumeration.schedule_isReadAs (text : Text) :
    IsReadAs Weekday.IsName text (Weekday.ofEnumeration text) ∧
    (∀ item day, Text.lowercase item = Weekday.name day ↔ item.map Char.toLower = day.name) ∧
    IsReadAs (fun item time => TimeOfDay.ofText? item = some time) text
      (TimeOfDay.ofEnumeration text) ∧
    ∀ (first : Text) (pairs : List (Text × Text)) (days : List Weekday),
      (∀ pair ∈ pairs, pair.1 ∈ separators) →
      List.Forall₂ Weekday.IsName (first :: pairs.map Prod.snd) days →
      Weekday.ofEnumeration (first ++ pairs.flatMap fun (separator, item) => separator ++ item) =
        .ok days :=
  ⟨isReadAs_read (fun _ _ => Weekday.ofName?_eq_some_iff) text,
    fun _ _ => Weekday.lowercase_eq_name_iff,
    isReadAs_read (fun _ _ => Iff.rfl) text,
    fun _ _ _ => Weekday.ofEnumeration_joined⟩

/-- A day may come twice. The Kelvin sign and the dotted capital I are in no day's name. -/
theorem Enumeration.schedule_isReadAs_mixed :
    let pairs : List (Text × Text) :=
      [(" and ".toList, "MONDAY".toList), (",".toList, "sunday".toList),
        (", and ".toList, "moNday".toList)]
    let days : List Weekday := [.friday, .monday, .sunday, .monday]
    (∀ pair ∈ pairs, pair.1 ∈ separators) ∧
      List.Forall₂ Weekday.IsName ("Friday".toList :: pairs.map Prod.snd) days ∧
      Weekday.ofEnumeration "Friday and MONDAY,sunday, and moNday".toList = .ok days ∧
      Weekday.ofEnumeration "monday, FRİDAY and someday".toList = .error "FRİDAY".toList ∧
      Weekday.ofEnumeration " , and ".toList = .error ", and".toList ∧
      TimeOfDay.ofEnumeration "9am and noon, 13pm".toList = .error "noon".toList := by
  intro pairs days
  have hseparators : ∀ pair ∈ pairs, pair.1 ∈ separators := by decide +kernel
  have hnames : List.Forall₂ Weekday.IsName ("Friday".toList :: pairs.map Prod.snd) days := by
    decide +kernel
  refine ⟨hseparators, hnames, ?_, ?_, ?_, ?_⟩
  · exact (schedule_isReadAs []).2.2.2 _ pairs days hseparators hnames
  · refine ((schedule_isReadAs _).1.error_iff _).mpr (.inr ?_)
    exact ⟨["monday".toList], ["someday".toList], by decide +kernel,
      by simpa using ⟨Weekday.monday, by decide⟩, fun day => by cases day <;> decide +kernel⟩
  · exact ((schedule_isReadAs _).1.error_iff _).mpr (.inl (by decide +kernel))
  · refine ((schedule_isReadAs _).2.2.1.error_iff _).mpr (.inr ?_)
    exact ⟨["9am".toList], ["13pm".toList], by decide +kernel,
      by simpa using ⟨⟨9, 0⟩, by decide +kernel⟩, fun time => by
        rw [show TimeOfDay.ofText? "noon".toList = none by decide +kernel]; simp⟩

end CampaignScript
