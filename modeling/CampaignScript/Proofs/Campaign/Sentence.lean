import CampaignScript.Proofs.Campaign.Grammar
import CampaignScript.Proofs.Text.Space

/-! The sentences that a text is taken for. Fixed words that are written around free ones are found
in their places again, and what is found between fixed words is a part of the text. -/
namespace CampaignScript

open Text

namespace TriggerSentence

theorem ofText?_event {type : Text} (h : '\n' ∉ type) :
    ofText? ("when a user ".toList ++ type) = some (event type) := by
  have hfeed : '\n' ∉ "when a user ".toList ++ type :=
    List.mem_append.not.mpr (not_or.mpr ⟨by decide, h⟩)
  exact ofText?_eq_some_iff.mpr ⟨hfeed, _, by decide, rfl⟩

theorem ofText?_recurring {days times : Text} (hdays : '\n' ∉ days) (htimes : '\n' ∉ times)
    (hunmet : Unmet " at ".toList days (" at ".toList ++ times)) :
    ofText? ("every ".toList ++ days ++ " at ".toList ++ times) = some (recurring days times) := by
  have hfeed : '\n' ∉ "every ".toList ++ days ++ " at ".toList ++ times := by
    simp only [List.mem_append, not_or]
    exact ⟨⟨⟨by decide, hdays⟩, by decide⟩, htimes⟩
  have hsplit := splitAtPhrase?_append hunmet (afterPhrase?_append rfl times)
  have hdivides := (splitAtPhrase?_eq_some_iff_divides (by decide)).mp hsplit
  refine ofText?_eq_some_iff.mpr ⟨hfeed, "every ".toList, _, by decide, ?_, hdivides⟩
  simp only [List.append_assoc]

theorem ofText?_oneOff {first : Char} {date time : Text} (hdate : '\n' ∉ first :: date)
    (htime : '\n' ∉ time) (hspace : ' ' ∉ date) :
    ofText? ("on ".toList ++ first :: date ++ " at ".toList ++ time) =
      some (oneOff (first :: date) time) := by
  have hfeed : '\n' ∉ "on ".toList ++ first :: date ++ " at ".toList ++ time := by
    simp only [List.mem_append, not_or]
    exact ⟨⟨⟨by decide, hdate⟩, by decide⟩, htime⟩
  have hunmet : Unmet " at ".toList date (" at ".toList ++ time) := unmet_of_space_notMem hspace _ _
  have hsplit := splitAtPhrase?_append hunmet (afterPhrase?_append rfl time)
  have hdivides := (splitAtPhrase?_eq_some_iff_divides (by decide)).mp hsplit
  have hmoment := divides_cons_iff.mpr ⟨date, rfl (a := first :: date), hdivides⟩
  refine ofText?_eq_some_iff.mpr ⟨hfeed, "on ".toList, _, by decide, ?_, hmoment⟩
  simp only [List.append_assoc, List.cons_append]

/-- The words of an event are the rest of its sentence, behind a space. -/
theorem eq_of_ofText?_event {text type : Text} (h : ofText? text = some (event type)) :
    ∃ opening, text = opening ++ ' ' :: type := by
  obtain ⟨-, opening, hopening, rfl⟩ := ofText?_eq_some_iff.mp h
  obtain ⟨front, rfl⟩ := IsWritten.eq_append_space "when a user".toList hopening
  exact ⟨front, by simp⟩

/-- Days and times are parts of their sentence, the times its rest. -/
theorem eq_of_ofText?_recurring {text days times : Text}
    (h : ofText? text = some (recurring days times)) :
    ∃ opening middle, text = opening ++ days ++ middle ++ times := by
  obtain ⟨-, opening, schedule, -, rfl, hdivides⟩ := ofText?_eq_some_iff.mp h
  obtain ⟨middle, -, rfl⟩ := hdivides.occurs
  exact ⟨opening, middle, by simp⟩

/-- Date and time are parts of their sentence, the time its rest behind a space. -/
theorem eq_of_ofText?_oneOff {text date time : Text} (h : ofText? text = some (oneOff date time)) :
    date ≠ [] ∧ ∃ opening middle, text = opening ++ date ++ middle ++ ' ' :: time := by
  obtain ⟨-, opening, moment, -, rfl, hdivides⟩ := ofText?_eq_some_iff.mp h
  obtain ⟨middle, hmiddle, rfl⟩ := hdivides.occurs
  obtain ⟨front, rfl⟩ := IsWritten.eq_append_space " at".toList hmiddle
  exact ⟨List.length_pos_iff.mp hdivides.start_le, opening, front, by simp⟩

end TriggerSentence

namespace StepSentence

theorem ofText?_email {template : Text} (h : '\n' ∉ template) :
    ofText? ("send the ".toList ++ template ++ " email".toList) = some (email template) := by
  have hfeed : '\n' ∉ "send the ".toList ++ template ++ " email".toList := by
    simp only [List.mem_append, not_or]
    exact ⟨⟨by decide, h⟩, by decide⟩
  exact ofText?_eq_some_iff.mpr ⟨hfeed, _, _, by decide, .inl (by decide), rfl⟩

theorem ofText?_condition {predicate : Text} (h : '\n' ∉ predicate) :
    ofText? ("if ".toList ++ predicate) = some (condition predicate) := by
  have hfeed : '\n' ∉ "if ".toList ++ predicate :=
    List.mem_append.not.mpr (not_or.mpr ⟨by decide, h⟩)
  exact ofText?_eq_some_iff.mpr ⟨hfeed, _, by decide, rfl⟩

theorem ofText?_wait {amount unit : Text} (hamount : '\n' ∉ amount) (hunit : '\n' ∉ unit)
    (hspace : ' ' ∉ amount) :
    ofText? ("wait for ".toList ++ (amount ++ ' ' :: unit)) = some (wait amount unit) := by
  have hfeed : '\n' ∉ "wait for ".toList ++ (amount ++ ' ' :: unit) := by
    simp only [List.mem_append, List.mem_cons, not_or]
    exact ⟨by decide, hamount, by decide, hunit⟩
  exact ofText?_eq_some_iff.mpr ⟨hfeed, _, by decide, rfl, hspace⟩

/-- The words of a template are a part of their sentence. -/
theorem eq_of_ofText?_email {text template : Text} (h : ofText? text = some (email template)) :
    ∃ opening closing, text = opening ++ template ++ closing := by
  obtain ⟨-, opening, closing, -, -, rfl⟩ := ofText?_eq_some_iff.mp h
  exact ⟨opening, closing, rfl⟩

/-- The words of a predicate are the rest of their sentence, behind a space. -/
theorem eq_of_ofText?_condition {text predicate : Text}
    (h : ofText? text = some (condition predicate)) :
    ∃ opening, text = opening ++ ' ' :: predicate := by
  obtain ⟨-, opening, hopening, rfl⟩ := ofText?_eq_some_iff.mp h
  obtain ⟨front, rfl⟩ := IsWritten.eq_append_space "if".toList hopening
  exact ⟨front, by simp⟩

/-- Amount and unit are parts of their sentence, the unit its rest behind a space. -/
theorem eq_of_ofText?_wait {text amount unit : Text} (h : ofText? text = some (wait amount unit)) :
    ∃ opening, text = opening ++ amount ++ ' ' :: unit := by
  obtain ⟨-, opening, -, rfl, -⟩ := ofText?_eq_some_iff.mp h
  exact ⟨opening, by simp⟩

end StepSentence

end CampaignScript
