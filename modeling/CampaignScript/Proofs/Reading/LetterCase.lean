import CampaignScript.Proofs.Reading.Frame
import CampaignScript.Proofs.Text.Capitals

/-! Steps in any letter case. A line with its ASCII capitals made small says the same sentence, with
the capitals of its free words made small, and the identifiers, amounts and units made of these do
not tell the difference. So a step is read alike from all spellings of its line; only the words that
its problems quote are as written. -/
namespace CampaignScript

open Session Text

namespace StepSentence

/-- The sentence with the ASCII capitals of its free words made small. -/
def small : StepSentence → StepSentence
  | email template => email (template.map Char.toLower)
  | condition predicate => condition (predicate.map Char.toLower)
  | wait amount unit => wait (amount.map Char.toLower) (unit.map Char.toLower)

variable (text : Text)

theorem email?_map_toLower : email? (text.map Char.toLower) = (email? text).map small := by
  rw [email?, email?, afterPhrase?_map_toLower]
  cases afterPhrase? "send the ".toList text with
  | none => rfl
  | some rest =>
    simp only [Option.map_some, Option.bind_eq_bind, Option.bind_some, beforePhrase?_map_toLower]
    cases beforePhrase? " email".toList rest with
    | some template => rfl
    | none => cases beforePhrase? " email with custom fields".toList rest <;> rfl

theorem condition?_map_toLower :
    condition? (text.map Char.toLower) = (condition? text).map small := by
  rw [condition?, condition?, afterPhrase?_map_toLower, Option.map_map, Option.map_map]
  rfl

theorem wait?_map_toLower : wait? (text.map Char.toLower) = (wait? text).map small := by
  rw [wait?, wait?, afterPhrase?_map_toLower]
  cases afterPhrase? "wait for ".toList text with
  | none => rfl
  | some duration =>
    simp only [Option.map_some, Option.bind_eq_bind, Option.bind_some, splitAtSpace?_map_toLower]
    cases splitAtChar? ' ' duration <;> rfl

theorem ofText?_map_toLower : ofText? (text.map Char.toLower) = (ofText? text).map small := by
  have hfeed : '\n' ∈ text.map Char.toLower ↔ '\n' ∈ text := by
    simp [toLower_eq_iff (d := '\n') (by decide)]
  rw [ofText?, ofText?, if_congr hfeed rfl rfl, email?_map_toLower, condition?_map_toLower,
    wait?_map_toLower]
  split_ifs
  · rfl
  · cases email? text <;> cases condition? text <;> rfl

end StepSentence

theorem identifier_map_toLower (words : Text) :
    identifier (words.map Char.toLower) = identifier words := by
  rw [identifier, identifier, lowercase_map_toLower]

namespace WaitTime

theorem takeWhile_isDigit_map_toLower (text : Text) :
    (text.map Char.toLower).takeWhile Char.isDigit = text.takeWhile Char.isDigit := by
  induction text with
  | nil => rfl
  | cons c text ih =>
    rw [List.map_cons, List.takeWhile_cons, List.takeWhile_cons, ih, isDigit_toLower]
    split
    · next hc => rw [toLower_of_isDigit hc]
    · rfl

theorem leadingNumber?_map_toLower (text : Text) :
    leadingNumber? (text.map Char.toLower) = leadingNumber? text := by
  rw [leadingNumber?, leadingNumber?, takeWhile_isDigit_map_toLower]

theorem amount?_of_no_sign {text : Text} (h : ∀ c ∈ text.head?, c ≠ '-' ∧ c ≠ '+') :
    amount? text = leadingNumber? text := by
  rw [amount?]
  · rintro rest rfl
    exact (h '-' rfl).1 rfl
  · rintro rest rfl
    exact (h '+' rfl).2 rfl

/-- Neither signs nor digits have letter case. -/
theorem amount?_map_toLower (text : Text) : amount? (text.map Char.toLower) = amount? text := by
  have hminus {c : Char} : c.toLower = '-' ↔ c = '-' := toLower_eq_iff (by decide)
  have hplus {c : Char} : c.toLower = '+' ↔ c = '+' := toLower_eq_iff (by decide)
  by_cases hsign : ∀ c ∈ text.head?, c ≠ '-' ∧ c ≠ '+'
  · rw [amount?_of_no_sign hsign, amount?_of_no_sign, leadingNumber?_map_toLower]
    simpa [hminus, hplus] using hsign
  · obtain ⟨c, rest, rfl, hc⟩ : ∃ c rest, text = c :: rest ∧ (c = '-' ∨ c = '+') := by
      cases text with
      | nil => simp at hsign
      | cons c rest => exact ⟨c, rest, rfl, by simpa [or_iff_not_imp_left] using hsign⟩
    rcases hc with rfl | rfl
    · exact congrArg (Option.filter (· == 0)) (leadingNumber?_map_toLower rest)
    · exact leadingNumber?_map_toLower rest

end WaitTime

theorem WaitUnit.ofName?_map_toLower (text : Text) :
    ofName? (text.map Char.toLower) = ofName? text := by
  rw [ofName?, ofName?, lowercase_map_toLower]

/-- What a problem says apart from the words it quotes: its reason, and the number of its line. -/
def Problem.place (problem : Problem) : Reason × Nat :=
  (problem.reason, problem.line.number)

/-- The line with its ASCII capitals made small. -/
def Line.small (line : Line) : Line :=
  { line with raw := line.raw.map Char.toLower }

/-- The entry with the ASCII capitals of its own line made small. -/
def Entry.small (entry : Entry) : Entry :=
  { entry with line := entry.line.small }

theorem Line.text_small (line : Line) : line.small.text = line.text.map Char.toLower :=
  trim_map_toLower line.raw

theorem WaitTime.value_read_small (line : Line) (amount unit : Text) :
    (WaitTime.read line.small (amount.map Char.toLower) (unit.map Char.toLower)).value =
      (WaitTime.read line amount unit).value := by
  rw [value_read, value_read, amount?_map_toLower, WaitUnit.ofName?_map_toLower]

theorem WaitTime.place_added_read_small (line : Line) (amount unit : Text) :
    (WaitTime.read line.small (amount.map Char.toLower) (unit.map Char.toLower)).added.map
        Problem.place =
      (WaitTime.read line amount unit).added.map Problem.place := by
  rw [added_read, added_read, amount?_map_toLower, WaitUnit.ofName?_map_toLower]
  split
  · split <;> rfl
  all_goals rfl

namespace Step
variable (entry : Entry)

theorem value_read_small : (Step.read entry.small).value = (Step.read entry).value := by
  rw [value_read, value_read, Entry.small, Line.text_small, StepSentence.ofText?_map_toLower]
  rcases StepSentence.ofText? entry.line.text with _ | (template | predicate | ⟨amount, unit⟩)
  · rfl
  · exact congrArg (email · _) (identifier_map_toLower template)
  · exact congrArg condition (identifier_map_toLower predicate)
  · exact congrArg wait (WaitTime.value_read_small entry.line amount unit)

theorem place_added_read_small :
    (Step.read entry.small).added.map Problem.place =
      (Step.read entry).added.map Problem.place := by
  rw [added_read, added_read, Entry.small, Line.text_small, StepSentence.ofText?_map_toLower]
  rcases StepSentence.ofText? entry.line.text with _ | (template | predicate | ⟨amount, unit⟩)
  · rfl
  · rfl
  · rfl
  · exact WaitTime.place_added_read_small entry.line amount unit

/-- A step is the same in any case of the ASCII letters in its line, whatever was found before, and
so are its problems but for the words that they quote. -/
theorem read_any_case {raw : Text}
    (h : raw.map Char.toLower = entry.line.raw.map Char.toLower) (found : List Problem) :
    ∃ step problems respelled,
      (Step.read entry).run found = (step, found ++ problems) ∧
      (Step.read { entry with line := { entry.line with raw } }).run found =
        (step, found ++ respelled) ∧
      respelled.map Problem.place = problems.map Problem.place := by
  let other : Entry := { entry with line := { entry.line with raw } }
  have hsmall : other.small = entry.small := by
    rw [Entry.small, Entry.small, Line.small, Line.small, h]
  have hvalue : (Step.read other).value = (Step.read entry).value := by
    rw [← value_read_small, hsmall, value_read_small]
  have hplace : (Step.read other).added.map Problem.place =
      (Step.read entry).added.map Problem.place := by
    rw [← place_added_read_small, hsmall, place_added_read_small]
  exact ⟨(Step.read entry).value, (Step.read entry).added, (Step.read other).added,
    appends_read entry found, hvalue ▸ appends_read other found, hplace⟩

/-- A sigma before a letter and one at the end of a word, in two spellings of a line, and a unit
that does not exist. -/
theorem read_any_case_sigma :
    let field : Line := { number := 8, raw := "    no colon".toList }
    let email : Entry :=
      { line := { number := 7, raw := "Send the ΟΣA ΟΣ email".toList }
        nested := .entry field .empty .empty }
    let respelt : Entry :=
      { email with line := { email.line with raw := "sEND THE ΟΣa ΟΣ Email".toList } }
    let wait : Entry :=
      { line := { number := 9, raw := "wait for +02 Fortnights".toList }, nested := .empty }
    let shouted : Entry :=
      { wait with line := { wait.line with raw := "WAIT FOR +02 FORTNIGHTS".toList } }
    (∃ problems,
      (Step.read respelt).run [] = (.email "οσa_ος".toList [{ key := [], value := [] }], problems) ∧
        problems.map Problem.place = [(.customField, 8)]) ∧
      ∃ problems, (Step.read shouted).run [] = (.wait none, problems) ∧
        problems.map Problem.place = [(.stepField, 9)] := by
  intro field email respelt wait shouted
  refine ⟨?_, ?_⟩
  · have hvalue : (Step.read email).value =
        .email "οσa_ος".toList [{ key := [], value := [] }] := by decide +kernel
    have hadded : (Step.read email).added = [{ line := field, cause := .customField }] := by
      decide +kernel
    have hcase : respelt.line.raw.map Char.toLower = email.line.raw.map Char.toLower := by
      decide +kernel
    obtain ⟨step, problems, respelled, hrun, hother, hplace⟩ := read_any_case email hcase []
    obtain ⟨rfl, rfl⟩ := Prod.mk.inj (hrun.symm.trans (appends_read email []))
    exact ⟨respelled, hvalue ▸ hother, hplace.trans (by rw [hadded]; rfl)⟩
  · have hvalue : (Step.read wait).value = .wait none := by decide +kernel
    have hadded : (Step.read wait).added =
        [{ line := wait.line, cause := .waitUnit "Fortnights".toList }] := by decide +kernel
    have hcase : shouted.line.raw.map Char.toLower = wait.line.raw.map Char.toLower := by
      decide +kernel
    obtain ⟨step, problems, respelled, hrun, hother, hplace⟩ := read_any_case wait hcase []
    obtain ⟨rfl, rfl⟩ := Prod.mk.inj (hrun.symm.trans (appends_read wait []))
    exact ⟨respelled, hvalue ▸ hother, hplace.trans (by rw [hadded]; rfl)⟩

end Step

end CampaignScript
