import CampaignScript.Campaign.Sentence
import CampaignScript.Proofs.Text.Wording

/-! The grammar of sentences: fixed words, and the free words before, between and behind them. The
readers take a text for a sentence exactly where it says that sentence. Sentences of different forms
open with different letters, so no text says two, and the forms may be tried in any order. -/
namespace CampaignScript

open Text

namespace Text

theorem afterPhrase?_exclusive {phrase other : Text} {p q : Char} (hphrase : phrase.head? = some p)
    (hother : other.head? = some q) (hne : p ≠ q) (text : Text) :
    afterPhrase? phrase text = none ∨ afterPhrase? other text = none := by
  obtain ⟨phrase, rfl⟩ := List.head?_eq_some_iff.mp hphrase
  obtain ⟨other, rfl⟩ := List.head?_eq_some_iff.mp hother
  cases text with
  | nil => exact .inl rfl
  | cons c text =>
    by_cases hc : foldCase c = p
    · exact .inr (by rw [afterPhrase?, if_neg (hc ▸ hne)])
    · exact .inl (by rw [afterPhrase?, if_neg hc])

theorem beforePhrase?_exclusive {phrase other : Text} {p q : Char}
    (hphrase : phrase.reverse.head? = some p) (hother : other.reverse.head? = some q) (hne : p ≠ q)
    (text : Text) : beforePhrase? phrase text = none ∨ beforePhrase? other text = none := by
  rw [beforePhrase?, beforePhrase?, Option.map_eq_none_iff, Option.map_eq_none_iff]
  exact afterPhrase?_exclusive hphrase hother hne text.reverse

end Text

section Readers
variable {α β : Type} {f : α → Option β}

theorem orElse_eq_some_iff_of_exclusive {a b : Option α} (h : a = none ∨ b = none) {x : α} :
    (a <|> b) = some x ↔ a = some x ∨ b = some x := by
  rcases h with rfl | rfl <;> simp

/-- Of readers that exclude each other, it does not matter which is asked first. -/
theorem findSome?_eq_some_iff_of_exclusive {list : List α}
    (h : list.Pairwise fun a b => f a = none ∨ f b = none) {x : β} :
    list.findSome? f = some x ↔ ∃ a ∈ list, f a = some x := by
  induction list with
  | nil => simp
  | cons a list ih =>
    obtain ⟨hfirst, hrest⟩ := List.pairwise_cons.mp h
    rw [List.findSome?_cons, List.exists_mem_cons_iff, ← ih hrest]
    cases hread : f a with
    | none => simp
    | some y =>
      have hnone : list.findSome? f = none := by
        rw [List.findSome?_eq_none_iff]
        intro b hb
        exact (hfirst b hb).resolve_left (by simp [hread])
      simp [hnone]

theorem findSome?_eq_of_perm {list other : List α} (hperm : other.Perm list)
    (h : list.Pairwise fun a b => f a = none ∨ f b = none) :
    other.findSome? f = list.findSome? f := by
  have hother : other.Pairwise fun a b => f a = none ∨ f b = none :=
    (hperm.pairwise_iff fun hab => hab.symm).mpr h
  ext x
  simp only [findSome?_eq_some_iff_of_exclusive h, findSome?_eq_some_iff_of_exclusive hother,
    hperm.mem_iff]

/-- What no reading gives and what two readings give, where it is known what each reading gives. -/
theorem eq_none_iff_of_eq_some_iff {a : Option α} {P : Prop} {Q : α → Prop}
    (h : ∀ x, a = some x ↔ ¬ P ∧ Q x) : a = none ↔ P ∨ ∀ x, ¬ Q x := by
  rw [Option.eq_none_iff_forall_ne_some, or_iff_not_imp_left]
  constructor
  · exact fun hnone hP x hx => hnone x ((h x).mpr ⟨hP, hx⟩)
  · intro hnone x hx
    obtain ⟨hP, hQ⟩ := (h x).mp hx
    exact hnone hP x hQ

theorem unique_of_eq_some_iff {a : Option α} {P : Prop} {Q : α → Prop}
    (h : ∀ x, a = some x ↔ ¬ P ∧ Q x) (hP : ¬ P) {x y : α} (hx : Q x) (hy : Q y) : x = y := by
  have hread := (h x).mpr ⟨hP, hx⟩
  rw [(h y).mpr ⟨hP, hy⟩, Option.some.injEq] at hread
  exact hread.symm

theorem orElse_eq_findSome? (first second third : α → Option β) (a : α) :
    (first a <|> second a <|> third a) = [first, second, third].findSome? (· a) := by
  simp only [List.findSome?_cons, List.findSome?_nil]
  cases first a <;> cases second a <;> cases third a <;> rfl

theorem pairwise_three {R : α → α → Prop} {a b c : α} (hab : R a b) (hac : R a c) (hbc : R b c) :
    [a, b, c].Pairwise R := by
  simp [hab, hac, hbc]

end Readers

namespace TriggerSentence

/-- Whether a text says a sentence. -/
def Says (text : Text) : TriggerSentence → Prop
  | event type => ∃ opening, IsWritten "when a user ".toList opening ∧ text = opening ++ type
  | recurring days times => ∃ opening schedule, IsWritten "every ".toList opening ∧
      text = opening ++ schedule ∧ Divides " at ".toList 0 schedule days times
  | oneOff date time => ∃ opening moment, IsWritten "on ".toList opening ∧
      text = opening ++ moment ∧ Divides " at ".toList 1 moment date time

variable {text : Text} {sentence : TriggerSentence}

theorem event?_eq_some_iff :
    event? text = some sentence ↔ ∃ type, sentence = event type ∧ Says text (event type) := by
  have hfixed : IsFixed "when a user ".toList := by decide
  simp only [event?, Option.map_eq_some_iff, afterPhrase?_eq_some_iff_isWritten hfixed, Says]
  constructor
  · rintro ⟨type, h, rfl⟩
    exact ⟨type, rfl, h⟩
  · rintro ⟨type, rfl, h⟩
    exact ⟨type, h, rfl⟩

theorem recurring?_eq_some_iff :
    recurring? text = some sentence ↔
      ∃ days times, sentence = recurring days times ∧ Says text (recurring days times) := by
  have hevery : IsFixed "every ".toList := by decide
  have hat : IsFixed " at ".toList := by decide
  simp only [recurring?, Option.bind_eq_bind, Option.bind_eq_some_iff,
    afterPhrase?_eq_some_iff_isWritten hevery, Says]
  constructor
  · rintro ⟨schedule, ⟨opening, hopening, rfl⟩, ⟨days, times⟩, hsplit, heq⟩
    cases heq
    exact ⟨days, times, rfl, opening, schedule, hopening, rfl,
      (splitAtPhrase?_eq_some_iff_divides hat).mp hsplit⟩
  · rintro ⟨days, times, rfl, opening, schedule, hopening, rfl, hdivides⟩
    exact ⟨schedule, ⟨opening, hopening, rfl⟩, (days, times),
      (splitAtPhrase?_eq_some_iff_divides hat).mpr hdivides, rfl⟩

theorem oneOff?_eq_some_iff :
    oneOff? text = some sentence ↔
      ∃ date time, sentence = oneOff date time ∧ Says text (oneOff date time) := by
  have hon : IsFixed "on ".toList := by decide
  have hat : IsFixed " at ".toList := by decide
  rw [oneOff?]
  constructor
  · intro h
    split at h
    · next first moment hafter =>
      obtain ⟨opening, hopening, rfl⟩ := (afterPhrase?_eq_some_iff_isWritten hon).mp hafter
      obtain ⟨⟨date, time⟩, hsplit, heq⟩ := Option.bind_eq_some_iff.mp h
      cases heq
      have hdivides := (splitAtPhrase?_eq_some_iff_divides hat).mp hsplit
      exact ⟨first :: date, time, rfl, opening, first :: moment, hopening, rfl,
        divides_cons_iff.mpr ⟨date, rfl, hdivides⟩⟩
    · contradiction
  · rintro ⟨date, time, rfl, opening, moment, hopening, rfl, hdivides⟩
    obtain ⟨first, moment, rfl⟩ := List.exists_cons_of_ne_nil hdivides.text_ne_nil
    obtain ⟨back, rfl, hback⟩ := divides_cons_iff.mp hdivides
    rw [(afterPhrase?_eq_some_iff_isWritten hon).mpr ⟨opening, hopening, rfl⟩]
    simp only [(splitAtPhrase?_eq_some_iff_divides hat).mpr hback, Option.bind_eq_bind,
      Option.bind_some]

theorem readers_exclusive (text : Text) :
    [event?, recurring?, oneOff?].Pairwise fun reader other =>
      reader text = none ∨ other text = none := by
  have hevent (h : afterPhrase? "when a user ".toList text = none) : event? text = none := by
    rw [event?, h]
    rfl
  have hrecurring (h : afterPhrase? "every ".toList text = none) : recurring? text = none := by
    rw [recurring?, h]
    rfl
  have honeOff (h : afterPhrase? "on ".toList text = none) : oneOff? text = none := by
    rw [oneOff?, h]
  exact pairwise_three ((afterPhrase?_exclusive rfl rfl (by decide) text).imp hevent hrecurring)
    ((afterPhrase?_exclusive rfl rfl (by decide) text).imp hevent honeOff)
    ((afterPhrase?_exclusive rfl rfl (by decide) text).imp hrecurring honeOff)

theorem ofText?_eq_findSome? (h : '\n' ∉ text) :
    ofText? text = [event?, recurring?, oneOff?].findSome? (· text) := by
  rw [ofText?, if_neg h, orElse_eq_findSome?]

/-- A text is taken for the sentence that it says. -/
theorem ofText?_eq_some_iff : ofText? text = some sentence ↔ '\n' ∉ text ∧ Says text sentence := by
  by_cases hfeed : '\n' ∈ text
  · simp [ofText?, hfeed]
  · rw [ofText?_eq_findSome? hfeed, findSome?_eq_some_iff_of_exclusive (readers_exclusive text)]
    simp only [List.exists_mem_cons_iff, List.not_mem_nil, false_and, exists_false, or_false,
      event?_eq_some_iff, recurring?_eq_some_iff, oneOff?_eq_some_iff]
    cases sentence <;> simp [hfeed]

theorem ofText?_eq_none_iff :
    ofText? text = none ↔ '\n' ∈ text ∨ ∀ sentence, ¬ Says text sentence :=
  eq_none_iff_of_eq_some_iff fun _ => ofText?_eq_some_iff

theorem Says.unique (hfeed : '\n' ∉ text) {other : TriggerSentence} (h : Says text sentence)
    (h' : Says text other) : sentence = other :=
  unique_of_eq_some_iff (fun _ => ofText?_eq_some_iff) hfeed h h'

end TriggerSentence

namespace StepSentence

/-- Whether a text says a sentence. -/
def Says (text : Text) : StepSentence → Prop
  | email template => ∃ opening closing, IsWritten "send the ".toList opening ∧
      (IsWritten " email".toList closing ∨ IsWritten " email with custom fields".toList closing) ∧
      text = opening ++ template ++ closing
  | condition predicate => ∃ opening, IsWritten "if ".toList opening ∧ text = opening ++ predicate
  | wait amount unit => ∃ opening, IsWritten "wait for ".toList opening ∧
      text = opening ++ (amount ++ ' ' :: unit) ∧ ' ' ∉ amount

variable {text : Text} {sentence : StepSentence}

theorem closing_exclusive (text : Text) :
    beforePhrase? " email".toList text = none ∨
      beforePhrase? " email with custom fields".toList text = none :=
  beforePhrase?_exclusive rfl rfl (by decide) text

theorem not_both_closings {front closing back ending : Text} (hshort : text = front ++ closing)
    (hlong : text = back ++ ending) (h : IsWritten " email".toList closing) :
    ¬ IsWritten " email with custom fields".toList ending := by
  intro h'
  have hfixed : IsFixed " email".toList := by decide
  have hfixed' : IsFixed " email with custom fields".toList := by decide
  have hread := (beforePhrase?_eq_some_iff_isWritten hfixed).mpr ⟨closing, h, hshort⟩
  have hread' := (beforePhrase?_eq_some_iff_isWritten hfixed').mpr ⟨ending, h', hlong⟩
  rcases closing_exclusive text with hnone | hnone
  · rw [hnone] at hread
    contradiction
  · rw [hnone] at hread'
    contradiction

/-- The closing words of an email stand at the end of a text in one of their two forms only. -/
theorem closing_eq_some_iff {template : Text} :
    (beforePhrase? " email".toList text <|> beforePhrase? " email with custom fields".toList text) =
        some template ↔
      ∃ closing, (IsWritten " email".toList closing ∨
        IsWritten " email with custom fields".toList closing) ∧ text = template ++ closing := by
  have hshort : IsFixed " email".toList := by decide
  have hlong : IsFixed " email with custom fields".toList := by decide
  rw [orElse_eq_some_iff_of_exclusive (closing_exclusive text),
    beforePhrase?_eq_some_iff_isWritten hshort, beforePhrase?_eq_some_iff_isWritten hlong]
  simp only [or_and_right, exists_or]

theorem email?_eq_some_iff :
    email? text = some sentence ↔
      ∃ template, sentence = email template ∧ Says text (email template) := by
  have hfixed : IsFixed "send the ".toList := by decide
  simp only [email?, Option.bind_eq_bind, Option.bind_eq_some_iff, closing_eq_some_iff,
    afterPhrase?_eq_some_iff_isWritten hfixed, Says]
  constructor
  · rintro ⟨rest, ⟨opening, hopening, rfl⟩, template, ⟨closing, hclosing, rfl⟩, heq⟩
    cases heq
    exact ⟨template, rfl, opening, closing, hopening, hclosing, (List.append_assoc _ _ _).symm⟩
  · rintro ⟨template, rfl, opening, closing, hopening, hclosing, rfl⟩
    exact ⟨template ++ closing, ⟨opening, hopening, List.append_assoc _ _ _⟩, template,
      ⟨closing, hclosing, rfl⟩, rfl⟩

theorem condition?_eq_some_iff :
    condition? text = some sentence ↔
      ∃ predicate, sentence = condition predicate ∧ Says text (condition predicate) := by
  have hfixed : IsFixed "if ".toList := by decide
  simp only [condition?, Option.map_eq_some_iff, afterPhrase?_eq_some_iff_isWritten hfixed, Says]
  constructor
  · rintro ⟨predicate, h, rfl⟩
    exact ⟨predicate, rfl, h⟩
  · rintro ⟨predicate, rfl, h⟩
    exact ⟨predicate, h, rfl⟩

theorem wait?_eq_some_iff :
    wait? text = some sentence ↔
      ∃ amount unit, sentence = wait amount unit ∧ Says text (wait amount unit) := by
  have hfixed : IsFixed "wait for ".toList := by decide
  simp only [wait?, Option.bind_eq_bind, Option.bind_eq_some_iff,
    afterPhrase?_eq_some_iff_isWritten hfixed, Says]
  constructor
  · rintro ⟨duration, ⟨opening, hopening, rfl⟩, ⟨amount, unit⟩, hsplit, heq⟩
    cases heq
    obtain ⟨rfl, hspace⟩ := splitAtChar?_eq_some_iff.mp hsplit
    exact ⟨amount, unit, rfl, opening, hopening, rfl, hspace⟩
  · rintro ⟨amount, unit, rfl, opening, hopening, rfl, hspace⟩
    exact ⟨amount ++ ' ' :: unit, ⟨opening, hopening, rfl⟩, (amount, unit),
      splitAtChar?_eq_some_iff.mpr ⟨rfl, hspace⟩, rfl⟩

theorem readers_exclusive (text : Text) :
    [email?, condition?, wait?].Pairwise fun reader other =>
      reader text = none ∨ other text = none := by
  have hemail (h : afterPhrase? "send the ".toList text = none) : email? text = none := by
    rw [email?, h]
    rfl
  have hcondition (h : afterPhrase? "if ".toList text = none) : condition? text = none := by
    rw [condition?, h]
    rfl
  have hwait (h : afterPhrase? "wait for ".toList text = none) : wait? text = none := by
    rw [wait?, h]
    rfl
  exact pairwise_three ((afterPhrase?_exclusive rfl rfl (by decide) text).imp hemail hcondition)
    ((afterPhrase?_exclusive rfl rfl (by decide) text).imp hemail hwait)
    ((afterPhrase?_exclusive rfl rfl (by decide) text).imp hcondition hwait)

theorem ofText?_eq_findSome? (h : '\n' ∉ text) :
    ofText? text = [email?, condition?, wait?].findSome? (· text) := by
  rw [ofText?, if_neg h, orElse_eq_findSome?]

/-- A text is taken for the sentence that it says. -/
theorem ofText?_eq_some_iff : ofText? text = some sentence ↔ '\n' ∉ text ∧ Says text sentence := by
  by_cases hfeed : '\n' ∈ text
  · simp [ofText?, hfeed]
  · rw [ofText?_eq_findSome? hfeed, findSome?_eq_some_iff_of_exclusive (readers_exclusive text)]
    simp only [List.exists_mem_cons_iff, List.not_mem_nil, false_and, exists_false, or_false,
      email?_eq_some_iff, condition?_eq_some_iff, wait?_eq_some_iff]
    cases sentence <;> simp [hfeed]

theorem ofText?_eq_none_iff :
    ofText? text = none ↔ '\n' ∈ text ∨ ∀ sentence, ¬ Says text sentence :=
  eq_none_iff_of_eq_some_iff fun _ => ofText?_eq_some_iff

theorem Says.unique (hfeed : '\n' ∉ text) {other : StepSentence} (h : Says text sentence)
    (h' : Says text other) : sentence = other :=
  unique_of_eq_some_iff (fun _ => ofText?_eq_some_iff) hfeed h h'

end StepSentence

end CampaignScript
