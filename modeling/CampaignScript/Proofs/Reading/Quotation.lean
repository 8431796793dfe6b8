import CampaignScript.Proofs.Campaign.Sentence
import CampaignScript.Proofs.Reading.Frame
import CampaignScript.Proofs.Text.Enumeration

/-! What the readers find at fault on a line. They tell each problem by words that stand on the
line, so none of their problems is one of the layout, which is told by the place of the line. -/
namespace CampaignScript

open Session Text

namespace Problem

/-- Whether the problem is told by words that stand on its line. -/
def Quotes (problem : Problem) : Prop :=
  ∃ words role, problem.fault? = some (words, role) ∧ words <:+: problem.line.raw

/-- Whether the problem is told by the place of its line. -/
def isStructural (problem : Problem) : Bool :=
  problem.reason == .indentation || problem.reason == .nesting

theorem quotes_of_isInfix {line : Line} {cause : Cause} {words role : Text}
    (hfault : fault? { line, cause } = some (words, role)) (h : words <:+: line.text) :
    Quotes { line, cause } :=
  ⟨words, role, hfault, h.trans (trim_isInfix line.raw)⟩

theorem Quotes.isStructural {problem : Problem} (h : problem.Quotes) :
    problem.isStructural = false := by
  obtain ⟨words, role, hfault, -⟩ := h
  rcases problem with ⟨line, cause⟩
  cases cause <;> first | rfl | simp [fault?] at hfault

theorem isFatal_eq (problem : Problem) : problem.isFatal = (problem.reason == .indentation) := by
  rcases problem with ⟨line, cause⟩
  cases cause <;> rfl

theorem Quotes.isFatal {problem : Problem} (h : problem.Quotes) : problem.isFatal = false := by
  rw [isFatal_eq]
  exact (Bool.or_eq_false_iff.mp h.isStructural).1

theorem filter_isStructural_of_quotes {problems : List Problem}
    (h : ∀ problem ∈ problems, problem.Quotes) : problems.filter (!·.isStructural) = problems := by
  refine List.filter_eq_self.mpr fun problem hproblem => ?_
  rw [(h problem hproblem).isStructural]
  rfl

/-- The words that are quoted in the message of a problem. -/
theorem Quotes.exists_message {problem : Problem} (h : problem.Quotes) :
    ∃ words role, problem.fault? = some (words, role) ∧
      problem.message = '"' :: words ++ "\" is not a valid ".toList ++ role ++ ['.'] ∧
        words <:+: problem.line.raw := by
  obtain ⟨words, role, hfault, hwords⟩ := h
  refine ⟨words, role, hfault, ?_, hwords⟩
  rw [message, hfault]

end Problem

open Problem

theorem CustomField.quotes_of_mem_added {entry : Entry} {problem : Problem}
    (h : problem ∈ (CustomField.read entry).added) : problem.Quotes := by
  rw [added_read] at h
  split at h
  · exact absurd h List.not_mem_nil
  · rw [List.mem_singleton.mp h]
    exact quotes_of_isInfix rfl List.infix_rfl

theorem WaitTime.quotes_of_mem_added {line : Line} {amount unit : Text}
    (hamount : amount <:+: line.text) (hunit : unit <:+: line.text) {problem : Problem}
    (h : problem ∈ (WaitTime.read line amount unit).added) : problem.Quotes := by
  have hfirst : Quotes { line, cause := .waitAmount amount } := quotes_of_isInfix rfl hamount
  have hsecond : Quotes { line, cause := .waitUnit unit } := quotes_of_isInfix rfl hunit
  rw [added_read] at h
  split at h
  · split at h
    · rwa [List.mem_singleton.mp h]
    · exact absurd h List.not_mem_nil
  · rwa [List.mem_singleton.mp h]
  · rwa [List.mem_singleton.mp h]
  · rcases List.mem_pair.mp h with rfl | rfl
    · exact hfirst
    · exact hsecond

theorem Step.quotes_of_mem_added {entry : Entry} {problem : Problem}
    (h : problem ∈ (Step.read entry).added) : problem.Quotes := by
  rw [added_read] at h
  rcases hsentence : StepSentence.ofText? entry.line.text with
    _ | (template | predicate | ⟨amount, unit⟩)
  · rw [hsentence] at h
    rw [List.mem_singleton.mp h]
    exact quotes_of_isInfix rfl List.infix_rfl
  · rw [hsentence] at h
    obtain ⟨field, -, hfield⟩ := List.mem_flatMap.mp h
    exact CustomField.quotes_of_mem_added hfield
  · rw [hsentence] at h
    exact absurd h List.not_mem_nil
  · rw [hsentence] at h
    obtain ⟨opening, htext⟩ := StepSentence.eq_of_ofText?_wait hsentence
    apply WaitTime.quotes_of_mem_added _ _ h
    · exact ⟨opening, ' ' :: unit, htext.symm⟩
    · exact ⟨opening ++ amount ++ [' '], [], by rw [htext]; simp⟩

theorem Trigger.quotes_of_mem_added {line : Line} {problem : Problem}
    (h : problem ∈ (Trigger.read line).added) : problem.Quotes := by
  rw [added_read] at h
  rcases hsentence : TriggerSentence.ofText? line.text with
    _ | (type | ⟨days, times⟩ | ⟨date, time⟩)
  · rw [hsentence] at h
    rw [List.mem_singleton.mp h]
    exact quotes_of_isInfix rfl List.infix_rfl
  · rw [hsentence] at h
    exact absurd h List.not_mem_nil
  · rw [hsentence] at h
    obtain ⟨opening, middle, htext⟩ := TriggerSentence.eq_of_ofText?_recurring hsentence
    rcases List.mem_append.mp h with h | h
    · obtain ⟨words, hwords, rfl⟩ := mem_added_accept h
      have hdays : days <:+: line.text := ⟨opening, middle ++ times, by rw [htext]; simp⟩
      exact quotes_of_isInfix rfl ((Enumeration.isInfix_of_read_eq_error hwords).trans hdays)
    · obtain ⟨words, hwords, rfl⟩ := mem_added_accept h
      have htimes : times <:+: line.text := ⟨opening ++ days ++ middle, [], by rw [htext]; simp⟩
      exact quotes_of_isInfix rfl ((Enumeration.isInfix_of_read_eq_error hwords).trans htimes)
  · rw [hsentence] at h
    exact absurd h List.not_mem_nil

end CampaignScript
