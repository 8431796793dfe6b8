import CampaignScript.Proofs.Outline.Order
import CampaignScript.Proofs.Reading.Joining

/-! Where the problems of a script are. The readers go through the lines in their order and report
each line at most twice, so the problems come in the order of the lines that they are told of. -/
namespace CampaignScript

open Session Problem

/-- Whether problems are those of the given lines, line by line and at most two of each. -/
inductive LineByLine : List Line → List Problem → Prop
  | nil : LineByLine [] []
  | cons {line : Line} {lines : List Line} {own problems : List Problem}
    (hline : ∀ problem ∈ own, problem.line = line) (htwo : own.length ≤ 2)
    (h : LineByLine lines problems) : LineByLine (line :: lines) (own ++ problems)

namespace LineByLine
variable {lines more : List Line} {problems others : List Problem}

theorem none (lines : List Line) : LineByLine lines [] := by
  induction lines with
  | nil => exact .nil
  | cons line lines ih => exact .cons (List.forall_mem_nil _) (Nat.zero_le 2) ih

theorem head {line : Line} {own : List Problem} (hline : ∀ problem ∈ own, problem.line = line)
    (htwo : own.length ≤ 2) (lines : List Line) : LineByLine (line :: lines) own := by
  have h := cons hline htwo (none lines)
  rwa [List.append_nil] at h

theorem append (h : LineByLine lines problems) (h' : LineByLine more others) :
    LineByLine (lines ++ more) (problems ++ others) := by
  induction h with
  | nil => exact h'
  | cons hline htwo h ih =>
    rw [List.cons_append, List.append_assoc]
    exact .cons hline htwo ih

theorem line_mem (h : LineByLine lines problems) {problem : Problem} (hmem : problem ∈ problems) :
    problem.line ∈ lines := by
  induction h with
  | nil => exact absurd hmem List.not_mem_nil
  | cons hline htwo h ih =>
    rcases List.mem_append.mp hmem with hmem | hmem
    · rw [hline problem hmem]
      exact List.mem_cons_self
    · exact List.mem_cons_of_mem _ (ih hmem)

theorem pairwise (h : LineByLine lines problems)
    (hlines : lines.Pairwise fun line later => line.number < later.number) :
    problems.Pairwise fun problem later => problem.line.number ≤ later.line.number := by
  induction h with
  | nil => exact .nil
  | @cons line lines own problems hline htwo h ih =>
    obtain ⟨hfirst, hrest⟩ := List.pairwise_cons.mp hlines
    refine List.pairwise_append.mpr ⟨?_, ih hrest, fun problem hproblem later hlater => ?_⟩
    · apply List.pairwise_of_forall_mem_list
      intro problem hproblem later hlater
      rw [hline problem hproblem, hline later hlater]
    · rw [hline problem hproblem]
      exact (hfirst later.line (h.line_mem hlater)).le

theorem countP_le_two (h : LineByLine lines problems)
    (hlines : lines.Pairwise fun line later => line.number < later.number) (number : Nat) :
    problems.countP (·.line.number == number) ≤ 2 := by
  induction h with
  | nil => exact Nat.zero_le 2
  | @cons line lines own problems hline htwo h ih =>
    obtain ⟨hfirst, hrest⟩ := List.pairwise_cons.mp hlines
    rw [List.countP_append]
    -- The lines behind this one have other numbers, so only one of the two parts counts.
    by_cases hnumber : line.number = number
    · have hnone : problems.countP (·.line.number == number) = 0 := by
        rw [List.countP_eq_zero]
        intro problem hproblem heq
        have hlater := hfirst problem.line (h.line_mem hproblem)
        rw [hnumber, ← beq_iff_eq.mp heq] at hlater
        exact Nat.lt_irrefl _ hlater
      have hown : own.countP (·.line.number == number) ≤ own.length := List.countP_le_length
      omega
    · have hnone : own.countP (·.line.number == number) = 0 := by
        rw [List.countP_eq_zero]
        intro problem hproblem heq
        rw [hline problem hproblem] at heq
        exact hnumber (beq_iff_eq.mp heq)
      have hproblems := ih hrest
      omega

/-- What is reported of the entries of an outline, lines nested under them included. -/
theorem flatMap_entries {reports : Entry → List Problem}
    (h : ∀ entry, LineByLine (entry.line :: entry.nested.preorder) (reports entry))
    (outline : Outline) : LineByLine outline.preorder (outline.entries.flatMap reports) := by
  induction outline with
  | empty => exact .nil
  | entry line nested rest _ ih =>
    rw [Outline.preorder, Outline.entries, List.flatMap_cons, ← List.cons_append]
    exact (h ⟨line, nested⟩).append ih

end LineByLine

theorem CustomField.lineByLine_read (entry : Entry) :
    LineByLine (entry.line :: entry.nested.preorder) (CustomField.read entry).added := by
  rw [added_read]
  split
  · exact .none _
  · exact .head (by simp) (by simp) _

theorem WaitTime.lineByLine_read (line : Line) (amount unit : Text) (lines : List Line) :
    LineByLine (line :: lines) (WaitTime.read line amount unit).added := by
  rw [added_read]
  split
  · split
    · exact .head (by simp) (by simp) lines
    · exact .none _
  · exact .head (by simp) (by simp) lines
  · exact .head (by simp) (by simp) lines
  · exact .head (by simp) (by simp) lines

theorem Step.lineByLine_read (entry : Entry) :
    LineByLine (entry.line :: entry.nested.preorder) (Step.read entry).added := by
  rw [added_read]
  split
  · have hfields := LineByLine.flatMap_entries CustomField.lineByLine_read entry.nested
    exact .cons (List.forall_mem_nil _) (Nat.zero_le 2) hfields
  · exact .none _
  · exact WaitTime.lineByLine_read _ _ _ _
  · exact .head (by simp) (by simp) _

theorem Session.length_added_accept_le {α : Type} (line : Line) (cause : Text → Cause)
    (result : Except Text α) : (accept line cause result).added.length ≤ 1 := by
  cases result <;> simp [added_accept]

theorem Trigger.lineByLine_read (line : Line) : LineByLine [line] (Trigger.read line).added := by
  rw [added_read]
  split
  · next days times hsentence =>
    refine .head (fun problem hproblem => ?_) ?_ []
    · rcases List.mem_append.mp hproblem with hproblem | hproblem
      · obtain ⟨words, -, rfl⟩ := mem_added_accept hproblem
        rfl
      · obtain ⟨words, -, rfl⟩ := mem_added_accept hproblem
        rfl
    · have hdays := length_added_accept_le line .day (Weekday.ofEnumeration days)
      have htimes := length_added_accept_le line .time (TimeOfDay.ofEnumeration times)
      rw [List.length_append]
      omega
  · exact .none _
  · exact .head (by simp) (by simp) []

theorem Campaign.lineByLine_reports (broken : Bool) {outline : Outline} (h : outline ≠ .empty) :
    LineByLine outline.preorder (reports broken outline) := by
  cases outline with
  | empty => exact absurd rfl h
  | entry first nested rest =>
    have hnesting : LineByLine nested.preorder (if broken then [] else
        nested.lines.head?.toList.map ({ line := ·, cause := .nesting })) := by
      split
      · exact .none _
      · cases nested with
        | empty => exact .nil
        | entry line nested rest =>
          show LineByLine _ [{ line, cause := .nesting }]
          exact .head (by simp) (by simp) _
    rw [reports, Outline.preorder, ← List.singleton_append, ← List.append_assoc]
    exact ((Trigger.lineByLine_read first).append hnesting).append
      (LineByLine.flatMap_entries Step.lineByLine_read rest)

/-- Whether a problem is told of a line of the script as it is written there, but for its tabs. -/
structure Problem.IsLocated (source : Text) (problem : Problem) : Prop where
  number_pos : 1 ≤ problem.line.number
  number_le : problem.line.number ≤ source.lines.length
  raw : ∃ text, source.lines[problem.line.number - 1]? = some text ∧
    problem.line.raw = Line.expandTabs text
  content : problem.line.isBlank = false

namespace Reading

theorem isLocated_of_mem_contentLines {source : Text} {problem : Problem}
    (h : problem.line ∈ Layout.contentLines source) : problem.IsLocated source := by
  obtain ⟨hpos, hle, hraw, hcontent⟩ := Layout.exists_of_mem_contentLines h
  exact ⟨hpos, hle, hraw, hcontent⟩

/-- The problems that the readers report come in the order of their lines, and they end with the
line that reading stopped at. -/
theorem reports_located {source : Text} (hne : Layout.contentLines source ≠ []) (broken : Bool) :
    let layout := Layout.ofText source
    let found := Campaign.reports broken layout.outline
    (∀ problem ∈ found, problem.IsLocated source) ∧
      (found.Pairwise fun problem later => problem.line.number ≤ later.line.number) ∧
      (∀ number, found.countP (·.line.number == number) ≤ 2) ∧
      ∀ line, layout.misplaced = some line →
        line ∈ Layout.contentLines source ∧ ∀ problem ∈ found, problem.line.number ≤ line.number := by
  intro layout found
  have hfound := Campaign.lineByLine_reports broken (Layout.outline_ofText_ne_empty source)
  have hlayout : layout = Layout.ofLines (Layout.contentLines source) :=
    Layout.ofText_of_ne_nil hne
  obtain ⟨hkept, hlast⟩ := Layout.preorder_ofLines (Layout.contentLines source)
  rw [← hlayout] at hkept hlast
  have hlines := (Layout.pairwise_contentLines source).sublist hkept.sublist
  refine ⟨fun problem hproblem => ?_, hfound.pairwise hlines, hfound.countP_le_two hlines,
    fun line hline => ?_⟩
  · exact isLocated_of_mem_contentLines (hkept.subset (hfound.line_mem hproblem))
  · obtain ⟨before, hsplit⟩ := List.getLast?_eq_some_iff.mp (hlast line hline)
    refine ⟨hkept.subset (List.mem_of_getLast? (hlast line hline)), fun problem hproblem => ?_⟩
    have hmem := hfound.line_mem hproblem
    rw [hsplit] at hmem hlines
    rcases List.mem_append.mp hmem with hmem | hmem
    · exact ((List.pairwise_append.mp hlines).2.2 _ hmem line List.mem_cons_self).le
    · rw [List.mem_singleton.mp hmem]

/-- Problems are told of the lines that they are found on. A problem of the indentation comes first
and is the only one; the others follow in the order of their lines, at most two of each and none
behind the line out of place. Each line is one of the script, with something written on it, and the
words that a problem quotes stand there. A script with nothing written in it has one problem, and it
is told of the line that stands for it. -/
theorem ofText_located (source : Text) :
    (∀ problem ∈ (ofText source).problems, problem.isStructural = false →
      ∃ words role, problem.fault? = some (words, role) ∧
        problem.message = '"' :: words ++ "\" is not a valid ".toList ++ role ++ ['.'] ∧
        words <:+: problem.line.raw) ∧
    ((∀ text ∈ source.lines, text.IsBlank) →
      (ofText source).problems = [{ line := ⟨0, []⟩, cause := .trigger }]) ∧
    ((∃ text ∈ source.lines, ¬ text.IsBlank) →
      (∀ problem ∈ (ofText source).problems, problem.IsLocated source) ∧
      ∃ layoutProblems found, (ofText source).problems = layoutProblems ++ found ∧
        (layoutProblems = [] ∨ ∃ fatal, layoutProblems = [fatal] ∧ fatal.reason = .indentation ∧
          ∀ problem ∈ found, problem.line.number ≤ fatal.line.number) ∧
        (∀ problem ∈ found, problem.reason ≠ .indentation) ∧
        (found.Pairwise fun problem later => problem.line.number ≤ later.line.number) ∧
        ∀ number, found.countP (·.line.number == number) ≤ 2) := by
  have hproblems := problems_ofText source
  refine ⟨fun problem hproblem hstructural => ?_, fun hnil => ?_, fun hne => ?_⟩
  · rw [hproblems, List.mem_append] at hproblem
    rcases hproblem with hproblem | hproblem
    · obtain ⟨line, -, rfl⟩ := List.mem_map.mp hproblem
      contradiction
    · rcases Campaign.quotes_of_mem_reports hproblem with hnesting | hquotes
      · rw [Problem.isStructural, hnesting] at hstructural
        contradiction
      · exact hquotes.exists_message
  · rw [hproblems, Layout.ofText_of_eq_nil (Layout.contentLines_eq_nil_iff.mpr hnil)]
    decide
  · rw [← Layout.contentLines_ne_nil_iff] at hne
    obtain ⟨hlocated, hpairwise, hcount, hlast⟩ := reports_located hne
      ((Layout.ofText source).problems.any Problem.isFatal)
    refine ⟨fun problem hproblem => ?_, _, _, hproblems, ?_, fun problem hproblem => ?_,
      hpairwise, hcount⟩
    · rw [hproblems, List.mem_append] at hproblem
      rcases hproblem with hproblem | hproblem
      · obtain ⟨line, hline, rfl⟩ := List.mem_map.mp hproblem
        exact isLocated_of_mem_contentLines (hlast line (Option.mem_toList.mp hline)).1
      · exact hlocated problem hproblem
    · rcases hmisplaced : (Layout.ofText source).misplaced with _ | line
      · exact .inl (by rw [Layout.problems, hmisplaced]; rfl)
      · refine .inr ⟨{ line, cause := .indentation }, ?_, rfl, (hlast line hmisplaced).2⟩
        rw [Layout.problems, hmisplaced]
        rfl
    · have hfatal := Campaign.isFatal_of_mem_reports hproblem
      rw [Problem.isFatal_eq] at hfatal
      exact beq_eq_false_iff_ne.mp hfatal

/-- Two problems on the trigger's line, two on the line of a wait, whose unit begins with white
space, and two on the line out of place, of which one comes first. -/
theorem ofText_located_in_pairs :
    let source : Text := "\nevery x, y at z\r\n\nwait for a\tb\n\t\t\tdance\nsing".toList
    let trigger : Line := ⟨2, "every x, y at z".toList⟩
    let wait : Line := ⟨4, "wait for a    b".toList⟩
    let misplaced : Line := ⟨5, "            dance".toList⟩
    let blank : Text := " \n\n".toList
    (∃ text ∈ source.lines, ¬ text.IsBlank) ∧
      (ofText source).problems =
        [⟨misplaced, .indentation⟩, ⟨trigger, .day "x".toList⟩, ⟨trigger, .time "z".toList⟩,
          ⟨wait, .waitAmount "a".toList⟩, ⟨wait, .waitUnit "   b".toList⟩, ⟨misplaced, .step⟩] ∧
      (∀ problem ∈ (ofText source).problems, problem.IsLocated source) ∧
      (∃ words role, fault? ⟨wait, .waitUnit "   b".toList⟩ = some (words, role) ∧
        message ⟨wait, .waitUnit "   b".toList⟩ =
          '"' :: words ++ "\" is not a valid ".toList ++ role ++ ['.'] ∧
        words <:+: wait.raw) ∧
      (∀ text ∈ blank.lines, text.IsBlank) ∧
      (ofText blank).problems = [{ line := ⟨0, []⟩, cause := .trigger }] := by
  intro source trigger wait misplaced blank
  have hcontent : ∃ text ∈ source.lines, ¬ text.IsBlank := by decide +kernel
  have hblank : ∀ text ∈ blank.lines, text.IsBlank := by decide +kernel
  have hproblems : (ofText source).problems =
      [⟨misplaced, .indentation⟩, ⟨trigger, .day "x".toList⟩, ⟨trigger, .time "z".toList⟩,
        ⟨wait, .waitAmount "a".toList⟩, ⟨wait, .waitUnit "   b".toList⟩, ⟨misplaced, .step⟩] := by
    decide +kernel
  obtain ⟨hquotes, -, hlocated⟩ := ofText_located source
  obtain ⟨-, hsingle, -⟩ := ofText_located blank
  refine ⟨hcontent, hproblems, (hlocated hcontent).1, ?_, hblank, hsingle hblank⟩
  exact hquotes ⟨wait, .waitUnit "   b".toList⟩ (by rw [hproblems]; simp) rfl

end Reading

end CampaignScript
