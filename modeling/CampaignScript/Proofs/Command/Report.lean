import CampaignScript.Command.Outcome
import CampaignScript.Proofs.Diagnostic.Excerpt
import CampaignScript.Proofs.Outline.Spacing
import CampaignScript.Proofs.Reading.Location
import CampaignScript.Proofs.Source.Loading
import CampaignScript.Proofs.Text.Pieces

/-! The lines of a report. A problem is told of one line of a script and quotes words of that line,
so no line feed of the script comes into the report, and each problem takes up as many lines as
another. Where a caret has no field the reports end, and the code is another one. -/
namespace CampaignScript

namespace Text

theorem intercalate_append_lineFeed {lines : List Text} (h : lines ≠ []) :
    ['\n'].intercalate lines ++ ['\n'] = lines.flatMap fun line => line ++ ['\n'] := by
  induction lines with
  | nil => exact absurd rfl h
  | cons line lines ih =>
    cases lines with
    | nil => simp
    | cons next lines =>
      rw [List.intercalate_cons_cons, List.append_assoc, ih (List.cons_ne_nil _ _)]
      rfl

end Text

namespace Problem

theorem lineFeed_notMem_role {problem : Problem} {words role : Text}
    (h : problem.fault? = some (words, role)) : '\n' ∉ role := by
  rcases problem with ⟨line, cause⟩
  cases cause <;> cases h <;> decide

theorem lineFeed_notMem_message {problem : Problem} (hraw : '\n' ∉ problem.line.raw)
    (h : problem.fault? = none ∨ problem.Quotes) : '\n' ∉ problem.message := by
  rcases h with hnone | ⟨words, role, hfault, hwords⟩
  · rw [message, hnone]
    decide
  · have hwords : '\n' ∉ words := fun hmem => hraw (hwords.subset hmem)
    simp [message, hfault, hwords, lineFeed_notMem_role hfault]

theorem IsLocated.lineFeed_notMem_raw {source : Text} {problem : Problem}
    (h : problem.IsLocated source) : '\n' ∉ problem.line.raw := by
  obtain ⟨text, htext, hraw⟩ := h.raw
  rw [hraw]
  exact Line.lineFeed_notMem_raw
    (Text.lineFeed_notMem_of_mem_lines (List.mem_of_getElem? htext)) problem.line.number

end Problem

namespace Reading
variable {source : Text} {problem : Problem}

theorem lineFeed_notMem_raw (h : problem ∈ (ofText source).problems) :
    '\n' ∉ problem.line.raw := by
  rw [problems_ofText] at h
  by_cases hne : Layout.contentLines source = []
  · rw [Layout.ofText_of_eq_nil hne] at h
    rw [List.mem_singleton.mp h]
    decide
  · obtain ⟨hfound, -, -, hmisplaced⟩ := reports_located hne
      ((Layout.ofText source).problems.any Problem.isFatal)
    rcases List.mem_append.mp h with h | h
    · obtain ⟨line, hline, rfl⟩ := List.mem_map.mp h
      have hmem := (hmisplaced line (Option.mem_toList.mp hline)).1
      exact (isLocated_of_mem_contentLines hmem).lineFeed_notMem_raw
    · exact (hfound problem h).lineFeed_notMem_raw

theorem fault?_eq_none_or_quotes (h : problem ∈ (ofText source).problems) :
    problem.fault? = none ∨ problem.Quotes := by
  rw [problems_ofText, List.mem_append] at h
  rcases h with h | h
  · obtain ⟨line, -, rfl⟩ := List.mem_map.mp h
    exact .inl rfl
  · refine (Campaign.quotes_of_mem_reports h).imp_left fun hnesting => ?_
    rcases problem with ⟨line, cause⟩
    cases cause <;> first | rfl | contradiction

theorem lineFeed_notMem_message (h : problem ∈ (ofText source).problems) :
    '\n' ∉ problem.message :=
  Problem.lineFeed_notMem_message (lineFeed_notMem_raw h) (fault?_eq_none_or_quotes h)

end Reading

namespace Outcome
variable (palette : Palette) (concise : Bool) (file : Text)

/-- The lines that the report on a problem takes up, if it has one. -/
def reportLines? (problem : Problem) : Option (List Text) :=
  if concise then some [problem.diagnostic.concise palette file]
  else (problem.diagnostic.lines? palette file).map fun lines => lines ++ [[]]

theorem reportOn?_eq (problem : Problem) :
    reportOn? palette concise file problem =
      (reportLines? palette concise file problem).map
        fun lines => lines.flatMap fun line => line ++ ['\n'] := by
  cases concise with
  | true => simp [reportOn?, reportLines?]
  | false =>
    simp only [reportOn?, reportLines?, Bool.false_eq_true, if_false, Diagnostic.form?_eq,
      Option.map_map]
    rcases hlines : problem.diagnostic.lines? palette file with _ | lines
    · rfl
    · have hne : lines ≠ [] := by
        obtain ⟨excerpt, -, rfl⟩ := Option.map_eq_some_iff.mp hlines
        exact List.cons_ne_nil _ _
      simp [← Text.intercalate_append_lineFeed hne]

variable {palette concise file}

/-- Problems that have reports are reported on, whatever comes behind them. -/
theorem reportOnAll_append {told : List Problem} {lines : Problem → List Text}
    (h : ∀ problem ∈ told, reportLines? palette concise file problem = some (lines problem))
    (more : List Problem) :
    reportOnAll palette concise file (told ++ more) =
      ((told.flatMap lines).flatMap (fun line => line ++ ['\n']) ++
        (reportOnAll palette concise file more).1, (reportOnAll palette concise file more).2) := by
  induction told with
  | nil => rfl
  | cons problem told ih =>
    obtain ⟨hproblem, htold⟩ := List.forall_mem_cons.mp h
    rw [List.cons_append, reportOnAll, reportOn?_eq, hproblem, Option.map_some, ih htold,
      List.flatMap_cons, List.flatMap_append, List.append_assoc]

theorem reportOnAll_of_forall {problems : List Problem} {lines : Problem → List Text}
    (h : ∀ problem ∈ problems, reportLines? palette concise file problem = some (lines problem)) :
    reportOnAll palette concise file problems =
      ((problems.flatMap lines).flatMap (fun line => line ++ ['\n']), true) := by
  have hall := reportOnAll_append h []
  rwa [List.append_nil, reportOnAll, List.append_nil] at hall

/-- The reports end at the first problem that has none. -/
theorem reportOnAll_append_cons {told : List Problem} {lines : Problem → List Text}
    (h : ∀ problem ∈ told, reportLines? palette concise file problem = some (lines problem))
    {problem : Problem} (hproblem : reportLines? palette concise file problem = none)
    (left : List Problem) :
    reportOnAll palette concise file (told ++ problem :: left) =
      ((told.flatMap lines).flatMap (fun line => line ++ ['\n']), false) := by
  rw [reportOnAll_append h, reportOnAll, reportOn?_eq, hproblem, Option.map_none, List.append_nil]

theorem lineFeed_notMem_reportLines {source : Text} (hfile : '\n' ∉ file) {problem : Problem}
    (h : problem ∈ (Reading.ofText source).problems) {lines : List Text}
    (hlines : reportLines? palette concise file problem = some lines) {line : Text}
    (hline : line ∈ lines) : '\n' ∉ line := by
  have hmessage := Reading.lineFeed_notMem_message h
  cases concise with
  | true =>
    obtain rfl : [_] = lines := Option.some.inj hlines
    rw [List.mem_singleton.mp hline]
    exact Diagnostic.lineFeed_notMem_concise hmessage hfile palette
  | false =>
    obtain ⟨shown, hshown, rfl⟩ := Option.map_eq_some_iff.mp hlines
    rcases List.mem_append.mp hline with hline | hline
    · exact Diagnostic.lineFeed_notMem_of_mem_lines hmessage (Reading.lineFeed_notMem_raw h) hfile
        hshown hline
    · rw [List.mem_singleton.mp hline]
      exact List.not_mem_nil

/-- What a check writes is the lines of its reports, each with a line feed behind it. -/
theorem splitOn_reports {source : Text} (hfile : '\n' ∉ file) {told : List Problem}
    (htold : told ⊆ (Reading.ofText source).problems) {lines : Problem → List Text}
    (h : ∀ problem ∈ told, reportLines? palette concise file problem = some (lines problem)) :
    ((told.flatMap lines).flatMap fun line => line ++ ['\n']).splitOn '\n' =
      told.flatMap lines ++ [[]] := by
  refine Text.splitOn_flatMap fun line hline => ?_
  obtain ⟨problem, hproblem, hline⟩ := List.mem_flatMap.mp hline
  exact lineFeed_notMem_reportLines hfile (htold hproblem) (h problem hproblem) hline

theorem reportLines?_ne_nil {problem : Problem} {lines : List Text}
    (h : reportLines? palette concise file problem = some lines) : lines ≠ [] := by
  unfold reportLines? at h
  split at h
  · cases h
    exact List.cons_ne_nil _ _
  · obtain ⟨shown, -, rfl⟩ := Option.map_eq_some_iff.mp h
    simp

theorem reportLines?_of_fits {problem : Problem} (h : problem.diagnostic.Fits) :
    reportLines? palette false file problem =
      some (problem.diagnostic.concise palette file :: [] ::
        (problem.diagnostic.excerpt? palette).getD [] ++ [[]]) := by
  rw [reportLines?, Diagnostic.lines?_eq h, Diagnostic.excerpt?, if_pos h]
  rfl

theorem reportLines?_of_not_fits {problem : Problem} (h : ¬ problem.diagnostic.Fits) :
    reportLines? palette false file problem = none := by
  rw [reportLines?, Diagnostic.lines?_eq_none h]
  rfl

section ofCheck
variable (wording : Wording) (debug : Bool) {source : Text} {lines : Problem → List Text}

/-- A check in which each problem has a report. Its code tells whether it writes anything. -/
theorem ofCheck_of_forall (hfile : '\n' ∉ file)
    (h : ∀ problem ∈ (Reading.ofText source).problems,
      reportLines? palette concise file problem = some (lines problem)) :
    let outcome := ofCheck wording palette concise debug file source
    outcome.output.splitOn '\n' = (Reading.ofText source).problems.flatMap lines ++ [[]] ∧
      outcome.code = (if outcome.output = [] then 0 else 1) ∧
      outcome.code = validityCode (Reading.ofText source) := by
  intro outcome
  have houtput : outcome.output =
      ((Reading.ofText source).problems.flatMap lines).flatMap fun line => line ++ ['\n'] := by
    simp [outcome, ofCheck, reportOnAll_of_forall h]
  have hcode : outcome.code = validityCode (Reading.ofText source) := by
    simp [outcome, ofCheck, reportOnAll_of_forall h]
  have hempty : (Reading.ofText source).isValid ↔ outcome.output = [] := by
    rw [Reading.isValid, List.isEmpty_iff, houtput, List.flatMap_eq_nil_iff,
      List.eq_nil_iff_forall_not_mem]
    constructor
    · intro hnone line hline
      obtain ⟨problem, hproblem, -⟩ := List.mem_flatMap.mp hline
      exact absurd hproblem (hnone problem)
    · intro hnone problem hproblem
      obtain ⟨line, more, hlines⟩ :=
        List.exists_cons_of_ne_nil (reportLines?_ne_nil (h problem hproblem))
      have hline : line ∈ (Reading.ofText source).problems.flatMap lines :=
        List.mem_flatMap.mpr ⟨problem, hproblem, by simp [hlines]⟩
      simpa using hnone line hline
  refine ⟨?_, ?_, hcode⟩
  · rw [houtput]
    exact splitOn_reports hfile (List.Subset.refl _) h
  · rw [hcode, validityCode, if_congr hempty rfl rfl]

/-- A check that breaks off at a problem with no report. -/
theorem ofCheck_of_append_cons (hfile : '\n' ∉ file) {told left : List Problem} {wide : Problem}
    (hproblems : (Reading.ofText source).problems = told ++ wide :: left)
    (h : ∀ problem ∈ told, reportLines? palette concise file problem = some (lines problem))
    (hwide : reportLines? palette concise file wide = none) :
    let outcome := ofCheck wording palette concise debug file source
    outcome.output.splitOn '\n' = told.flatMap lines ++ [[]] ∧ outcome.code = breakCode := by
  intro outcome
  have htold : told ⊆ (Reading.ofText source).problems := by
    rw [hproblems]
    exact List.subset_append_left _ _
  have houtput : outcome.output = (told.flatMap lines).flatMap fun line => line ++ ['\n'] := by
    simp [outcome, ofCheck, hproblems, reportOnAll_append_cons h hwide]
  rw [houtput]
  refine ⟨splitOn_reports hfile htold h, ?_⟩
  simp [outcome, ofCheck, hproblems, reportOnAll_append_cons h hwide]

end ofCheck

end Outcome

namespace Line

theorem ofSource_tabs {content : Text} (h : IsContent content) (depth number : Nat) :
    ofSource (List.replicate depth '\t' ++ content) number =
      ofSource (indented depth content) number := by
  have htabs : expandTabs (List.replicate depth '\t') = List.replicate (4 * depth) ' ' := by
    induction depth with
    | zero => rfl
    | succ depth ih =>
      rw [List.replicate_succ, ← List.singleton_append, expandTabs_append, ih, Nat.mul_succ,
        Nat.add_comm, List.replicate_add]
      rfl
  have hraw := raw_ofSource h depth number
  rw [ofSource, expandTabs_append, htabs, expandTabs_eq_self h.tab]
  rw [ofSource] at hraw ⊢
  rw [Line.mk.injEq]
  exact ⟨rfl, hraw.symm⟩

end Line

namespace Reading

/-- A script of a single indented line has that line out of place, and reads it as a trigger all the
same. -/
theorem problems_ofText_indented {content : Text} (h : Line.IsContent content)
    (hfeed : '\n' ∉ content) {depth : Nat} (hdepth : 0 < depth) {line : Line}
    (hline : line = Line.ofSource (Line.indented depth content) 1) :
    (ofText (List.replicate depth '\t' ++ content)).problems =
      { line, cause := .indentation } :: (Trigger.read line).added := by
  have hnotMem : '\n' ∉ List.replicate depth '\t' ++ content := by simp [hfeed]
  have hne : List.replicate depth '\t' ++ content ≠ [] := by simp [h.ne_nil]
  have hblank : line.isBlank = false := by rw [hline, Line.isBlank_ofSource h]
  have hlines : Layout.contentLines (List.replicate depth '\t' ++ content) = [line] := by
    rw [Layout.contentLines, Text.lines_of_notMem hnotMem, if_neg hne]
    simp [Line.ofSource_tabs h, ← hline, hblank]
  have hroom : Layout.roomAfter [] < line.indent := by
    rw [hline, Line.indent_ofSource h]
    exact hdepth
  have hnil : Layout.WellPlaced [] := fun k hk => absurd hk.lt_length (Nat.not_lt_zero k)
  have hlayout := Layout.ofText_of_ne_nil (by rw [hlines]; exact List.cons_ne_nil _ _)
  rw [hlines, ← List.nil_append [line], Layout.ofLines_append_of_misplaced hnil hroom []]
    at hlayout
  rw [problems_ofText, hlayout]
  simp [Layout.problems, Layout.ofLines, Layout.start, Outline.push, Campaign.reports,
    Problem.isFatal, Outline.entries]

end Reading

namespace Invocation

/-- A check in the concise form writes one line for each problem. Otherwise it writes six, of which
the first is the concise one and the last is empty, for each problem up to the first whose column is
beyond the limit of widths. There the check breaks off with a code of its own. Where there is no
such problem both forms end with the same code, which is that of success where there is nothing to
report. The command that writes the document ends with the code of the concise form. -/
theorem outcome_check_lines {m : Type → Type} [Monad m] [LawfulMonad m] (wording : Wording)
    {load : Text → m (Except LoadError Text)} {file source : Text}
    (hload : load file = pure (.ok source)) (hfile : '\n' ∉ file) (colour debug : Bool) :
    let problems := (Reading.ofText source).problems
    let palette : Palette := if colour then .ansi else .plain
    let line (problem : Problem) := problem.diagnostic.concise palette file
    let block (problem : Problem) :=
      line problem :: [] :: (problem.diagnostic.excerpt? palette).getD [] ++ [[]]
    ∃ short long : Outcome,
      (check file true colour debug).outcome wording load = pure short ∧
      (check file false colour debug).outcome wording load = pure long ∧
      short.output.splitOn '\n' = problems.map line ++ [[]] ∧
      short.code = (if short.output = [] then 0 else 1) ∧
      (∀ style debug, ∃ parsed : Outcome,
        (parse file style debug).outcome wording load = pure parsed ∧ parsed.code = short.code) ∧
      (∀ problem : Problem, problem.diagnostic.column ≤ Text.widthLimit →
        (block problem).length = 6) ∧
      ((∀ problem ∈ problems, problem.diagnostic.column ≤ Text.widthLimit) →
        long.output.splitOn '\n' = problems.flatMap block ++ [[]] ∧
        long.code = (if long.output = [] then 0 else 1) ∧ long.code = short.code) ∧
      (∀ told wide left, problems = told ++ wide :: left →
        (∀ problem ∈ told, problem.diagnostic.column ≤ Text.widthLimit) →
        Text.widthLimit < wide.diagnostic.column →
        long.output.splitOn '\n' = told.flatMap block ++ [[]] ∧ long.code = 101) := by
  intro problems palette line block
  have hconcise : ∀ problem ∈ problems,
      Outcome.reportLines? palette true file problem = some [line problem] := fun _ _ => rfl
  have hfull {told : List Problem} (h : ∀ problem ∈ told, problem.diagnostic.Fits) :
      ∀ problem ∈ told, Outcome.reportLines? palette false file problem = some (block problem) :=
    fun problem hproblem => Outcome.reportLines?_of_fits (h problem hproblem)
  obtain ⟨hshort, hempty, hcode⟩ := Outcome.ofCheck_of_forall wording debug hfile hconcise
  refine ⟨.ofCheck wording palette true debug file source,
    .ofCheck wording palette false debug file source, ?_, ?_, ?_, hempty,
    fun style debug => ⟨.ofParse wording style debug source, ?_, hcode.symm⟩,
    fun problem hfits => ?_, fun hfits => ?_, fun told wide left hproblems hfits hwide => ?_⟩
  · rw [outcome, hload, pure_bind]
  · rw [outcome, hload, pure_bind]
  · rw [hshort]
    exact congrArg (· ++ [[]]) List.map_eq_flatMap.symm
  · rw [outcome, hload, pure_bind]
  · simp only [block, Diagnostic.excerpt?, if_pos (show problem.diagnostic.Fits from hfits)]
    rfl
  · obtain ⟨hlong, hnone, hsame⟩ := Outcome.ofCheck_of_forall wording debug hfile (hfull hfits)
    exact ⟨hlong, hnone, hsame.trans hcode.symm⟩
  · exact Outcome.ofCheck_of_append_cons wording debug hfile hproblems (hfull hfits)
      (Outcome.reportLines?_of_not_fits (Nat.not_le_of_lt hwide))

/-- Two problems of a script in a folder, the first on a line that has a carriage return and a line
separator within. -/
theorem outcome_check_lines_twice :
    let source : Text := "when a user a\nsing\rand\u2028hum\nwait for 1 x\r\n".toList
    let directory := Directory.ofPaths [] [("mail/a b".toList, (String.ofList source).toUTF8)]
    let wording : Wording := ⟨fun _ => [], fun _ => [], fun _ => [], []⟩
    let file : Text := "mail/a b".toList
    let load : Text → Id (Except LoadError Text) :=
      Source.load (fun name => pure (directory.read name)) (pure (.error .other))
    let sing : Text :=
      "error: mail/a b:2:1 \"sing\rand\u2028hum\" is not a valid campaign step.".toList
    let wait : Text := "error: mail/a b:3:1 \"x\" is not a valid wait unit.".toList
    ∃ short long parsed : Outcome,
      (check file true false true).outcome wording load = pure short ∧
      (check file false false true).outcome wording load = pure long ∧
      (parse file .compact false).outcome wording load = pure parsed ∧
      short.output.splitOn '\n' = [sing, wait, []] ∧
      long.output.splitOn '\n' =
        [sing, [], "    |".toList, "  2 | sing\rand\u2028hum".toList, "    | ^".toList, [],
          wait, [], "    |".toList, "  3 | wait for 1 x".toList, "    | ^".toList, [], []] ∧
      short.code = 1 ∧ long.code = 1 ∧ parsed.code = 1 := by
  intro source directory wording file load sing wait
  have hholds : directory.Holds ["mail".toList, "a b".toList] (String.ofList source).toUTF8 :=
    { names := by
        intro name hname
        rw [List.mem_cons, List.mem_singleton] at hname
        rcases hname with rfl | rfl <;> constructor <;> decide
      ne_nil := List.cons_ne_nil _ _
      short := by decide
      file := by rfl
      way := by decide }
  have hload : load file = pure (.ok source) := Source.load_of_holds hholds (by decide) _
  obtain ⟨short, long, hshort, hlong, hlines, hempty, hparse, -, hreports, -⟩ :=
    outcome_check_lines wording hload (by decide) false true
  obtain ⟨hblocks, -, hsame⟩ := hreports (by decide +kernel)
  obtain ⟨parsed, hparsed, hparsedCode⟩ := hparse .compact false
  have hshortLines : short.output.splitOn '\n' = [sing, wait, []] := by
    rw [hlines]
    decide +kernel
  have hcode : short.code = 1 := by
    rw [hempty, if_neg]
    intro hnone
    simp [hnone] at hshortLines
  refine ⟨short, long, parsed, hshort, hlong, hparsed, hshortLines, ?_, hcode, hsame.trans hcode,
    hparsedCode.trans hcode⟩
  rw [hblocks]
  decide +kernel

/-- A line that more than sixteen thousand tabs indent. The check writes nothing of the one problem
of the script and breaks off, where the command that writes the document ends as ever. -/
theorem outcome_check_breaks_off :
    let source : Text := List.replicate 16384 '\t' ++ "when a user a".toList
    let wording : Wording := ⟨fun _ => [], fun _ => [], fun _ => [], []⟩
    let file : Text := ['-']
    let load : Text → Id (Except LoadError Text) := fun _ => pure (.ok source)
    (Reading.ofText source).problems.length = 1 ∧
      ∃ long parsed : Outcome,
        (check file false false true).outcome wording load = pure long ∧
        (parse file .pretty false).outcome wording load = pure parsed ∧
        long.output.splitOn '\n' = [[]] ∧ long.code = 101 ∧ parsed.code = 1 := by
  intro source wording file load
  have hcontent : Line.IsContent "when a user a".toList := by
    constructor <;> decide
  obtain ⟨line, hline⟩ :
      ∃ line, line = Line.ofSource (Line.indented 16384 "when a user a".toList) 1 := ⟨_, rfl⟩
  have hvalid : (Trigger.read line).added = [] := by
    rw [Trigger.added_read, hline, Line.text_ofSource hcontent]
    rfl
  have hproblems : (Reading.ofText source).problems = [{ line, cause := .indentation }] := by
    rw [Reading.problems_ofText_indented hcontent (by decide) (by decide) hline, hvalid]
  have hwide : ¬ (Problem.diagnostic { line, cause := .indentation }).Fits := by
    have hraw : line = ⟨1, List.replicate 65536 ' ' ++ "when a user a".toList⟩ :=
      hline.trans (congrArg (Line.mk 1) (Line.raw_ofSource hcontent 16384 1))
    have hcolumn : (Problem.diagnostic { line, cause := .indentation }).column = 65537 := by
      rw [hraw]
      exact Diagnostic.column_of_spaces (by decide)
    rw [Diagnostic.Fits, hcolumn]
    decide
  have hinvalid : (Reading.ofText source).isValid = false := by
    rw [Reading.isValid, hproblems]
    rfl
  have hbefore : ∀ problem ∈ ([] : List Problem),
      Outcome.reportLines? .plain false file problem = some [] := List.forall_mem_nil _
  obtain ⟨hlong, hcode⟩ := Outcome.ofCheck_of_append_cons wording true (by decide)
    (hproblems.trans (List.nil_append _).symm) hbefore (Outcome.reportLines?_of_not_fits hwide)
  refine ⟨by rw [hproblems]; rfl, _, _, rfl, rfl, hlong, hcode, ?_⟩
  rw [Outcome.ofParse, Outcome.validityCode, hinvalid]
  rfl

end Invocation

end CampaignScript
