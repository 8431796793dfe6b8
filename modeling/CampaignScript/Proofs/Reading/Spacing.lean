import CampaignScript.Proofs.Outline.Spacing
import CampaignScript.Proofs.Reading.Mapping

/-! Scripts that differ in white space only. What their layout does not show, the readers do not
see, and what shows in a line as it is written only, comes back only where a problem quotes it. -/
namespace CampaignScript

theorem Line.keepsReading_bare : KeepsReading bare where
  text := text_bare
  gap _ _ := Iff.rfl

/-- What a problem tells, apart from its line as it is written. -/
def Problem.notice (problem : Problem) : Nat × Reason × Text :=
  (problem.line.number, problem.reason, problem.message)

theorem Problem.notice_bare (problem : Problem) :
    (problem.map Line.bare).notice = problem.notice := by
  rw [notice, notice, message_map Line.keepsReading_bare]
  rfl

namespace Reading

/-- How a script is laid out in white space does not matter. It is read as it is with four spaces
for each tab, and with other blank lines for its blank lines; without carriage returns, it is read
as it is with one before each line feed and with a line feed behind it. White space that is put
behind the content of lines, or taken from there, shows in the lines that its problems quote, and
nowhere else. -/
theorem ofText_spacing (source : Text) :
    ofText (source.flatMap fun c => if c = '\t' then "    ".toList else [c]) = ofText source ∧
    (∀ edited : Text,
      List.Forall₂ Text.SameOrBlank (source.splitOn '\n') (edited.splitOn '\n') →
      ofText edited = ofText source) ∧
    ('\r' ∉ source →
      ofText (source.flatMap fun c => if c = '\n' then "\r\n".toList else [c]) = ofText source ∧
      ofText (source ++ ['\n']) = ofText source) ∧
    ∀ edited : Text,
      (edited.splitOn '\n').map Text.trimEnd = (source.splitOn '\n').map Text.trimEnd →
      (ofText edited).campaign = (ofText source).campaign ∧
      (ofText edited).problems.map Problem.notice =
        (ofText source).problems.map Problem.notice := by
  have hsame {edited : Text} (h : Layout.contentLines edited = Layout.contentLines source) :
      ofText edited = ofText source := by
    rw [ofText, Layout.ofText_of_contentLines_eq h]
    rfl
  refine ⟨hsame (Layout.contentLines_expandTabs source),
    fun edited h => hsame (Layout.contentLines_of_sameOrBlank h),
    fun h => ⟨hsame (Layout.contentLines_flatMap_lineFeed h),
      hsame (Layout.contentLines_concat_lineFeed h)⟩, fun edited h => ?_⟩
  have hlayout := Layout.map_ofText_of_map_contentLines_eq Line.indent_bare
    (Layout.map_bare_contentLines h)
  obtain ⟨hcampaign, hproblems⟩ := ofText_of_map_eq Line.keepsReading_bare hlayout
  have hnotice := congrArg (List.map Problem.notice) hproblems
  rw [List.map_map, List.map_map] at hnotice
  simp only [Function.comp_def, Problem.notice_bare] at hnotice
  exact ⟨hcampaign, hnotice⟩

/-- One script in four spellings, with a gap in a value and with two lines that are no steps. The
spaces behind the first of these are quoted, and nothing else tells the spellings apart. -/
theorem ofText_spacing_spellings :
    let source : Text := "every monday at 1pm\n\nsend the A email\n\tb: c\n\n\t\td\nsing\nif".toList
    let blanked : Text :=
      "every monday at 1pm\n\t\r\nsend the A email\n\tb: c\n \u2003\n\t\td\nsing\nif".toList
    let returned : Text :=
      "every monday at 1pm\r\n\r\nsend the A email\r\n\tb: c\r\n\r\n\t\td\r\nsing\r\nif".toList
    let padded : Text :=
      "every monday at 1pm\t\n\nsend the A email\r\n\tb: c \u2003\n\n\t\td\nsing  \nif\r".toList
    let campaign : Campaign :=
      ⟨some (.recurring (some [.monday]) (some [⟨13, 0⟩])),
        [.email "a".toList [⟨"b".toList, "c\nd".toList⟩], .unrecognized, .unrecognized]⟩
    ofText source = ⟨campaign, [⟨⟨7, "sing".toList⟩, .step⟩, ⟨⟨8, "if".toList⟩, .step⟩]⟩ ∧
      ofText blanked = ofText source ∧ ofText returned = ofText source ∧
      ofText (source ++ ['\n']) = ofText source ∧ (ofText padded).campaign = campaign ∧
      (ofText padded).problems.map Problem.notice =
        [(7, .step, "\"sing\" is not a valid campaign step.".toList),
          (8, .step, "\"if\" is not a valid campaign step.".toList)] := by
  intro source blanked returned padded campaign
  obtain ⟨-, hblank, hreturn, hspace⟩ := ofText_spacing source
  obtain ⟨hreturned, hended⟩ := hreturn (by decide)
  obtain ⟨hcampaign, hproblems⟩ := hspace padded (by decide +kernel)
  refine ⟨by decide +kernel, hblank blanked (by decide +kernel), ?_, hended, ?_, ?_⟩
  · exact hreturned
  · rw [hcampaign]
    decide +kernel
  · rw [hproblems]
    decide +kernel

end Reading

end CampaignScript
