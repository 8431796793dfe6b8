import CampaignScript.Proofs.Reading.Accounting
import CampaignScript.Proofs.Reading.Spelling

/-! Every campaign that a script can express has one, and the script is read as that campaign. -/
namespace CampaignScript

open Text

namespace Reading

/-- The reading of a script that nothing is misplaced in or nested under the trigger of. -/
theorem ofText_of_outline {source : Text} {line : Line} {rest : Outline}
    (houtline : (Layout.ofText source).outline = .entry line .empty rest)
    (hproblems : (Layout.ofText source).problems = []) :
    ofText source =
      { campaign :=
          { trigger := (Trigger.read line).value
            steps := rest.entries.map fun entry => (Step.read entry).value }
        problems := (Trigger.read line).added ++
          rest.entries.flatMap fun entry => (Step.read entry).added } := by
  obtain ⟨line', nested, rest', houtline', hcampaign, hreading⟩ := ofText_eq source
  rw [houtline, Outline.entry.injEq] at houtline'
  obtain ⟨rfl, rfl, rfl⟩ := houtline'
  have hnesting : Campaign.nestingProblems ⟨line, .empty⟩ [] = [] := rfl
  rw [hproblems, hnesting, List.nil_append, List.append_nil] at hreading
  rw [← hcampaign, ← hreading]

end Reading

namespace Campaign

theorem spell?_eq {campaign : Campaign} {trigger : Trigger} {content : Text}
    {written : List (List Text)} (htrigger : campaign.trigger = some trigger)
    (hcontent : trigger.spell? = some content)
    (hwritten : campaign.steps.mapM Step.spell? = some written) :
    campaign.spell? = some ((content :: written.flatten).flatMap fun line => line ++ ['\n']) := by
  simp only [spell?, htrigger, hcontent, hwritten, Option.bind_eq_bind, Option.bind_some]

theorem Expressible.exists_script {campaign : Campaign} (h : campaign.Expressible) :
    ∃ script, campaign.spell? = some script ∧ Reading.ofText script = ⟨campaign, []⟩ := by
  obtain ⟨⟨trigger, htrigger, hexpressible⟩, hsteps⟩ := h
  obtain ⟨content, hcontent⟩ := hexpressible.exists_spelling
  obtain ⟨written, hwritten, hlines, hspells⟩ := Step.exists_spellings hsteps
  obtain ⟨rest, hrest, hvalues, hadded⟩ := Spells.exists_outline hspells 2
  refine ⟨_, spell?_eq htrigger hcontent.spell? hwritten, ?_⟩
  have hscript := lines_flatMap (List.forall_mem_cons.mpr ⟨hcontent.isEnding.isLine, hlines⟩)
  have hisContent := Line.isContent_of_isEnding hcontent.trimStart hcontent.isEnding
  have htext : (Line.ofSource content 1).text = content :=
    (Line.text_ofSource hisContent 0 1).trans hcontent.isEnding.trimEnd
  have hwhole : Outline.WrittenAs 0 1 (.entry (Line.ofSource content 1) .empty rest)
      (content :: written.flatten) := .entry hisContent (.empty 1 2) hrest
  obtain ⟨houtline, hproblems⟩ := Outline.WrittenAs.ofText Outline.noConfusion (hscript ▸ hwhole)
  obtain ⟨hvalue, hreported⟩ := hcontent.read _ htext
  rw [Reading.ofText_of_outline houtline hproblems, hvalue, hvalues, hreported, hadded, ← htrigger]
  rfl

end Campaign

namespace Reading

/-- A campaign that can be expressed is spelled in a script, and the script is read as that campaign
without a problem. -/
theorem ofText_spelling {campaign : Campaign} (h : campaign.Expressible) :
    campaign.spell?.map ofText = some { campaign, problems := [] } := by
  obtain ⟨script, hspell, hread⟩ := h.exists_script
  rw [hspell, Option.map_some, hread]

/-- Fixed words inside the free ones do no harm: a moment with "at" in it, a template that ends in
"email". -/
theorem ofText_spelling_fixed_words :
    let campaign : Campaign :=
      { trigger := some (.oneOff " first at noon at last".toList)
        steps := [.email "my_email".toList
            [⟨"to whom".toList, "Dear: all\nif so".toList⟩, ⟨"cc".toList, []⟩],
          .condition "new_at_heart".toList, .wait (some 4294967295)] }
    campaign.Expressible ∧ campaign.spell?.map ofText = some { campaign, problems := [] } := by
  intro campaign
  have hvalue : CustomField.IsValue "Dear: all\nif so".toList :=
    ⟨["Dear: all".toList, "if so".toList], by decide, by decide⟩
  have hmoment : Trigger.Expressible (.oneOff " first at noon at last".toList) :=
    ⟨' ', "first".toList, "at noon at last".toList, by decide, by decide, by decide, by decide⟩
  have h : campaign.Expressible := by
    refine ⟨⟨_, rfl, hmoment⟩, ?_⟩
    simp only [campaign, List.forall_mem_cons]
    refine ⟨⟨by decide, by decide +kernel, ?_⟩, ⟨by decide, by decide +kernel⟩, ?_, by simp⟩
    · simp only [List.forall_mem_cons]
      exact ⟨⟨by decide, by decide, hvalue⟩, ⟨by decide, by decide, .nil⟩, by simp⟩
    · show 4294967295 < WaitTime.limit
      decide
  exact ⟨h, ofText_spelling h⟩

end Reading

end CampaignScript
