import CampaignScript.Proofs.Campaign.Identifier
import CampaignScript.Proofs.Reading.RoundTrip

/-! What is read from a valid script can be expressed: the readers give nothing else, where they
report nothing. So a valid script can be replaced by the one that its campaign is spelled in. -/
namespace CampaignScript

open Text

namespace Layout

theorem isParagraph_of_mem_contentLines {source : Text} {line : Line}
    (h : line ∈ contentLines source) : line.text.IsParagraph := by
  obtain ⟨hmem, hblank⟩ := List.mem_filter.mp h
  obtain ⟨⟨text, number⟩, hnumbered, rfl⟩ := List.mem_map.mp hmem
  have hfeed := lineFeed_notMem_of_mem_lines (List.fst_mem_of_mem_zipIdx hnumbered)
  refine ⟨⟨fun htab => ?_, fun hmem => ?_⟩, by simpa [Line.isBlank] using hblank, trim_trim _⟩
  · exact Line.tab_notMem_raw text number (mem_of_mem_trim htab)
  · exact Line.lineFeed_notMem_raw hfeed number (mem_of_mem_trim hmem)

/-- Where no line is out of place, each line of the layout is one with content. -/
theorem forall_isParagraph {source : Text} (hne : contentLines source ≠ [])
    (h : (Layout.ofText source).problems = []) :
    (Layout.ofText source).outline.Forall fun line => line.text.IsParagraph := by
  have hplaced : WellPlaced (contentLines source) := by
    by_contra hplaced
    obtain ⟨kept, line, dropped, hsplit, hkept, hroom⟩ := exists_first_misplaced hplaced
    have hmisplaced := (ofLines_of_misplaced hkept hroom dropped).2
    rw [ofText_of_ne_nil hne, hsplit, problems, hmisplaced] at h
    contradiction
  rw [ofText_of_ne_nil hne]
  apply Outline.forall_of_listing
  rw [(Follows.ofLines hplaced).listing]
  exact List.forall_mem_map.mpr fun line hline => isParagraph_of_mem_contentLines hline

end Layout

namespace CustomField

theorem isValue_of_isParagraph {text : Text} (h : text.IsParagraph) : IsValue text :=
  ⟨[text], by simp, by simpa using h⟩

theorem IsValue.exists_last {value : Text} (h : IsValue value) (hne : value ≠ []) :
    ∃ (front : List Text) (last : Text), value = ['\n'].intercalate (front ++ [last]) ∧
      (∀ text ∈ front, text.IsParagraph) ∧ last.IsParagraph := by
  obtain ⟨paragraphs, rfl, hparagraphs⟩ := h
  rcases List.eq_nil_or_concat paragraphs with rfl | ⟨front, last, rfl⟩
  · exact absurd rfl hne
  · rw [List.concat_eq_append, List.forall_mem_append, List.forall_mem_singleton] at hparagraphs
    exact ⟨front, last, by rw [List.concat_eq_append], hparagraphs⟩

theorem IsValue.append_paragraph {value text : Text} (h : IsValue value) (hne : value ≠ [])
    (htext : text.IsParagraph) : IsValue (value ++ ['\n'] ++ text) := by
  obtain ⟨front, last, rfl, hfront, hlast⟩ := h.exists_last hne
  refine ⟨front ++ [last] ++ [text], ?_, ?_⟩
  · rw [intercalate_concat, intercalate_concat]
    simp
  · simp only [List.forall_mem_append, List.forall_mem_singleton]
    exact ⟨⟨hfront, hlast⟩, htext⟩

theorem IsValue.append_words {value text : Text} (h : IsValue value) (hne : value ≠ [])
    (htext : text.IsParagraph) : IsValue (value ++ [' '] ++ text) := by
  obtain ⟨front, last, rfl, hfront, hlast⟩ := h.exists_last hne
  refine ⟨front ++ [last ++ [' '] ++ text], ?_, ?_⟩
  · rw [intercalate_concat, intercalate_concat]
    simp
  · rw [List.forall_mem_append, List.forall_mem_singleton]
    exact ⟨hfront, hlast.append htext⟩

/-- Each further line is a new paragraph or goes on with the last one. -/
theorem IsValue.continueValue {value : Text} (h : IsValue value) {lines : List Line}
    (hlines : ∀ line ∈ lines, line.text.IsParagraph) (previous : Nat) :
    IsValue (continueValue previous value lines) := by
  induction lines generalizing previous value with
  | nil => exact h
  | cons line lines ih =>
    obtain ⟨hline, hlines⟩ := List.forall_mem_cons.mp hlines
    rw [CustomField.continueValue]
    apply ih _ hlines
    split_ifs with hempty hgap
    · rw [List.isEmpty_iff.mp hempty]
      exact isValue_of_isParagraph hline
    · exact h.append_paragraph (by simpa using hempty) hline
    · exact h.append_words (by simpa using hempty) hline

/-- A field that was read without a problem can be expressed. -/
theorem expressible_of_read {entry : Entry} (hline : entry.line.text.IsParagraph)
    (hnested : ∀ line ∈ entry.nested.lines, line.text.IsParagraph)
    (hadded : (CustomField.read entry).added = []) :
    (CustomField.read entry).value.Expressible := by
  rw [added_read] at hadded
  rw [value_read]
  rcases hsplit : splitAtChar? ':' entry.line.text with _ | ⟨_ | ⟨c, key⟩, value⟩
  · rw [hsplit] at hadded
    contradiction
  · rw [hsplit] at hadded
    contradiction
  · obtain ⟨htext, hcolon⟩ := splitAtChar?_eq_some_iff.mp hsplit
    have hspace := isSpace_of_trim_eq_cons (hline.trim.trans htext)
    have hkey : (c :: key) ⊆ entry.line.text := by
      rw [htext]
      exact List.subset_append_left _ _
    have hvalue : value ⊆ entry.line.text := by
      rw [htext]
      exact List.Subset.trans (List.subset_cons_self ':' value) (List.subset_append_right _ _)
    have htrim : Text.trimEnd (c :: key) ⊆ c :: key := (trimEnd_isPrefix _).subset
    have hinline := hline.inline.of_subset (List.Subset.trans htrim hkey)
    refine ⟨⟨hinline, trimEnd_cons_ne_nil hspace key, ?_⟩, ?_, ?_⟩
    · rw [trim_eq_self_iff]
      refine ⟨trimStart_trimEnd ?_, trimEnd_trimEnd _⟩
      rw [trimStart_eq_self_iff]
      simpa using hspace
    · exact fun hmem => hcolon (htrim hmem)
    · apply IsValue.continueValue _ hnested
      by_cases hempty : value.trim = []
      · rw [hempty]
        exact .nil
      · have hinline := hline.inline.of_subset hvalue
        exact isValue_of_isParagraph
          ⟨hinline.of_subset fun _ => mem_of_mem_trim, hempty, trim_trim value⟩

end CustomField

namespace Trigger

/-- A trigger that was read without a problem can be expressed. -/
theorem expressible_of_read {line : Line} (hline : line.text.IsParagraph)
    (hadded : (Trigger.read line).added = []) :
    ∃ trigger, (Trigger.read line).value = some trigger ∧ trigger.Expressible := by
  rw [added_read] at hadded
  rw [value_read]
  rcases hsentence : TriggerSentence.ofText? line.text with
    _ | (type | ⟨days, times⟩ | ⟨date, time⟩)
  · rw [hsentence] at hadded
    contradiction
  · obtain ⟨opening, htext⟩ := TriggerSentence.eq_of_ofText?_event hsentence
    have hending := hline.isEnding
    rw [htext] at hending
    exact ⟨_, rfl, hending.of_append_space opening⟩
  · rw [hsentence, List.append_eq_nil_iff, Session.added_accept, Session.added_accept] at hadded
    rcases hdays : Weekday.ofEnumeration days with words | weekdays
    · rw [hdays] at hadded
      exact absurd hadded.1 (List.cons_ne_nil _ _)
    · rcases htimes : TimeOfDay.ofEnumeration times with words | hours
      · rw [htimes] at hadded
        exact absurd hadded.2 (List.cons_ne_nil _ _)
      · obtain ⟨hhours, hshown⟩ := TimeOfDay.isShown_of_ofEnumeration htimes
        refine ⟨_, rfl, ?_⟩
        rw [hdays, htimes]
        exact ⟨Weekday.ne_nil_of_ofEnumeration hdays, hhours, hshown⟩
  · obtain ⟨hdate, opening, middle, htext⟩ := TriggerSentence.eq_of_ofText?_oneOff hsentence
    obtain ⟨first, date, rfl⟩ := List.exists_cons_of_ne_nil hdate
    refine ⟨_, rfl, ?_⟩
    have hending := hline.isEnding
    rw [htext] at hending
    have hdate : IsInline (first :: date) := by
      refine hending.inline.of_subset fun c hc => ?_
      simp only [List.mem_append]
      exact .inl (.inl (.inr hc))
    have hspace : IsInline [' '] := by decide
    have hmoment := (hending.of_append_space _).append (hdate.append hspace)
    have hmem : ' ' ∈ date ++ ' ' :: time := List.mem_append_right date List.mem_cons_self
    obtain ⟨before, after, hsplit, hbefore⟩ := List.eq_append_cons_of_mem hmem
    rw [List.append_assoc, List.cons_append, List.singleton_append, hsplit] at hmoment
    have hafter := IsEnding.of_append_space (first :: before) hmoment
    refine ⟨first, before, after, ?_, ?_, hbefore, hafter⟩
    · rw [List.cons_append, hsplit]
      rfl
    · exact hmoment.inline.of_subset (List.subset_append_left (first :: before) _)

end Trigger

namespace WaitTime

theorem value_of_added_eq_nil {line : Line} {amount unit : Text}
    (hadded : (WaitTime.read line amount unit).added = []) :
    ∃ minutes, (WaitTime.read line amount unit).value = some minutes ∧ minutes < limit := by
  rw [added_read] at hadded
  rw [value_read]
  rcases hamount : amount? amount with _ | number <;>
    rcases hunit : WaitUnit.ofName? unit with _ | unit'
  · simp [hamount, hunit] at hadded
  · simp [hamount, hunit] at hadded
  · simp [hamount, hunit] at hadded
  · rcases hminutes : bounded? (number * unit'.minutes) with _ | minutes
    · simp [hamount, hunit, hminutes] at hadded
    · exact ⟨minutes, hminutes, (bounded?_eq_some_iff.mp hminutes).2⟩

end WaitTime

namespace Step

/-- A step that was read without a problem can be expressed. -/
theorem expressible_of_read {entry : Entry} (hline : entry.line.text.IsParagraph)
    (hnested : entry.nested.Forall fun line => line.text.IsParagraph)
    (hadded : (Step.read entry).added = []) : (Step.read entry).value.Expressible := by
  rw [added_read] at hadded
  rw [value_read]
  rcases hsentence : StepSentence.ofText? entry.line.text with
    _ | (template | predicate | ⟨amount, unit⟩)
  · rw [hsentence] at hadded
    contradiction
  · rw [hsentence] at hadded
    obtain ⟨opening, closing, htext⟩ := StepSentence.eq_of_ofText?_email hsentence
    have htemplate : template.IsInline := by
      refine hline.inline.of_subset fun c hc => ?_
      rw [htext, List.mem_append, List.mem_append]
      exact .inl (.inr hc)
    refine ⟨htemplate.identifier, identifier_identifier template, ?_⟩
    refine List.forall_mem_map.mpr fun field hfield => ?_
    obtain ⟨hkey, hvalue⟩ := hnested.of_mem_entries hfield
    exact CustomField.expressible_of_read hkey (fun line => hvalue.of_mem_lines)
      (List.flatMap_eq_nil_iff.mp hadded field hfield)
  · obtain ⟨opening, htext⟩ := StepSentence.eq_of_ofText?_condition hsentence
    have hending := hline.isEnding
    rw [htext] at hending
    exact ⟨(hending.of_append_space opening).identifier, identifier_identifier predicate⟩
  · rw [hsentence] at hadded
    obtain ⟨minutes, hminutes, hlimit⟩ := WaitTime.value_of_added_eq_nil hadded
    show (wait _).Expressible
    rw [hminutes]
    exact hlimit

/-- The identifiers in a step. -/
def identifiers : Step → List Text
  | email template _ => [template]
  | condition predicate => [predicate]
  | _ => []

theorem Expressible.space_notMem {step : Step} (h : step.Expressible) {name : Text}
    (hname : name ∈ step.identifiers) : ' ' ∉ name := by
  cases step with
  | email template fields =>
    rw [List.mem_singleton.mp hname, ← h.2.1]
    exact space_notMem_identifier template
  | condition predicate =>
    rw [List.mem_singleton.mp hname, ← h.2]
    exact space_notMem_identifier predicate
  | wait minutes => exact absurd hname List.not_mem_nil
  | unrecognized => exact h.elim

end Step

namespace Reading

theorem expressible_of_isValid {source : Text} (h : (Reading.ofText source).isValid) :
    (Reading.ofText source).campaign.Expressible := by
  obtain ⟨line, nested, rest, houtline, hcampaign, hproblems⟩ := ofText_eq source
  rw [List.isEmpty_iff.mp h] at hproblems
  simp only [List.nil_eq, List.append_eq_nil_iff] at hproblems
  obtain ⟨⟨⟨hlayout, htrigger⟩, -⟩, hsteps⟩ := hproblems
  have hne : Layout.contentLines source ≠ [] := by
    intro hnil
    rw [Layout.ofText_of_eq_nil hnil, Outline.entry.injEq] at houtline
    rw [← houtline.1] at htrigger
    exact absurd htrigger (by decide)
  have hlines := Layout.forall_isParagraph hne hlayout
  rw [houtline] at hlines
  obtain ⟨hline, -, hrest⟩ := hlines
  rw [hcampaign]
  refine ⟨Trigger.expressible_of_read hline htrigger, ?_⟩
  refine List.forall_mem_map.mpr fun entry hentry => ?_
  obtain ⟨hstep, hnested⟩ := hrest.of_mem_entries hentry
  exact Step.expressible_of_read hstep hnested (List.flatMap_eq_nil_iff.mp hsteps entry hentry)

/-- The campaigns that can be expressed are those that valid scripts are read as. -/
theorem expressible_iff {campaign : Campaign} :
    campaign.Expressible ↔ ∃ source, ofText source = { campaign, problems := [] } := by
  constructor
  · intro h
    obtain ⟨script, -, hread⟩ := h.exists_script
    exact ⟨script, hread⟩
  · rintro ⟨source, hread⟩
    have hvalid : (ofText source).isValid := by
      rw [hread]
      rfl
    have h := expressible_of_isValid hvalid
    rwa [hread] at h

/-- What a valid script is read as can be expressed, and the script that it is spelled in is read
like the first one. -/
theorem ofText_respelling {source : Text} (h : (ofText source).isValid) :
    (ofText source).campaign.Expressible ∧
      (∀ step ∈ (ofText source).campaign.steps, ∀ name ∈ step.identifiers, ' ' ∉ name) ∧
      (ofText source).campaign.spell?.map ofText = some (ofText source) := by
  have hexpressible := expressible_of_isValid h
  obtain ⟨script, hspell, hread⟩ := hexpressible.exists_script
  refine ⟨hexpressible, fun step hstep name => ?_, ?_⟩
  · exact (hexpressible.2 step hstep).space_notMem
  · rw [hspell, Option.map_some, hread, ← List.isEmpty_iff.mp h]

/-- Letter case, tabs, the ends of lines and the breaks inside a value are not kept in the new
script, and nothing is lost by that. -/
theorem ofText_respelling_mixed :
    let source : Text := ("EVERY Monday, and FRIDAY at 12am and 3.30PM \n" ++
      "Send The ΣΑΣ İ Pack EMAIL with custom fields\n\tSubject : Hello\n\t\tthere \n\n" ++
      "\t\tagain\r\n\tcc:\nWait for +2.5 Days\nif  Subscribed\n").toList
    (ofText source).isValid ∧ (ofText source).campaign.Expressible ∧
      (ofText source).campaign.spell?.map ofText = some (ofText source) := by
  intro source
  have h : (ofText source).isValid := by decide +kernel
  obtain ⟨hexpressible, -, hread⟩ := ofText_respelling h
  exact ⟨h, hexpressible, hread⟩

end Reading

end CampaignScript
