import CampaignScript.Campaign.Spelling
import CampaignScript.Proofs.Campaign.Expressible
import CampaignScript.Proofs.Campaign.Sentence
import CampaignScript.Proofs.Outline.Writing
import CampaignScript.Proofs.Reading.Frame
import Mathlib.Data.List.Forall2

/-! The lines that triggers, fields and steps are spelled in are read as what they were spelled for,
and nothing is reported of them. -/
namespace CampaignScript

open Text

namespace Trigger

/-- Whether a trigger is spelled in a content, and every line with that content is read as it. -/
structure IsSpelledAs (trigger : Trigger) (content : Text) : Prop where
  spell? : trigger.spell? = some content
  trimStart : content.trimStart = content
  isEnding : content.IsEnding
  read : ∀ line : Line, line.text = content →
    (Trigger.read line).value = some trigger ∧ (Trigger.read line).added = []

theorem isSpelledAs_event {type : Text} (h : type.IsEnding) :
    IsSpelledAs (event type) ("when a user ".toList ++ type) := by
  have hopening : IsInline "when a user ".toList := by decide
  refine ⟨rfl, rfl, h.append hopening, fun line hline => ?_⟩
  rw [value_read, added_read, hline, TriggerSentence.ofText?_event h.inline.2]
  exact ⟨rfl, rfl⟩

theorem isSpelledAs_recurring {days : List Weekday} {times : List TimeOfDay} (hdays : days ≠ [])
    (htimes : times ≠ []) (hshown : ∀ time ∈ times, time.IsShown) :
    IsSpelledAs (recurring (some days) (some times))
      ("every ".toList ++ Enumeration.spell (days.map Weekday.name) ++ " at ".toList ++
        Enumeration.spell (times.map TimeOfDay.spell)) := by
  have hopening : IsInline "every ".toList := by decide
  have hmiddle : IsInline " at ".toList := by decide
  have hdays' := Enumeration.isEnding_spell (List.map_eq_nil_iff.not.mpr hdays)
    (List.forall_mem_map.mpr fun day _ => Weekday.isItem_name day)
  have htimes' := Enumeration.isEnding_spell (List.map_eq_nil_iff.not.mpr htimes)
    (List.forall_mem_map.mpr fun time _ => TimeOfDay.isItem_spell time)
  refine ⟨rfl, rfl, htimes'.append ((hopening.append hdays'.inline).append hmiddle),
    fun line hline => ?_⟩
  rw [value_read, added_read, hline, TriggerSentence.ofText?_recurring hdays'.inline.2
    htimes'.inline.2 (Weekday.unmet_spell days _)]
  simp only [Weekday.ofEnumeration_spell hdays, TimeOfDay.ofEnumeration_spell htimes hshown]
  exact ⟨rfl, rfl⟩

theorem isSpelledAs_oneOff {first : Char} {date time : Text} (hdate : IsInline (first :: date))
    (hspace : ' ' ∉ date) (htime : time.IsEnding) :
    IsSpelledAs (oneOff (first :: date ++ ' ' :: time))
      ("on ".toList ++ first :: date ++ " at ".toList ++ time) := by
  have hopening : IsInline "on ".toList := by decide
  have hmiddle : IsInline " at ".toList := by decide
  have hsplit := splitAtChar?_eq_some_iff.mpr ⟨rfl (a := date ++ ' ' :: time), hspace⟩
  refine ⟨?_, rfl, htime.append ((hopening.append hdate).append hmiddle), fun line hline => ?_⟩
  · rw [List.cons_append, Trigger.spell?, hsplit]
    rfl
  · rw [value_read, added_read, hline, TriggerSentence.ofText?_oneOff hdate.2 htime.inline.2 hspace]
    exact ⟨rfl, rfl⟩

theorem Expressible.exists_spelling {trigger : Trigger} (h : trigger.Expressible) :
    ∃ content, trigger.IsSpelledAs content := by
  rcases trigger with type | ⟨_ | days, _ | times⟩ | moment
  · exact ⟨_, isSpelledAs_event h⟩
  · exact h.elim
  · exact h.elim
  · exact h.elim
  · obtain ⟨hdays, htimes, hshown⟩ := h
    exact ⟨_, isSpelledAs_recurring hdays htimes hshown⟩
  · obtain ⟨first, date, time, rfl, hdate, hspace, htime⟩ := h
    exact ⟨_, isSpelledAs_oneOff hdate hspace htime⟩

end Trigger

/-- Whether lines, from any number on, are those of an entry that an item is read from. -/
def Spells {α : Type} (depth : Nat) (read : Entry → Session α) (item : α)
    (written : List Text) : Prop :=
  ∀ number, ∃ (content : Text) (inner : List Text) (nested : Outline),
    written = Line.indented depth content :: inner ∧ Line.IsContent content ∧
      nested.WrittenAs (depth + 1) (number + 1) inner ∧
      (read ⟨Line.ofSource (Line.indented depth content) number, nested⟩).value = item ∧
      (read ⟨Line.ofSource (Line.indented depth content) number, nested⟩).added = []

/-- Items that are written one behind the other are read one by one. -/
theorem Spells.exists_outline {α : Type} {depth : Nat} {read : Entry → Session α}
    {items : List α} {written : List (List Text)}
    (h : List.Forall₂ (Spells depth read) items written) (number : Nat) :
    ∃ outline : Outline, outline.WrittenAs depth number written.flatten ∧
      (outline.entries.map fun entry => (read entry).value) = items ∧
      (outline.entries.flatMap fun entry => (read entry).added) = [] := by
  induction h generalizing number with
  | nil => exact ⟨.empty, .empty depth number, rfl, rfl⟩
  | cons hitem hitems ih =>
    obtain ⟨content, inner, nested, rfl, hcontent, hnested, hvalue, hadded⟩ := hitem number
    obtain ⟨rest, hrest, hvalues, hproblems⟩ := ih (number + 1 + inner.length)
    refine ⟨.entry _ nested rest, .entry hcontent hnested hrest, ?_, ?_⟩
    · rw [Outline.entries, List.map_cons, hvalue, hvalues]
    · rw [Outline.entries, List.flatMap_cons, hadded, hproblems]
      rfl

namespace CustomField

theorem continueValue_of_gap {previous : Nat} {value : Text} {line : Line} (hvalue : value ≠ [])
    (hgap : previous + 1 < line.number) (rest : List Line) :
    continueValue previous value (line :: rest) =
      continueValue line.number (value ++ ['\n'] ++ line.text) rest := by
  have hempty : ¬ value.isEmpty = true := by simpa using hvalue
  rw [continueValue, if_neg hempty, if_pos hgap]

/-- Paragraphs behind empty lines continue a value by paragraphs. -/
theorem exists_continuation {paragraphs : List Text} (h : ∀ text ∈ paragraphs, text.IsParagraph)
    (previous : Nat) :
    ∃ nested : Outline, nested.WrittenAs 2 (previous + 1)
        (paragraphs.flatMap fun text => [[], Line.indented 2 text]) ∧
      ∀ value, (value = [] → paragraphs = []) →
        continueValue previous value nested.lines = value ++ paragraphs.flatMap (['\n'] ++ ·) := by
  induction paragraphs generalizing previous with
  | nil => exact ⟨.empty, .empty 2 _, fun value _ => (List.append_nil value).symm⟩
  | cons text paragraphs ih =>
    obtain ⟨htext, hparagraphs⟩ := List.forall_mem_cons.mp h
    obtain ⟨rest, hrest, hcontinue⟩ := ih hparagraphs (previous + 2)
    have hcontent := Line.isContent_of_isParagraph htext
    refine ⟨_, .blank (.entry hcontent (.empty 3 _) hrest), fun value hvalue => ?_⟩
    have hne : value ≠ [] := fun hnil => List.cons_ne_nil text paragraphs (hvalue hnil)
    show continueValue previous value (_ :: rest.lines) = _
    rw [continueValue_of_gap hne (Nat.lt_succ_self _), Line.text_ofSource hcontent,
      htext.isEnding.trimEnd]
    refine (hcontinue _ fun hnil => ?_).trans (by simp)
    simp at hnil

theorem read_of_text_eq (entry : Entry) {key value : Text} (hkey : key.IsParagraph)
    (hcolon : ':' ∉ key) (htext : entry.line.text = key ++ ':' :: value) :
    (CustomField.read entry).value =
        ⟨key, continueValue entry.line.number value.trim entry.nested.lines⟩ ∧
      (CustomField.read entry).added = [] := by
  have hsplit := splitAtChar?_eq_some_iff.mpr ⟨htext, hcolon⟩
  rw [value_read, added_read, hsplit]
  cases key with
  | nil => exact absurd rfl hkey.ne_nil
  | cons c key =>
    refine ⟨?_, rfl⟩
    simp only [hkey.isEnding.trimEnd]

theorem Expressible.exists_paragraphs {field : CustomField} (h : field.Expressible) :
    ∃ (first : Text) (paragraphs : List Text), field.value.splitOn '\n' = first :: paragraphs ∧
      field.value = first ++ paragraphs.flatMap (['\n'] ++ ·) ∧
      (first = [] → paragraphs = []) ∧ (first = [] ∨ first.IsParagraph) ∧
      ∀ text ∈ paragraphs, text.IsParagraph := by
  obtain ⟨_ | ⟨first, paragraphs⟩, hvalue, hparagraphs⟩ := h.value
  · exact ⟨[], [], by rw [hvalue]; rfl, hvalue, fun _ => rfl, .inl rfl, by simp⟩
  · obtain ⟨hfirst, hrest⟩ := List.forall_mem_cons.mp hparagraphs
    refine ⟨first, paragraphs, ?_, ?_, fun hnil => absurd hnil hfirst.ne_nil, .inr hfirst, hrest⟩
    · rw [hvalue]
      exact List.splitOn_intercalate '\n' (fun text htext => (hparagraphs text htext).inline.2)
        (List.cons_ne_nil first paragraphs)
    · rw [hvalue, intercalate_cons]

/-- The content of a field's line ends in the first paragraph of the value, or in the colon. -/
theorem exists_trimEnd_eq (key : Text) {first : Text} (hfirst : first = [] ∨ first.IsParagraph) :
    ∃ rest : Text, (key ++ ':' :: ' ' :: first).trimEnd = key ++ ':' :: rest ∧
      rest.trim = first := by
  rcases hfirst with rfl | hfirst
  · refine ⟨[], ?_, rfl⟩
    have hcolon : (key ++ [':']).trimEnd = key ++ [':'] :=
      trimEnd_append_of_ne_nil key rfl (List.cons_ne_nil ':' [])
    rw [List.append_cons]
    exact (List.rdropWhile_concat_pos isSpace _ _ rfl).trans hcolon
  · refine ⟨' ' :: first, ?_, ?_⟩
    · have hending := hfirst.isEnding
      have htrim := trimEnd_append_of_ne_nil (key ++ [':', ' ']) hending.trimEnd hending.ne_nil
      rwa [List.append_assoc] at htrim
    · rw [← hfirst.trim]
      exact (trim_replicate_append 1 _).trans (trim_trim first)

/-- A field is read from the lines that it is spelled in, whatever their place. -/
theorem Expressible.spells {field : CustomField} (h : field.Expressible) :
    Spells 1 CustomField.read field field.spell := by
  intro number
  obtain ⟨first, paragraphs, hsplit, hvalue, hempty, hfirst, hparagraphs⟩ := h.exists_paragraphs
  obtain ⟨nested, hnested, hcontinue⟩ := exists_continuation hparagraphs number
  have hcontent : Line.IsContent (field.key ++ ':' :: ' ' :: first) := by
    have htab : '\t' ∉ first := by
      rcases hfirst with rfl | hfirst
      · exact List.not_mem_nil
      · exact hfirst.inline.1
    refine ⟨by simp, ?_, trimStart_append_of_ne_nil h.key.trimStart h.key.ne_nil _⟩
    simp [h.key.inline.1, htab]
  refine ⟨field.key ++ ':' :: ' ' :: first, _, nested, ?_, hcontent, hnested, ?_⟩
  · rw [spell, hsplit]
    simp only [List.append_assoc]
    rfl
  · obtain ⟨rest, hrest, htrim⟩ := exists_trimEnd_eq field.key hfirst
    have htext := (Line.text_ofSource hcontent 1 number).trans hrest
    obtain ⟨hread, hadded⟩ := read_of_text_eq ⟨_, nested⟩ h.key h.colon htext
    have hjoin := (hcontinue first hempty).trans hvalue.symm
    refine ⟨hread.trans ?_, hadded⟩
    rw [htrim]
    exact congrArg (CustomField.mk field.key) hjoin

theorem Expressible.isLine_of_mem_spell {field : CustomField} (h : field.Expressible) {line : Text}
    (hline : line ∈ field.spell) : line.IsLine := by
  obtain ⟨first, paragraphs, hsplit, -, -, hfirst, hparagraphs⟩ := h.exists_paragraphs
  have hindent (depth : Nat) : IsInline (List.replicate (4 * depth) ' ') := by
    constructor <;> intro hmem <;> exact absurd (List.eq_of_mem_replicate hmem) (by decide)
  have hcolon : IsInline [':', ' '] := by decide
  have hfront := ((hindent 1).append h.key.inline).append hcolon
  rw [spell, hsplit, List.mem_cons, List.mem_flatMap] at hline
  rcases hline with rfl | ⟨paragraph, hparagraph, hline⟩
  · have hassoc (front : Text) : front ++ ':' :: ' ' :: first = front ++ [':', ' '] ++ first := by
      simp
    rw [hassoc]
    rcases hfirst with rfl | hfirst
    · rw [List.append_nil]
      refine ⟨hfront.2, ?_⟩
      rw [List.getLast?_append_of_ne_nil _ (List.cons_ne_nil ':' [' '])]
      decide
    · exact (hfirst.isEnding.append hfront).isLine
  · rcases List.mem_pair.mp hline with rfl | rfl
    · exact ⟨List.not_mem_nil, by simp⟩
    · exact ((hparagraphs paragraph hparagraph).isEnding.append (hindent 2)).isLine

end CustomField

namespace Step

/-- Whether a step is written in lines that it is read from, whatever their place. -/
structure IsSpelledAs (step : Step) (written : List Text) : Prop where
  spell? : step.spell? = some written
  isLine : ∀ line ∈ written, line.IsLine
  spells : Spells 0 Step.read step written

theorem isSpelledAs_of_text {step : Step} {content : Text} {inner : List Text}
    (hspell : step.spell? = some (content :: inner)) (hstart : content.trimStart = content)
    (hending : content.IsEnding) (hlines : ∀ line ∈ inner, line.IsLine)
    (hread : ∀ number, ∃ nested : Outline, nested.WrittenAs 1 number inner ∧
      ∀ line : Line, line.text = content → (Step.read ⟨line, nested⟩).value = step ∧
        (Step.read ⟨line, nested⟩).added = []) :
    IsSpelledAs step (content :: inner) := by
  refine ⟨hspell, List.forall_mem_cons.mpr ⟨hending.isLine, hlines⟩, fun number => ?_⟩
  have hcontent := Line.isContent_of_isEnding hstart hending
  obtain ⟨nested, hnested, hvalue⟩ := hread (number + 1)
  have htext := (Line.text_ofSource hcontent 0 number).trans hending.trimEnd
  exact ⟨content, inner, nested, rfl, hcontent, hnested, hvalue _ htext⟩

theorem isSpelledAs_email {template : Text} {fields : List CustomField}
    (htemplate : template.IsInline) (hidentifier : identifier template = template)
    (hfields : ∀ field ∈ fields, field.Expressible) :
    IsSpelledAs (email template fields)
      (("send the ".toList ++ template ++ " email".toList) ::
        fields.flatMap CustomField.spell) := by
  have hopening : IsInline "send the ".toList := by decide
  have hclosing : IsEnding " email".toList := by decide
  have hending := hclosing.append (hopening.append htemplate)
  refine isSpelledAs_of_text rfl rfl hending ?_ fun number => ?_
  · intro line hline
    obtain ⟨field, hfield, hline⟩ := List.mem_flatMap.mp hline
    exact (hfields field hfield).isLine_of_mem_spell hline
  · have hspells : List.Forall₂ (Spells 1 CustomField.read) fields (fields.map CustomField.spell) :=
      List.forall₂_map_right_iff.mpr (List.forall₂_same.mpr fun field hfield =>
        (hfields field hfield).spells)
    obtain ⟨nested, hnested, hvalues, hadded⟩ := Spells.exists_outline hspells number
    refine ⟨nested, hnested, fun line hline => ?_⟩
    rw [value_read, added_read, hline, StepSentence.ofText?_email htemplate.2]
    simp only [hvalues, hadded, hidentifier, and_self]

theorem isSpelledAs_condition {predicate : Text} (hpredicate : predicate.IsEnding)
    (hidentifier : identifier predicate = predicate) :
    IsSpelledAs (condition predicate) ["if ".toList ++ predicate] := by
  have hopening : IsInline "if ".toList := by decide
  refine isSpelledAs_of_text rfl rfl (hpredicate.append hopening) (by simp) fun number => ?_
  refine ⟨.empty, .empty 1 number, fun line hline => ?_⟩
  rw [value_read, added_read, hline, StepSentence.ofText?_condition hpredicate.inline.2]
  simp only [hidentifier, and_self]

theorem isSpelledAs_wait {minutes : Nat} (h : minutes < WaitTime.limit) :
    IsSpelledAs (wait (some minutes))
      ["wait for ".toList ++ numeral minutes ++ " minutes".toList] := by
  have hopening : IsInline "wait for ".toList := by decide
  have hclosing : IsEnding " minutes".toList := by decide
  have hnumeral := (isItem_numeral minutes).isEnding.inline
  have hending := hclosing.append (hopening.append hnumeral)
  refine isSpelledAs_of_text rfl rfl hending (by simp) fun number => ?_
  refine ⟨.empty, .empty 1 number, fun line hline => ?_⟩
  have hsentence : StepSentence.ofText? line.text =
      some (.wait (numeral minutes) "minutes".toList) := by
    rw [hline, List.append_assoc]
    exact StepSentence.ofText?_wait hnumeral.2 (by decide) (notMem_numeral rfl minutes)
  have hbounded : WaitTime.bounded? (minutes * WaitUnit.minute.minutes) = some minutes :=
    WaitTime.bounded?_eq_some_iff.mpr ⟨Nat.mul_one minutes, h⟩
  rw [value_read, added_read, hsentence]
  simp only [WaitTime.value_read, WaitTime.added_read, WaitTime.amount?_numeral h,
    WaitUnit.ofName?_minutes, Option.bind_some, hbounded]
  exact ⟨trivial, rfl⟩

theorem Expressible.exists_spelling {step : Step} (h : step.Expressible) :
    ∃ written, step.IsSpelledAs written := by
  rcases step with ⟨template, fields⟩ | predicate | (_ | minutes) | _
  · exact ⟨_, isSpelledAs_email h.1 h.2.1 h.2.2⟩
  · exact ⟨_, isSpelledAs_condition h.1 h.2⟩
  · exact h.elim
  · exact ⟨_, isSpelledAs_wait h⟩
  · exact h.elim

theorem exists_spellings {steps : List Step} (h : ∀ step ∈ steps, step.Expressible) :
    ∃ written, steps.mapM Step.spell? = some written ∧
      (∀ line ∈ written.flatten, line.IsLine) ∧
      List.Forall₂ (Spells 0 Step.read) steps written := by
  induction steps with
  | nil => exact ⟨[], rfl, by simp, .nil⟩
  | cons step steps ih =>
    obtain ⟨hstep, hsteps⟩ := List.forall_mem_cons.mp h
    obtain ⟨inner, hinner⟩ := hstep.exists_spelling
    obtain ⟨written, hwritten, hlines, hspells⟩ := ih hsteps
    refine ⟨inner :: written, ?_, ?_, .cons hinner.spells hspells⟩
    · rw [List.mapM_cons, hinner.spell?, hwritten]
      rfl
    · rw [List.flatten_cons]
      exact List.forall_mem_append.mpr ⟨hinner.isLine, hlines⟩

end Step

end CampaignScript
