import CampaignScript.Proofs.Outline.Gaps
import CampaignScript.Proofs.Reading.Paragraphs

/-! The line feeds of a field's value. The reader joins the lines of a value by a line feed where
their numbers have a gap. A blank line makes one, and so does a line nested under a line of the
value, which is not itself read. Where no line is nested so deep, the line feeds are those of the
blank lines. -/
namespace CampaignScript

open Text

/-- The entries that the fields of a campaign are read from: those directly under its emails. -/
def Outline.fields : Outline → List Entry
  | empty => []
  | entry _ _ steps => steps.entries.flatMap fun step =>
    match StepSentence.ofText? step.line.text with
    | some (.email _) => step.nested.entries
    | _ => []

namespace CustomField

/-- The content of entries, one behind the other, with a line feed between two of them that are
parted and a space between any other two. -/
def joinedWhere (IsParted : Entry → Entry → Prop) [DecidableRel IsParted] : List Entry → Text
  | [] => []
  | [piece] => piece.line.text
  | piece :: next :: rest =>
    piece.line.text ++
      (if IsParted piece next then '\n' else ' ') :: joinedWhere IsParted (next :: rest)

/-- The entries that a value goes on over: what is left of the field's own line behind the colon,
unless it is blank, and the entries nested under the field. -/
def pieceEntries (entry : Entry) (after : Text) : List Entry :=
  let first : Entry := { line := { entry.line with raw := after }, nested := .empty }
  if first.line.isBlank then entry.nested.entries else first :: entry.nested.entries

theorem joinedWhere_congr {IsParted IsParted' : Entry → Entry → Prop} [DecidableRel IsParted]
    [DecidableRel IsParted'] {pieces : List Entry}
    (h : pieces.IsChain fun piece next => IsParted piece next ↔ IsParted' piece next) :
    joinedWhere IsParted pieces = joinedWhere IsParted' pieces := by
  induction pieces with
  | nil => rfl
  | cons piece pieces ih =>
    cases pieces with
    | nil => rfl
    | cons next rest =>
      obtain ⟨hparted, hrest⟩ := List.isChain_cons_cons.mp h
      rw [joinedWhere, joinedWhere, ih hrest]
      simp only [hparted]

/-- Whether there is a gap between the numbers of two entries. -/
def IsGap (piece next : Entry) : Prop :=
  piece.line.number + 1 < next.line.number

instance : DecidableRel IsGap :=
  fun _ _ => inferInstanceAs (Decidable (_ < _))

theorem continueValue_eq_joinedWhere {piece : Entry} {rest : List Entry}
    (hne : piece.line.text ≠ []) (hrest : ∀ entry ∈ rest, entry.line.text ≠ []) :
    continueValue piece.line.number piece.line.text (rest.map Entry.line) =
      joinedWhere IsGap (piece :: rest) := by
  induction rest generalizing piece with
  | nil => rfl
  | cons next rest ih =>
    obtain ⟨hnext, hrest⟩ := List.forall_mem_cons.mp hrest
    have hempty : piece.line.text.isEmpty = false := by simpa using hne
    rw [List.map_cons, continueValue, hempty, if_neg Bool.false_ne_true,
      continueValue_append _ _ hnext, ih hnext hrest, joinedWhere, List.append_assoc]
    by_cases hgap : piece.line.number + 1 < next.line.number
    · rw [if_pos hgap, if_pos (show IsGap piece next from hgap)]
      rfl
    · rw [if_neg hgap, if_neg (show ¬ IsGap piece next from hgap)]
      rfl

theorem map_line_pieceEntries (entry : Entry) (after : Text) :
    (pieceEntries entry after).map Entry.line = pieces entry after := by
  rw [pieceEntries, pieces]
  split_ifs <;> rfl

theorem continueValue_pieceEntries {entry : Entry} (after : Text)
    (htext : ∀ line ∈ entry.nested.lines, line.text ≠ []) :
    continueValue entry.line.number after.trim entry.nested.lines =
      joinedWhere IsGap (pieceEntries entry after) := by
  have hlines := map_line_pieceEntries entry after
  obtain ⟨hnone, hvalue⟩ | ⟨line, rest, hsome, htexts, hvalue⟩ :=
    continueValue_eq_of_pieces after htext
  · rw [hnone, List.map_eq_nil_iff] at hlines
    rw [hvalue, hlines, joinedWhere]
  · rw [hsome, List.map_eq_cons_iff] at hlines
    obtain ⟨piece, more, hpieces, rfl, rfl⟩ := hlines
    rw [List.forall_mem_cons, List.forall_mem_map] at htexts
    rw [hvalue, hpieces, continueValue_eq_joinedWhere htexts.1 htexts.2]

/-- Nothing is nested between a field's own line and the first line under it. -/
theorem isChain_pieceEntries {source : Text} {entry : Entry}
    (h : entry ∈ (Layout.ofText source).outline.everyEntry) (after : Text) :
    (pieceEntries entry after).IsChain fun piece next => IsGap piece next ↔
      Layout.HasBlankBetween source piece.line.number next.line.number ∨ piece.nested ≠ .empty := by
  rw [pieceEntries]
  rcases Layout.entry_isInfix_contentLines h with rfl | hinside
  · split_ifs
    · exact .nil
    · exact .singleton _
  · have hchain := Layout.isChain_entries ((List.suffix_cons _ _).isInfix.trans hinside)
    split_ifs
    · exact hchain
    · obtain ⟨own, nested⟩ := entry
      cases nested with
      | empty => exact .singleton _
      | entry line nested rest =>
        refine List.isChain_cons_cons.mpr ⟨?_, hchain⟩
        have hfirst : own :: [] ++ [line] <:+: Layout.contentLines source :=
          List.IsInfix.trans ⟨[], nested.preorder ++ rest.preorder, rfl⟩ hinside
        simpa [IsGap] using Layout.gap_iff hfirst

theorem nested_of_mem_pieceEntries {entry piece : Entry} {after : Text}
    (hflat : ∀ nested ∈ entry.nested.entries, nested.nested = .empty)
    (h : piece ∈ pieceEntries entry after) : piece.nested = .empty := by
  rw [pieceEntries] at h
  split_ifs at h
  · exact hflat piece h
  · obtain rfl | h := List.mem_cons.mp h
    · rfl
    · exact hflat piece h

theorem exists_of_key_ne_nil {entry : Entry} (h : (CustomField.read entry).value.key ≠ []) :
    ∃ key after : Text, entry.line.text = key ++ ':' :: after ∧ ':' ∉ key ∧
      (CustomField.read entry).value.value =
        continueValue entry.line.number after.trim entry.nested.lines := by
  rw [value_read] at h ⊢
  rcases hsplit : splitAtChar? ':' entry.line.text with _ | ⟨_ | ⟨c, key⟩, after⟩
  · rw [hsplit] at h
    exact absurd rfl h
  · rw [hsplit] at h
    exact absurd rfl h
  · obtain ⟨htext, hcolon⟩ := splitAtChar?_eq_some_iff.mp hsplit
    exact ⟨c :: key, after, htext, hcolon, rfl⟩

end CustomField

theorem Outline.fields_subset_everyEntry (outline : Outline) :
    outline.fields ⊆ outline.everyEntry := by
  cases outline with
  | empty => exact List.Subset.refl _
  | entry line nested steps =>
    intro field hfield
    obtain ⟨step, hstep, hfield⟩ := List.mem_flatMap.mp hfield
    have hnested : field ∈ step.nested.entries := by
      split at hfield
      · exact hfield
      · exact absurd hfield List.not_mem_nil
    apply List.mem_cons_of_mem
    apply List.mem_append_right
    exact everyEntry_nested_subset hstep (entries_subset_everyEntry step.nested hnested)

namespace Reading

theorem customFields_ofText (source : Text) :
    (ofText source).campaign.steps.flatMap Step.customFields =
      (Layout.ofText source).outline.fields.map fun field => (CustomField.read field).value := by
  obtain ⟨line, nested, steps, houtline, hcampaign, -⟩ := ofText_eq source
  rw [houtline, hcampaign, Outline.fields, List.map_flatMap, List.flatMap_map]
  refine List.flatMap_congr fun step _ => ?_
  rw [Step.value_read]
  rcases StepSentence.ofText? step.line.text with _ | (template | predicate | ⟨amount, unit⟩) <;>
    rfl

/-- The lines of a value are joined by a line feed where a blank line stands between them, or a line
that is nested under the first of them, and by a space elsewhere. So the line feeds stand for blank
lines if nothing is nested under the lines of the value. -/
theorem ofText_line_feeds (source : Text) :
    (ofText source).campaign.steps.flatMap Step.customFields =
      (Layout.ofText source).outline.fields.map (fun field => (CustomField.read field).value) ∧
    ∀ field ∈ (Layout.ofText source).outline.fields, (CustomField.read field).value.key ≠ [] →
      ∃ key after : Text, field.line.text = key ++ ':' :: after ∧ ':' ∉ key ∧
        (CustomField.read field).value.value =
          CustomField.joinedWhere (fun piece next =>
            Layout.HasBlankBetween source piece.line.number next.line.number ∨
              piece.nested ≠ .empty) (CustomField.pieceEntries field after) ∧
        ((∀ piece ∈ field.nested.entries, piece.nested = .empty) →
          (CustomField.read field).value.value =
            CustomField.joinedWhere (fun piece next =>
              Layout.HasBlankBetween source piece.line.number next.line.number)
              (CustomField.pieceEntries field after)) := by
  refine ⟨customFields_ofText source, fun field hfield hkey => ?_⟩
  obtain ⟨key, after, htext, hcolon, hvalue⟩ := CustomField.exists_of_key_ne_nil hkey
  have hentry := Outline.fields_subset_everyEntry _ hfield
  have htexts : ∀ line ∈ field.nested.lines, line.text ≠ [] := fun line hline =>
    (Layout.isParagraph_nested hentry line hline).ne_nil
  rw [CustomField.continueValue_pieceEntries after htexts,
    CustomField.joinedWhere_congr (CustomField.isChain_pieceEntries hentry after)] at hvalue
  refine ⟨key, after, htext, hcolon, hvalue, fun hflat => ?_⟩
  rw [hvalue]
  refine CustomField.joinedWhere_congr (List.Pairwise.isChain ?_)
  refine List.Pairwise.imp_of_mem (fun hpiece _ _ => ?_) (List.pairwise_of_forall fun _ _ => trivial)
  exact or_iff_left (not_not_intro (CustomField.nested_of_mem_pieceEntries hflat hpiece))

/-- The first field has a line nested too deep, which makes a line feed, and the second has a blank
line. -/
theorem ofText_line_feeds_two :
    let source : Text := ("when a user a\nsend the b email\n    k: one\n        two\n" ++
      "            three\n        four\n    m: five\n\n        six\n        seven\n").toList
    let three : Line := { number := 5, raw := "            three".toList }
    let nestedTooDeep : Entry :=
      { line := { number := 3, raw := "    k: one".toList }
        nested := .entry { number := 4, raw := "        two".toList } (.entry three .empty .empty)
          (.entry { number := 6, raw := "        four".toList } .empty .empty) }
    let flat : Entry :=
      { line := { number := 7, raw := "    m: five".toList }
        nested := .entry { number := 9, raw := "        six".toList } .empty
          (.entry { number := 10, raw := "        seven".toList } .empty .empty) }
    (Layout.ofText source).outline.fields = [nestedTooDeep, flat] ∧
      (CustomField.read nestedTooDeep).value.value = "one two\nfour".toList ∧
      (CustomField.read flat).value.value =
        CustomField.joinedWhere (fun piece next =>
          Layout.HasBlankBetween source piece.line.number next.line.number)
          (CustomField.pieceEntries flat " five".toList) ∧
      (CustomField.read flat).value.value = "five\nsix seven".toList := by
  intro source three nestedTooDeep flat
  have hfields : (Layout.ofText source).outline.fields = [nestedTooDeep, flat] := by
    decide +kernel
  have hlaw := (ofText_line_feeds source).2
  rw [hfields] at hlaw
  refine ⟨hfields, ?_, ?_, by decide +kernel⟩
  · obtain ⟨key, after, htext, hcolon, hvalue, -⟩ :=
      hlaw nestedTooDeep (by simp) (by decide +kernel)
    have hsplit := splitAtChar?_eq_some_iff.mpr ⟨htext, hcolon⟩
    rw [show splitAtChar? ':' nestedTooDeep.line.text = some ("k".toList, " one".toList) by
      decide +kernel] at hsplit
    cases hsplit
    exact hvalue.trans (by decide +kernel)
  · obtain ⟨key, after, htext, hcolon, -, hblank⟩ := hlaw flat (by simp) (by decide +kernel)
    have hsplit := splitAtChar?_eq_some_iff.mpr ⟨htext, hcolon⟩
    rw [show splitAtChar? ':' flat.line.text = some ("m".toList, " five".toList) by
      decide +kernel] at hsplit
    cases hsplit
    exact hblank (by decide +kernel)

/-- A valid script without a blank line can have a value with a line feed. -/
theorem ofText_line_feed_without_blank :
    let source : Text :=
      ("when a user a\nsend the b email\n    k: a\n        b\n            c\n" ++
        "        d\n").toList
    let field : CustomField := ⟨"k".toList, "a b\nd".toList⟩
    (ofText source).isValid ∧ (ofText source).campaign.steps = [.email "b".toList [field]] ∧
      (∀ text ∈ source.lines, ¬ text.IsBlank) ∧
      (Layout.ofText source).outline.fields.map (fun entry =>
        CustomField.joinedWhere (fun piece next =>
          Layout.HasBlankBetween source piece.line.number next.line.number)
          (CustomField.pieceEntries entry " a".toList)) = ["a b d".toList] := by
  decide +kernel

end Reading

end CampaignScript
