import CampaignScript.Proofs.Outline.Order
import CampaignScript.Proofs.Reading.NormalForm
import Mathlib.Data.List.SplitBy

/-! The paragraphs of a field's value. The reader joins lines one at a time, by a space or a line
feed as the number of the line before tells it. What comes out are the maximal runs of lines that
stand directly below each other. -/
namespace CampaignScript

open Text

/-- Whether the second line stands directly below the first. -/
def Line.isFollowedBy (line next : Line) : Bool :=
  next.number == line.number + 1

namespace CustomField

/-- The content of lines that make one paragraph. -/
def joined (run : List Line) : Text :=
  [' '].intercalate (run.map Line.text)

/-- The paragraphs of lines, one for each maximal run of lines directly below each other. -/
def paragraphs (lines : List Line) : List Text :=
  (lines.splitBy Line.isFollowedBy).map joined

/-- The lines of a value: what is left of the field's own line behind the colon, unless it is blank,
and the lines nested under the field. -/
def pieces (entry : Entry) (after : Text) : List Line :=
  let first : Line := { entry.line with raw := after }
  if first.isBlank then entry.nested.lines else first :: entry.nested.lines

theorem joined_singleton (line : Line) : joined [line] = line.text :=
  List.intercalate_singleton

theorem joined_cons (line : Line) {run : List Line} (h : run ≠ []) :
    joined (line :: run) = line.text ++ [' '] ++ joined run := by
  rw [joined, joined, List.map_cons, List.intercalate_cons_of_ne_nil (by simpa using h),
    List.append_assoc]

section Runs
variable {line next : Line} (rest : List Line)

theorem splitBy_cons_of_not_followed (h : line.isFollowedBy next = false) :
    (line :: next :: rest).splitBy Line.isFollowedBy =
      [line] :: (next :: rest).splitBy Line.isFollowedBy := by
  apply List.splitBy_append_cons (l := [line]) rest
  simpa using h

/-- A line directly above the first run belongs to it. -/
theorem splitBy_cons_of_followed (h : line.isFollowedBy next = true) :
    ∃ run runs, (next :: rest).splitBy Line.isFollowedBy = (next :: run) :: runs ∧
      (line :: next :: rest).splitBy Line.isFollowedBy = (line :: next :: run) :: runs := by
  rcases hruns : (next :: rest).splitBy Line.isFollowedBy with _ | ⟨_ | ⟨head, run⟩, runs⟩
  · exact absurd hruns (List.splitBy_ne_nil.mpr (List.cons_ne_nil _ _))
  · exact absurd rfl (List.ne_nil_of_mem_splitBy (hruns ▸ List.mem_cons_self))
  · obtain ⟨hflatten, hnil, hchain, hgap⟩ := List.splitBy_eq_iff.mp hruns
    rw [List.flatten_cons, List.cons_append, List.cons.injEq] at hflatten
    obtain ⟨rfl, hrest⟩ := hflatten
    refine ⟨run, runs, rfl, List.splitBy_eq_iff.mpr ⟨?_, ?_, ?_, ?_⟩⟩
    · rw [hrest]
      rfl
    · simpa using hnil
    · rw [List.forall_mem_cons] at hchain ⊢
      exact ⟨List.isChain_cons_cons.mpr ⟨h, hchain.1⟩, hchain.2⟩
    · rw [List.isChain_cons] at hgap ⊢
      refine ⟨fun following hfollowing => ?_, hgap.2⟩
      obtain ⟨_, hne, hlast⟩ := hgap.1 following hfollowing
      exact ⟨List.cons_ne_nil _ _, hne, by rwa [List.getLast_cons (List.cons_ne_nil _ _)]⟩

theorem paragraphs_cons_of_not_followed (h : line.isFollowedBy next = false) :
    paragraphs (line :: next :: rest) = line.text :: paragraphs (next :: rest) := by
  rw [paragraphs, splitBy_cons_of_not_followed rest h, List.map_cons, joined_singleton, paragraphs]

theorem paragraphs_cons_of_followed (h : line.isFollowedBy next = true) :
    ∃ first more, paragraphs (next :: rest) = first :: more ∧
      paragraphs (line :: next :: rest) = (line.text ++ [' '] ++ first) :: more := by
  obtain ⟨run, runs, hruns, hmore⟩ := splitBy_cons_of_followed rest h
  refine ⟨joined (next :: run), runs.map joined, ?_, ?_⟩
  · rw [paragraphs, hruns, List.map_cons]
  · rw [paragraphs, hmore, List.map_cons, joined_cons line (List.cons_ne_nil _ _)]

theorem paragraphs_ne_nil {lines : List Line} (h : lines ≠ []) : paragraphs lines ≠ [] := by
  rw [paragraphs, Ne, List.map_eq_nil_iff]
  exact List.splitBy_ne_nil.mpr h

theorem isParagraph_joined {run : List Line} (hne : run ≠ [])
    (h : ∀ line ∈ run, line.text.IsParagraph) : (joined run).IsParagraph := by
  induction run with
  | nil => exact absurd rfl hne
  | cons line run ih =>
    obtain ⟨hline, hrun⟩ := List.forall_mem_cons.mp h
    by_cases hlast : run = []
    · rw [hlast, joined_singleton]
      exact hline
    · rw [joined_cons line hlast]
      exact hline.append (ih hlast hrun)

theorem isParagraph_of_mem_paragraphs {lines : List Line}
    (h : ∀ line ∈ lines, line.text.IsParagraph) {text : Text} (htext : text ∈ paragraphs lines) :
    text.IsParagraph := by
  obtain ⟨run, hrun, rfl⟩ := List.mem_map.mp htext
  apply isParagraph_joined (List.ne_nil_of_mem_splitBy hrun)
  intro line hline
  apply h line
  rw [← List.flatten_splitBy Line.isFollowedBy lines]
  exact List.mem_flatten_of_mem hrun hline

end Runs

/-- What a value starts with does not matter to how it goes on. -/
theorem continueValue_append (previous : Nat) (front : Text) {value : Text} (hne : value ≠ [])
    (lines : List Line) :
    continueValue previous (front ++ value) lines =
      front ++ continueValue previous value lines := by
  induction lines generalizing previous value with
  | nil => rfl
  | cons line lines ih =>
    have hempty : value.isEmpty = false := by simpa using hne
    have hfront : (front ++ value).isEmpty = false := by simp [hne]
    rw [continueValue, continueValue, hempty, hfront, ← ih line.number (by simp [hne])]
    simp only [List.append_assoc]

/-- The reader's joining gives the paragraphs, with a line feed between any two. -/
theorem continueValue_eq_intercalate {line : Line} {rest : List Line}
    (hnumber : (line :: rest).Pairwise fun line later => line.number < later.number)
    (htext : ∀ next ∈ rest, next.text ≠ []) (hne : line.text ≠ []) :
    continueValue line.number line.text rest =
      ['\n'].intercalate (paragraphs (line :: rest)) := by
  induction rest generalizing line with
  | nil =>
    have hline : paragraphs [line] = [line.text] := by
      rw [← joined_singleton]
      rfl
    rw [hline, List.intercalate_singleton, continueValue]
  | cons next rest ih =>
    obtain ⟨hline, hrest⟩ := List.pairwise_cons.mp hnumber
    have hlt := hline next List.mem_cons_self
    obtain ⟨hnext, htexts⟩ := List.forall_mem_cons.mp htext
    have hempty : line.text.isEmpty = false := by simpa using hne
    rw [continueValue, hempty, continueValue_append _ _ hnext, ih hrest htexts hnext]
    by_cases hgap : next.number > line.number + 1
    · have hbelow : line.isFollowedBy next = false := by
        rw [Line.isFollowedBy, beq_eq_false_iff_ne]
        omega
      rw [if_neg (by simp), if_pos hgap, paragraphs_cons_of_not_followed rest hbelow,
        List.intercalate_cons_of_ne_nil (paragraphs_ne_nil (List.cons_ne_nil _ _)),
        List.append_assoc]
    · have hbelow : line.isFollowedBy next = true := by
        rw [Line.isFollowedBy, beq_iff_eq]
        omega
      obtain ⟨first, more, hfirst, hmore⟩ := paragraphs_cons_of_followed rest hbelow
      rw [if_neg (by simp), if_neg hgap, hfirst, hmore, intercalate_cons, intercalate_cons,
        List.append_assoc _ first]

/-- A value starts with the first of its lines, from which it goes on. -/
theorem continueValue_eq_of_pieces {entry : Entry} (after : Text)
    (htext : ∀ line ∈ entry.nested.lines, line.text ≠ []) :
    (pieces entry after = [] ∧
      continueValue entry.line.number after.trim entry.nested.lines = []) ∨
    ∃ line rest, pieces entry after = line :: rest ∧ (∀ piece ∈ line :: rest, piece.text ≠ []) ∧
      continueValue entry.line.number after.trim entry.nested.lines =
        continueValue line.number line.text rest := by
  rw [pieces]
  split_ifs with hblank
  · have hempty : after.trim = [] := List.isEmpty_iff.mp hblank
    rw [hempty]
    cases hlines : entry.nested.lines with
    | nil => exact .inl ⟨rfl, rfl⟩
    | cons line rest => exact .inr ⟨line, rest, rfl, hlines ▸ htext, rfl⟩
  · have hne : after.trim ≠ [] := fun h => hblank (List.isEmpty_iff.mpr h)
    exact .inr ⟨_, _, rfl, List.forall_mem_cons.mpr ⟨hne, htext⟩, rfl⟩

theorem pairwise_pieces {entry : Entry} (after : Text)
    (hnumber : (entry.line :: entry.nested.lines).Pairwise fun line later =>
      line.number < later.number) :
    (pieces entry after).Pairwise fun line later => line.number < later.number := by
  obtain ⟨hfirst, hrest⟩ := List.pairwise_cons.mp hnumber
  rw [pieces]
  split_ifs
  · exact hrest
  · exact List.pairwise_cons.mpr ⟨hfirst, hrest⟩

theorem continueValue_pieces {entry : Entry} (after : Text)
    (hnumber : (entry.line :: entry.nested.lines).Pairwise fun line later =>
      line.number < later.number)
    (htext : ∀ line ∈ entry.nested.lines, line.text ≠ []) :
    continueValue entry.line.number after.trim entry.nested.lines =
      ['\n'].intercalate (paragraphs (pieces entry after)) := by
  have hpieces := pairwise_pieces after hnumber
  obtain ⟨hnone, hvalue⟩ | ⟨line, rest, hsome, htexts, hvalue⟩ :=
    continueValue_eq_of_pieces after htext
  · rw [hvalue, hnone]
    rfl
  · rw [hsome] at hpieces ⊢
    obtain ⟨hline, hrest⟩ := List.forall_mem_cons.mp htexts
    rw [hvalue, continueValue_eq_intercalate hpieces hrest hline]

/-- A value starts with its first paragraph and ends with its last, so there is no white space
around it. -/
theorem IsValue.trim {value : Text} (h : IsValue value) : value.trim = value := by
  by_cases hempty : value = []
  · rw [hempty]
    rfl
  obtain ⟨front, last, hvalue, hfront, hlast⟩ := h.exists_last hempty
  rw [trim_eq_self_iff]
  constructor
  · cases front with
    | nil =>
      rw [hvalue, List.nil_append, List.intercalate_singleton]
      exact hlast.trimStart
    | cons first front =>
      have hfirst := hfront first List.mem_cons_self
      rw [hvalue, List.cons_append, intercalate_cons]
      exact trimStart_append_of_ne_nil hfirst.trimStart hfirst.ne_nil _
  · rw [hvalue, intercalate_concat]
    exact trimEnd_append_of_ne_nil _ hlast.isEnding.trimEnd hlast.ne_nil

theorem isParagraph_of_mem_pieces {entry : Entry} {key after : Text}
    (htext : entry.line.text = key ++ ':' :: after) (hline : entry.line.text.IsInline)
    (hnested : ∀ line ∈ entry.nested.lines, line.text.IsParagraph) :
    ∀ line ∈ pieces entry after, line.text.IsParagraph := by
  rw [pieces]
  split_ifs with hblank
  · exact hnested
  · refine List.forall_mem_cons.mpr ⟨⟨hline.of_subset fun c hc => ?_, ?_, trim_trim after⟩, hnested⟩
    · rw [htext]
      exact List.mem_append_right key (List.mem_cons_of_mem ':' (mem_of_mem_trim hc))
    · exact fun hempty => hblank (List.isEmpty_iff.mpr hempty)

section Run
variable {entry : Entry} (found : List Problem)

theorem run_read_of_no_key (h : ':' ∉ entry.line.text ∨ entry.line.text.head? = some ':') :
    (CustomField.read entry).run found =
      ({ key := [], value := [] }, found ++ [{ line := entry.line, cause := .customField }]) := by
  rw [appends_read entry found, value_read, added_read]
  rcases h with hnone | hhead
  · rw [splitAtChar?_of_notMem hnone]
  · obtain ⟨after, htext⟩ := List.head?_eq_some_iff.mp hhead
    have hsplit : splitAtChar? ':' entry.line.text = some ([], after) :=
      splitAtChar?_eq_some_iff.mpr ⟨htext, List.not_mem_nil⟩
    rw [hsplit]

theorem run_read_of_key {key after : Text} (htext : entry.line.text = key ++ ':' :: after)
    (hcolon : ':' ∉ key) (hne : key ≠ []) :
    (CustomField.read entry).run found =
      ({ key := key.trimEnd
         value := continueValue entry.line.number after.trim entry.nested.lines }, found) := by
  have hsplit := splitAtChar?_eq_some_iff.mpr ⟨htext, hcolon⟩
  obtain ⟨c, key, rfl⟩ := List.exists_cons_of_ne_nil hne
  rw [appends_read entry found, value_read, added_read, hsplit, List.append_nil]

end Run

end CustomField

namespace Layout
variable {source : Text} {entry : Entry}

theorem pairwise_entry (h : entry ∈ (Layout.ofText source).outline.everyEntry) :
    (entry.line :: entry.nested.lines).Pairwise fun line later => line.number < later.number := by
  rcases entry_sublist_contentLines h with rfl | hsublist
  · exact List.pairwise_singleton _ _
  · exact (pairwise_contentLines source).sublist hsublist

theorem isParagraph_nested (h : entry ∈ (Layout.ofText source).outline.everyEntry) :
    ∀ line ∈ entry.nested.lines, line.text.IsParagraph := by
  rcases entry_sublist_contentLines h with rfl | hsublist
  · exact fun line hline => absurd hline List.not_mem_nil
  · intro line hline
    exact isParagraph_of_mem_contentLines (hsublist.subset (List.mem_cons_of_mem _ hline))

theorem isInline_entry (h : entry ∈ (Layout.ofText source).outline.everyEntry) :
    entry.line.text.IsInline := by
  rcases entry_sublist_contentLines h with rfl | hsublist
  · decide
  · exact (isParagraph_of_mem_contentLines (hsublist.subset List.mem_cons_self)).inline

end Layout

/-- A field is a key in front of the first colon of its line. Its value has the paragraphs of the
lines that it goes on over. Without a key there is no field, and only then is a problem added. -/
theorem CustomField.read_paragraphs {source : Text} {entry : Entry}
    (h : entry ∈ (Layout.ofText source).outline.everyEntry) (found : List Problem) :
    (':' ∉ entry.line.text ∨ entry.line.text.head? = some ':' →
      (CustomField.read entry).run found =
        ({ key := [], value := [] },
          found ++ [{ line := entry.line, cause := .customField }])) ∧
    (¬ (':' ∉ entry.line.text ∨ entry.line.text.head? = some ':') →
      ∃ key after field, entry.line.text = key ++ ':' :: after ∧ ':' ∉ key ∧ key ≠ [] ∧
        (CustomField.read entry).run found = (field, found) ∧
        field.key = key.trimEnd ∧ field.key ≠ [] ∧
        (pieces entry after = [] → field.value = []) ∧
        (pieces entry after ≠ [] →
          field.value.splitOn '\n' = paragraphs (pieces entry after)) ∧
        field.value.trim = field.value) := by
  refine ⟨run_read_of_no_key found, fun hkey => ?_⟩
  rw [not_or, not_not] at hkey
  obtain ⟨key, after, htext, hcolon⟩ := List.eq_append_cons_of_mem hkey.1
  have hne : key ≠ [] := by
    rintro rfl
    exact hkey.2 (by rw [htext]; rfl)
  have hnested := Layout.isParagraph_nested h
  have hpieces := isParagraph_of_mem_pieces htext (Layout.isInline_entry h) hnested
  have hparagraphs : ∀ text ∈ paragraphs (pieces entry after), text.IsParagraph :=
    fun text => isParagraph_of_mem_paragraphs hpieces
  have hvalue := continueValue_pieces after (Layout.pairwise_entry h)
    fun line hline => (hnested line hline).ne_nil
  have hrun := run_read_of_key found htext hcolon hne
  refine ⟨key, after, _, htext, hcolon, hne, hrun, rfl, ?_, ?_, ?_, ?_⟩
  · -- The line starts with no white space, so neither does the key.
    obtain ⟨c, key, rfl⟩ := List.exists_cons_of_ne_nil hne
    exact trimEnd_cons_ne_nil (isSpace_of_trim_eq_cons ((trim_trim _).trans htext)) key
  · intro hnone
    rw [hvalue, hnone]
    rfl
  · intro hsome
    rw [hvalue]
    exact List.splitOn_intercalate '\n' (fun text htext => (hparagraphs text htext).inline.2)
      (paragraphs_ne_nil hsome)
  · rw [hvalue]
    exact IsValue.trim ⟨_, rfl, hparagraphs⟩

/-- The value of the first entry has two paragraphs, the first of them on two lines. The second
entry is one of those lines, which is no field. -/
theorem CustomField.read_paragraphs_two :
    let two : Line := { number := 3, raw := "        two".toList }
    let three : Line := { number := 5, raw := "        three".toList }
    let note : Entry :=
      { line := { number := 2, raw := "    note : one".toList }
        nested := .entry two .empty (.entry three .empty .empty) }
    let source := "Send the a email\n    note : one\n\t\ttwo\n\n\t\tthree".toList
    note ∈ (Layout.ofText source).outline.everyEntry ∧
      (∃ field, (CustomField.read note).run [] = (field, []) ∧ field.key = "note".toList ∧
        field.value.splitOn '\n' = ["one two".toList, "three".toList]) ∧
      (CustomField.read { line := two, nested := .empty }).run [] =
        ({ key := [], value := [] }, [{ line := two, cause := .customField }]) := by
  intro two three note source
  have hnote : note ∈ (Layout.ofText source).outline.everyEntry := by decide +kernel
  have htwo : { line := two, nested := .empty } ∈ (Layout.ofText source).outline.everyEntry := by
    decide +kernel
  refine ⟨hnote, ?_, (read_paragraphs htwo []).1 (by decide +kernel)⟩
  obtain ⟨key, after, field, htext, hcolon, -, hrun, hkey, -, -, hvalue, -⟩ :=
    (read_paragraphs hnote []).2 (by decide +kernel)
  have hsplit := Text.splitAtChar?_eq_some_iff.mpr ⟨htext, hcolon⟩
  rw [show Text.splitAtChar? ':' note.line.text = some ("note ".toList, " one".toList) by
    decide +kernel] at hsplit
  cases hsplit
  exact ⟨field, hrun, hkey.trans (by decide +kernel),
    (hvalue (by decide +kernel)).trans (by decide +kernel)⟩

end CampaignScript
