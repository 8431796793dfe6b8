import CampaignScript.Proofs.Text.Space
import CampaignScript.Text.Enumeration
import Mathlib.Data.List.Infix

/-! The separators of an enumeration. Taking them from the left leaves pieces without separators,
and pieces that are joined come apart again where no separator begins inside one of them. A comma
cannot be part of a separator that begins before it; the space that "and" begins with can. -/
namespace CampaignScript

theorem Text.intercalate_cons (separator first : Text) (rest : List Text) :
    separator.intercalate (first :: rest) = first ++ rest.flatMap (separator ++ ·) := by
  induction rest generalizing first with
  | nil => simp
  | cons next rest ih =>
    rw [List.intercalate_cons_cons, ih, List.flatMap_cons, List.append_assoc, List.append_assoc]

theorem Text.intercalate_concat (separator : Text) (front : List Text) (last : Text) :
    separator.intercalate (front ++ [last]) = front.flatMap (· ++ separator) ++ last := by
  induction front with
  | nil => simp
  | cons first front ih =>
    rw [List.cons_append, List.intercalate_cons_of_ne_nil (by simp), ih, List.flatMap_cons,
      List.append_assoc _ _ last]

namespace Enumeration

open Text

/-- The word that separates items, with the spaces that are part of the separator. -/
def conjunction : Text := " and ".toList

theorem pieces_cons {c : Char} {rest : Text} (hcomma : c ≠ ',')
    (hand : ¬ conjunction <+: c :: rest) : pieces (c :: rest) = extendFirst c (pieces rest) := by
  rw [pieces]
  · exact hcomma
  · rintro back rfl rfl
    exact hand (List.prefix_append conjunction back)

/-- The first piece is where the text starts, the others lie behind it, and none of them has a
separator in it. -/
theorem exists_pieces (text : Text) :
    ∃ first more, pieces text = first :: more ∧ first <+: text ∧ (∀ piece ∈ more, piece <:+: text) ∧
      ∀ piece ∈ pieces text, ',' ∉ piece ∧ ¬ conjunction <:+: piece := by
  have hnil : ',' ∉ ([] : Text) ∧ ¬ conjunction <:+: [] := by decide
  fun_induction pieces text with
  | case1 => exact ⟨[], [], rfl, List.prefix_rfl, by simp, by simpa using hnil⟩
  | case2 rest ih =>
    obtain ⟨first, more, hpieces, hfirst, hmore, hapart⟩ := ih
    refine ⟨[], pieces rest, rfl, List.nil_prefix, ?_, List.forall_mem_cons.mpr ⟨hnil, hapart⟩⟩
    rw [hpieces, List.forall_mem_cons]
    exact ⟨hfirst.isInfix.trans (List.suffix_cons _ _).isInfix,
      fun piece hpiece => (hmore piece hpiece).trans (List.suffix_cons _ _).isInfix⟩
  | case3 rest ih =>
    obtain ⟨first, more, hpieces, hfirst, hmore, hapart⟩ := ih
    have hrest : rest <:+: conjunction ++ rest := (List.suffix_append _ _).isInfix
    refine ⟨[], pieces rest, rfl, List.nil_prefix, ?_, List.forall_mem_cons.mpr ⟨hnil, hapart⟩⟩
    rw [hpieces, List.forall_mem_cons]
    exact ⟨hfirst.isInfix.trans hrest, fun piece hpiece => (hmore piece hpiece).trans hrest⟩
  | case4 c rest hcomma hand ih =>
    obtain ⟨first, more, hpieces, hfirst, hmore, hapart⟩ := ih
    have hlonger : c :: first <+: c :: rest := List.cons_prefix_cons.mpr ⟨rfl, hfirst⟩
    rw [hpieces, List.forall_mem_cons] at hapart
    obtain ⟨⟨hfirstComma, hfirstAnd⟩, hapart⟩ := hapart
    refine ⟨c :: first, more, by rw [hpieces]; rfl, hlonger, ?_, ?_⟩
    · exact fun piece hpiece => (hmore piece hpiece).trans (List.suffix_cons c rest).isInfix
    · rw [hpieces]
      refine List.forall_mem_cons.mpr ⟨⟨?_, ?_⟩, hapart⟩
      · exact List.mem_cons.not.mpr (not_or.mpr ⟨fun h => hcomma h.symm, hfirstComma⟩)
      · -- A separator at the start of the piece would have been taken.
        rw [List.infix_cons_iff, not_or]
        refine ⟨fun hstart => ?_, hfirstAnd⟩
        obtain ⟨back, hback⟩ := hstart.trans hlonger
        cases hback
        exact hand back rfl rfl

/-- Whether no separator begins in a piece that stands before the text `tail`. -/
def Apart (piece tail : Text) : Prop :=
  ',' ∉ piece ∧ ∀ back, back <:+ piece → back ≠ [] → ¬ conjunction <+: back ++ tail

theorem pieces_append {piece tail : Text} (h : Apart piece tail) {first : Text} {more : List Text}
    (htail : pieces tail = first :: more) : pieces (piece ++ tail) = (piece ++ first) :: more := by
  obtain ⟨hcomma, hand⟩ := h
  induction piece with
  | nil => exact htail
  | cons c piece ih =>
    rw [List.mem_cons, not_or] at hcomma
    have hpiece := ih hcomma.2 fun back hback => hand back (hback.trans (List.suffix_cons c piece))
    rw [List.cons_append, pieces_cons (Ne.symm hcomma.1), hpiece]
    · rfl
    · exact hand (c :: piece) List.suffix_rfl (List.cons_ne_nil c piece)

/-- A separator that begins in a piece and ends behind it ends in the space that follows. -/
theorem conjunction_isInfix_of_isPrefix {piece back tail : Text}
    (htail : ∀ c ∈ tail.head?, c = ',' ∨ c = ' ') (hback : back <:+ piece) (hne : back ≠ [])
    (h : conjunction <+: back ++ tail) :
    conjunction <:+: piece ∨ tail.head? = some ' ' ∧ conjunction <:+: piece ++ [' '] := by
  have hends : ∀ rest ∈ conjunction.tails, rest.head? = some ',' ∨ rest.head? = some ' ' →
      rest = conjunction ∨ rest = [' '] := by
    decide
  obtain ⟨later, hlater⟩ := h
  obtain ⟨rest, rfl, -⟩ | ⟨rest, hrest, rfl⟩ := List.append_eq_append_iff.mp hlater
  · exact .inl ((List.prefix_append conjunction rest).isInfix.trans hback.isInfix)
  · cases rest with
    | nil =>
      rw [List.append_nil] at hrest
      exact .inl (hrest ▸ hback.isInfix)
    | cons c rest =>
      have hsuffix : c :: rest ∈ conjunction.tails :=
        (List.mem_tails _ _).mpr (hrest ▸ List.suffix_append back _)
      have hhead : (c :: rest).head? = some ',' ∨ (c :: rest).head? = some ' ' := by
        simpa using htail c rfl
      rcases hends _ hsuffix hhead with hall | hspace
      · rw [hall] at hrest
        exact absurd (List.self_eq_append_left.mp hrest) hne
      · rw [hspace] at hrest ⊢
        refine .inr ⟨rfl, ?_⟩
        rw [hrest]
        obtain ⟨front, rfl⟩ := hback
        exact ⟨front, [], by simp⟩

/-- Before a comma or the end it is enough that a piece has no separator in it. -/
theorem apart_of_comma {piece tail : Text} (htail : ∀ c ∈ tail.head?, c = ',')
    (hcomma : ',' ∉ piece) (hand : ¬ conjunction <:+: piece) : Apart piece tail := by
  refine ⟨hcomma, fun back hback hne hstart => ?_⟩
  rcases conjunction_isInfix_of_isPrefix (fun c hc => .inl (htail c hc)) hback hne hstart with
    hinside | ⟨hspace, -⟩
  · exact hand hinside
  · exact absurd (htail ' ' hspace) (by decide)

theorem apart_of_space {piece tail : Text} (htail : ∀ c ∈ tail.head?, c = ',' ∨ c = ' ')
    (hcomma : ',' ∉ piece) (hand : ¬ conjunction <:+: piece ++ [' ']) : Apart piece tail := by
  refine ⟨hcomma, fun back hback hne hstart => hand ?_⟩
  rcases conjunction_isInfix_of_isPrefix htail hback hne hstart with hinside | ⟨-, hinside⟩
  · exact hinside.trans (List.prefix_append piece _).isInfix
  · exact hinside

/-- The pieces with content, without the white space around them. -/
def contents (pieces : List Text) : List Text :=
  (pieces.map trim).filter fun item => !item.isEmpty

theorem items_eq (text : Text) : items text = contents (pieces text) := rfl

theorem contents_append (list more : List Text) :
    contents (list ++ more) = contents list ++ contents more := by
  rw [contents, List.map_append, List.filter_append, contents, contents]

theorem contents_eq_self {list : List Text} (h : ∀ item ∈ list, item ≠ [] ∧ item.trim = item) :
    contents list = list := by
  have htrim : list.map trim = list := by
    rw [List.map_congr_left fun item hitem => (h item hitem).2, List.map_id']
  rw [contents, htrim, List.filter_eq_self]
  intro item hitem
  simpa using (h item hitem).1

/-- The text of pieces with a separator in front of each. -/
def joined (pairs : List (Text × Text)) : Text :=
  pairs.flatMap fun (separator, piece) => separator ++ piece

/-- The separators that no space of a piece is part of. -/
def marks : List Text :=
  [[','], conjunction, ',' :: conjunction]

theorem pieces_mark_append {mark : Text} (h : mark ∈ marks) (rest : Text) :
    ∃ more, pieces (mark ++ rest) = [] :: more ∧ contents more = contents (pieces rest) := by
  simp only [marks, List.mem_cons, List.not_mem_nil, or_false] at h
  rcases h with rfl | rfl | rfl
  · exact ⟨pieces rest, rfl, rfl⟩
  · exact ⟨pieces rest, rfl, rfl⟩
  · -- The comma and the word leave an empty piece between them.
    exact ⟨[] :: pieces rest, rfl, rfl⟩

section Joined
variable {pairs : List (Text × Text)}

theorem head?_joined (h : ∀ pair ∈ pairs, pair.1 ∈ marks) :
    ∀ c ∈ (joined pairs).head?, c = ',' ∨ c = ' ' := by
  have hmarks : ∀ mark ∈ marks, ∀ rest : Text, ∀ c ∈ (mark ++ rest).head?, c = ',' ∨ c = ' ' := by
    simp [marks, conjunction]
  cases pairs with
  | nil => simp [joined]
  | cons pair pairs =>
    rw [joined, List.flatMap_cons, List.append_assoc]
    exact hmarks pair.1 (h pair List.mem_cons_self) _

/-- Pieces that are kept apart are what is between the separators. -/
theorem contents_pieces_joined
    (h : ∀ front pair back, pairs = front ++ pair :: back →
      pair.1 ∈ marks ∧ Apart pair.2 (joined back)) :
    ∃ more, pieces (joined pairs) = [] :: more ∧ contents more = contents (pairs.map Prod.snd) := by
  induction pairs with
  | nil => exact ⟨[], rfl, rfl⟩
  | cons pair pairs ih =>
    obtain ⟨hmark, hapart⟩ := h [] pair pairs rfl
    obtain ⟨more, hmore, hcontents⟩ :=
      ih fun front later back hpairs => h (pair :: front) later back (by rw [hpairs]; rfl)
    have hjoined : joined (pair :: pairs) = pair.1 ++ (pair.2 ++ joined pairs) :=
      List.append_assoc _ _ _
    obtain ⟨pieces', hpieces, hrest⟩ := pieces_mark_append hmark (pair.2 ++ joined pairs)
    refine ⟨pieces', hjoined ▸ hpieces, ?_⟩
    rw [hrest, pieces_append hapart hmore, List.append_nil, List.map_cons,
      ← List.singleton_append, contents_append, hcontents, ← contents_append, List.singleton_append]

theorem items_append_joined {first : Text} (hfirst : Apart first (joined pairs))
    (h : ∀ front pair back, pairs = front ++ pair :: back →
      pair.1 ∈ marks ∧ Apart pair.2 (joined back)) :
    items (first ++ joined pairs) = contents (first :: pairs.map Prod.snd) := by
  obtain ⟨more, hmore, hcontents⟩ := contents_pieces_joined h
  rw [items_eq, pieces_append hfirst hmore, List.append_nil, ← List.singleton_append,
    contents_append, hcontents, ← contents_append, List.singleton_append]

/-- A space may follow each piece, so no piece may have the word "and" at its end. -/
theorem items_append_joined_of_space {first : Text} (hcomma : ',' ∉ first)
    (hand : ¬ conjunction <:+: first ++ [' '])
    (h : ∀ pair ∈ pairs, pair.1 ∈ marks ∧ ',' ∉ pair.2 ∧ ¬ conjunction <:+: pair.2 ++ [' ']) :
    items (first ++ joined pairs) = contents (first :: pairs.map Prod.snd) := by
  have htail : ∀ back, back ⊆ pairs → ∀ c ∈ (joined back).head?, c = ',' ∨ c = ' ' :=
    fun back hback => head?_joined fun pair hpair => (h pair (hback hpair)).1
  refine items_append_joined (apart_of_space (htail pairs (List.Subset.refl _)) hcomma hand) ?_
  rintro front pair back rfl
  obtain ⟨hmark, hcomma, hand⟩ := h pair (by simp)
  exact ⟨hmark, apart_of_space (htail back fun _ hmem => by simp [hmem]) hcomma hand⟩

end Joined

/-- Between commas, pieces without separators come apart again. -/
theorem items_append_joined_of_comma {first : Text} {list : List Text}
    (h : ∀ piece ∈ first :: list, ',' ∉ piece ∧ ¬ conjunction <:+: piece) :
    items (first ++ joined (list.map fun piece => ([','], piece))) = contents (first :: list) := by
  obtain ⟨⟨hcomma, hand⟩, hlist⟩ := List.forall_mem_cons.mp h
  have htail (back : List Text) :
      ∀ c ∈ (joined (back.map fun piece => ([','], piece))).head?, c = ',' := by
    cases back <;> simp [joined]
  rw [items_append_joined (apart_of_comma (htail list) hcomma hand), List.map_map]
  · exact congrArg (fun pieces => contents (first :: pieces)) (List.map_id list)
  · intro front pair back hsplit
    obtain ⟨pieces, last, rfl, -, hlast⟩ := List.map_eq_append_iff.mp hsplit
    obtain ⟨piece, rest, rfl, rfl, rfl⟩ := List.map_eq_cons_iff.mp hlast
    obtain ⟨hcomma, hand⟩ := hlist piece (by simp)
    exact ⟨List.mem_cons_self, apart_of_comma (htail rest) hcomma hand⟩

/-- What may stand between two items: a comma, the word "and", or both. -/
def separators : List Text :=
  [",".toList, ", ".toList, " and ".toList, ", and ".toList]

/-- Whether a text can be an item next to any separator. -/
structure IsJoinable (item : Text) : Prop where
  ne_nil : item ≠ []
  trim : item.trim = item
  comma : ',' ∉ item
  conjunction : ¬ " and ".toList <:+: ' ' :: item ++ [' ']

instance (item : Text) : Decidable (IsJoinable item) :=
  decidable_of_iff
    (item ≠ [] ∧ item.trim = item ∧ ',' ∉ item ∧ ¬ " and ".toList <:+: ' ' :: item ++ [' '])
    ⟨fun h => ⟨h.1, h.2.1, h.2.2.1, h.2.2.2⟩, fun h => ⟨h.1, h.2, h.3, h.4⟩⟩

/-- The space behind a comma, taken for a part of the item that follows. -/
private def attached (pair : Text × Text) : Text × Text :=
  if pair.1 = ", ".toList then ([','], ' ' :: pair.2) else pair

private theorem joined_attached (pairs : List (Text × Text)) :
    joined (pairs.map attached) = joined pairs := by
  have hpair (pair : Text × Text) :
      (attached pair).1 ++ (attached pair).2 = pair.1 ++ pair.2 := by
    rw [attached]
    split_ifs with h
    · rw [h]
      rfl
    · rfl
  rw [joined, List.flatMap_map]
  exact List.flatMap_congr fun pair _ => hpair pair

private theorem contents_attached (pairs : List (Text × Text)) (first : Text) :
    contents (first :: (pairs.map attached).map Prod.snd) =
      contents (first :: pairs.map Prod.snd) := by
  have hpair (pair : Text × Text) : (attached pair).2.trim = pair.2.trim := by
    rw [attached]
    split_ifs
    · exact trim_replicate_append 1 pair.2
    · rfl
  rw [contents, contents, List.map_cons, List.map_cons, List.map_map, List.map_map, List.map_map]
  exact congrArg _ (congrArg _ (List.map_congr_left fun pair _ => hpair pair))

theorem IsJoinable.attached {pair : Text × Text} (hseparator : pair.1 ∈ separators)
    (h : IsJoinable pair.2) :
    (attached pair).1 ∈ marks ∧ ',' ∉ (attached pair).2 ∧
      ¬ Enumeration.conjunction <:+: (attached pair).2 ++ [' '] := by
  have hmarks : ∀ separator ∈ separators, separator ≠ ", ".toList → separator ∈ marks := by decide
  rw [Enumeration.attached]
  split_ifs with hspaced
  · exact ⟨List.mem_cons_self, by simpa using h.comma, h.conjunction⟩
  · refine ⟨hmarks _ hseparator hspaced, h.comma, fun hinside => h.conjunction ?_⟩
    exact hinside.trans (List.suffix_cons ' ' _).isInfix

theorem items_joinable {first : Text} {pairs : List (Text × Text)} (hfirst : IsJoinable first)
    (h : ∀ pair ∈ pairs, pair.1 ∈ separators ∧ IsJoinable pair.2) :
    items (first ++ joined pairs) = first :: pairs.map Prod.snd := by
  have hfirstAnd : ¬ conjunction <:+: first ++ [' '] :=
    fun hinside => hfirst.conjunction (hinside.trans (List.suffix_cons ' ' _).isInfix)
  rw [← joined_attached, items_append_joined_of_space hfirst.comma hfirstAnd, contents_attached,
    contents_eq_self]
  · rw [List.forall_mem_cons, List.forall_mem_map]
    exact ⟨⟨hfirst.ne_nil, hfirst.trim⟩,
      fun pair hpair => ⟨(h pair hpair).2.ne_nil, (h pair hpair).2.trim⟩⟩
  · rw [List.forall_mem_map]
    exact fun pair hpair => (h pair hpair).2.attached (h pair hpair).1

theorem content_of_mem_items {text item : Text} (h : item ∈ items text) :
    item ≠ [] ∧ item.trim = item ∧ ',' ∉ item ∧ ¬ conjunction <:+: item := by
  obtain ⟨-, -, -, -, -, hapart⟩ := exists_pieces text
  obtain ⟨hmem, hne⟩ := List.mem_filter.mp h
  obtain ⟨piece, hpiece, rfl⟩ := List.mem_map.mp hmem
  obtain ⟨hcomma, hand⟩ := hapart piece hpiece
  exact ⟨by simpa using hne, trim_trim piece, fun hmem => hcomma (mem_of_mem_trim hmem),
    fun hinside => hand (hinside.trans (trim_isInfix piece))⟩

theorem items_intercalate_items (text : Text) :
    items ([','].intercalate (items text)) = items text := by
  have hitems : ∀ item ∈ items text, item ≠ [] ∧ item.trim = item :=
    fun item hitem => ⟨(content_of_mem_items hitem).1, (content_of_mem_items hitem).2.1⟩
  have hapart : ∀ item ∈ items text, ',' ∉ item ∧ ¬ conjunction <:+: item :=
    fun item hitem => (content_of_mem_items hitem).2.2
  generalize items text = list at hitems hapart
  cases list with
  | nil => rfl
  | cons first list =>
    have hjoined : [','].intercalate (first :: list) =
        first ++ joined (list.map fun piece => ([','], piece)) := by
      rw [intercalate_cons, joined, List.flatMap_map]
    rw [hjoined, items_append_joined_of_comma hapart, contents_eq_self hitems]

/-- An enumeration comes apart into items without separators in them, which can be joined by commas
and come apart again. Items that have no comma and no word "and" in them, at their ends included,
come apart again however they are joined. -/
theorem items_separate (text : Text) :
    (∀ item ∈ items text,
      item ≠ [] ∧ item.trim = item ∧ ',' ∉ item ∧ ¬ " and ".toList <:+: item) ∧
    items (",".toList.intercalate (items text)) = items text ∧
    ∀ (first : Text) (pairs : List (Text × Text)), IsJoinable first →
      (∀ pair ∈ pairs, pair.1 ∈ separators ∧ IsJoinable pair.2) →
      items (first ++ pairs.flatMap fun (separator, item) => separator ++ item) =
        first :: pairs.map Prod.snd :=
  ⟨fun _ => content_of_mem_items, items_intercalate_items text, fun _ _ => items_joinable⟩

/-- The second "and" of the first text has lost the space that it would need as a separator. -/
theorem items_separate_mixed :
    let text : Text := " a and and b,, and c AND d ".toList
    let pairs : List (Text × Text) :=
      [(" and ".toList, "Andes".toList), (", ".toList, "band an".toList),
        (",".toList, "and\tso".toList), (", and ".toList, "d".toList)]
    items text = ["a".toList, "and b".toList, "c AND d".toList] ∧
      items "a,and b,c AND d".toList = items text ∧
      (∀ item ∈ items text, ',' ∉ item ∧ ¬ " and ".toList <:+: item) ∧
      (∀ pair ∈ pairs, pair.1 ∈ separators ∧ IsJoinable pair.2) ∧
      items "sand and Andes, band an,and\tso, and d".toList =
        ["sand".toList, "Andes".toList, "band an".toList, "and\tso".toList, "d".toList] := by
  intro text pairs
  have hitems : items text = ["a".toList, "and b".toList, "c AND d".toList] := by decide +kernel
  have hpairs : ∀ pair ∈ pairs, pair.1 ∈ separators ∧ IsJoinable pair.2 := by decide +kernel
  obtain ⟨hitem, hagain, hjoined⟩ := items_separate text
  refine ⟨hitems, ?_, fun item h => (hitem item h).2.2, hpairs, ?_⟩
  · rw [← hagain, hitems]
    rfl
  · exact hjoined "sand".toList pairs (by decide +kernel) hpairs

end Enumeration

end CampaignScript
