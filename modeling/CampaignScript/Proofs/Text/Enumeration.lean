import CampaignScript.Campaign.Spelling
import CampaignScript.Proofs.Text.Inline
import CampaignScript.Proofs.Text.Separators
import Mathlib.Data.List.Forall2

/-! Enumerations are read as the items that they were written from, if no item has a comma or white
space in it. What is read from any enumeration comes from its items. -/
namespace CampaignScript

namespace Enumeration

open Text

/-- Whether a text can stand as it is between two commas. -/
def IsItem (text : Text) : Prop :=
  text ≠ [] ∧ ',' ∉ text ∧ ∀ c ∈ text, isSpace c = false

instance (text : Text) : Decidable (IsItem text) :=
  decidable_of_iff (text ≠ [] ∧ ',' ∉ text ∧ text.any isSpace = false) (by simp [IsItem])

theorem IsItem.space_notMem {text : Text} (h : IsItem text) : ' ' ∉ text := by
  intro hmem
  exact absurd (h.2.2 ' ' hmem) (by decide)

theorem IsItem.trim {text : Text} (h : IsItem text) : text.trim = text := by
  rw [trim_eq_self_iff, trimStart_eq_self_iff, trimEnd_eq_self_iff]
  exact ⟨fun c hc => h.2.2 c (List.mem_of_mem_head? hc),
    fun c hc => h.2.2 c (List.mem_of_mem_getLast? hc)⟩

theorem IsItem.append {text more : Text} (h : IsItem text) (h' : IsItem more) :
    IsItem (text ++ more) := by
  refine ⟨List.append_ne_nil_of_left_ne_nil h.1 more, ?_, ?_⟩
  · exact List.mem_append.not.mpr (not_or.mpr ⟨h.2.1, h'.2.1⟩)
  · exact List.forall_mem_append.mpr ⟨h.2.2, h'.2.2⟩

theorem IsItem.isEnding {text : Text} (h : IsItem text) : text.IsEnding := by
  refine ⟨⟨fun hmem => ?_, fun hmem => ?_⟩, h.1, (trim_eq_self_iff.mp h.trim).2⟩
  · exact absurd (h.2.2 _ hmem) (by decide)
  · exact absurd (h.2.2 _ hmem) (by decide)

theorem isEnding_spell {list : List Text} (hne : list ≠ [])
    (h : ∀ text ∈ list, IsItem text) : (spell list).IsEnding := by
  induction list with
  | nil => exact absurd rfl hne
  | cons item list ih =>
    obtain ⟨hitem, hlist⟩ := List.forall_mem_cons.mp h
    cases list with
    | nil =>
      rw [spell, List.intercalate_singleton]
      exact hitem.isEnding
    | cons next list =>
      have hcomma : IsInline ", ".toList := ⟨by decide, by decide⟩
      rw [spell, List.intercalate_cons_cons]
      exact (ih (List.cons_ne_nil next list) hlist).append (hitem.isEnding.inline.append hcomma)

/-- A text with one space cannot hold the word "and" between two. -/
theorem IsItem.apart {text : Text} (h : IsItem text) :
    ',' ∉ ' ' :: text ∧ ¬ conjunction <:+: ' ' :: text := by
  refine ⟨by simpa using h.2.1, fun hinside => h.space_notMem ?_⟩
  rcases List.infix_cons_iff.mp hinside with hstart | hinside
  · have hwords : "and ".toList <+: text := (List.cons_prefix_cons.mp hstart).2
    exact hwords.subset (by decide)
  · exact hinside.subset (by decide)

/-- A text without spaces can be joined to others in any way unless it is the word "and". -/
theorem IsItem.isJoinable {text : Text} (h : IsItem text) (hand : text ≠ "and".toList) :
    IsJoinable text := by
  refine ⟨h.1, h.trim, h.2.1, fun hinside => ?_⟩
  rcases List.infix_cons_iff.mp hinside with hstart | hinside
  · have hstart : "and ".toList <+: text ++ [' '] := (List.cons_prefix_cons.mp hstart).2
    rcases List.prefix_concat_iff.mp hstart with heq | hstart
    · exact hand (List.append_cancel_right heq).symm
    · exact h.space_notMem (hstart.subset (by decide))
  · rcases List.infix_concat_iff.mp hinside with hsuffix | hinside
    · have hsuffix : " and".toList ++ [' '] <:+ text ++ [' '] := hsuffix
      rw [List.suffix_append_inj_of_length_eq rfl] at hsuffix
      exact h.space_notMem (hsuffix.1.subset (by decide))
    · exact h.space_notMem (hinside.subset (by decide))

theorem spell_cons (item : Text) (list : List Text) :
    spell (item :: list) = item ++ list.flatMap fun text => ',' :: ' ' :: text :=
  intercalate_cons _ item list

theorem items_spell {list : List Text} (h : ∀ text ∈ list, IsItem text) :
    items (spell list) = list := by
  cases list with
  | nil => rfl
  | cons item list =>
    obtain ⟨hitem, hlist⟩ := List.forall_mem_cons.mp h
    have hjoined : spell (item :: list) =
        item ++ joined ((list.map (' ' :: ·)).map fun piece => ([','], piece)) := by
      rw [spell_cons, joined, List.flatMap_map, List.flatMap_map]
      rfl
    have hspaced : contents (item :: list.map (' ' :: ·)) = contents (item :: list) := by
      rw [contents, contents, List.map_cons, List.map_cons, List.map_map]
      exact congrArg (fun rest => List.filter _ (item.trim :: rest))
        (List.map_congr_left fun text _ => trim_replicate_append 1 text)
    rw [hjoined, items_append_joined_of_comma, hspaced, contents_eq_self]
    · exact fun text htext => ⟨(h text htext).1, (h text htext).trim⟩
    · rw [List.forall_mem_cons, List.forall_mem_map]
      refine ⟨⟨hitem.2.1, fun hinside => hitem.apart.2 ?_⟩, fun text htext => (hlist text htext).apart⟩
      exact hinside.trans (List.suffix_cons ' ' item).isInfix

/-- An item is a part of the enumeration as it stands. -/
theorem isInfix_of_mem_items {text item : Text} (h : item ∈ items text) : item <:+: text := by
  obtain ⟨first, more, hpieces, hfirst, hmore, -⟩ := exists_pieces text
  obtain ⟨piece, hpiece, rfl⟩ := List.mem_map.mp (List.mem_filter.mp h).1
  apply (trim_isInfix piece).trans
  rw [hpieces] at hpiece
  rcases List.mem_cons.mp hpiece with rfl | hpiece
  · exact hfirst.isInfix
  · exact hmore piece hpiece

section Read
variable {α : Type} {item? : Text → Option α}

section
variable {text words : Text} {texts : List Text}

private theorem mapM_cons_of_none (h : item? text = none) :
    ((text :: texts).mapM fun item => (item? item).elim (Except.error item) Except.ok) =
      .error text := by
  rw [List.mapM_cons, h]
  rfl

private theorem mapM_cons_of_some {a : α} (h : item? text = some a) :
    ((text :: texts).mapM fun item => (item? item).elim (Except.error item) Except.ok) =
      (texts.mapM fun item => (item? item).elim (Except.error item) Except.ok).map (a :: ·) := by
  rw [List.mapM_cons, h]
  cases texts.mapM fun item => (item? item).elim (Except.error item) Except.ok <;> rfl

private theorem mapM_eq_ok_iff {list : List α} :
    (texts.mapM fun item => (item? item).elim (Except.error item) Except.ok) = .ok list ↔
      texts.map item? = list.map some := by
  induction texts generalizing list with
  | nil => cases list <;> simp [pure, Except.pure]
  | cons text texts ih =>
    rw [List.map_cons]
    cases htext : item? text with
    | none =>
      rw [mapM_cons_of_none htext]
      cases list <;> simp
    | some a =>
      rw [mapM_cons_of_some htext]
      cases list with
      | nil => cases texts.mapM fun item => (item? item).elim (Except.error item) Except.ok <;>
          simp [Except.map]
      | cons b list =>
        rw [List.map_cons, List.cons.injEq, Option.some.injEq, ← ih]
        cases texts.mapM fun item => (item? item).elim (Except.error item) Except.ok <;>
          simp [Except.map]

private theorem mapM_eq_error_iff :
    (texts.mapM fun item => (item? item).elim (Except.error item) Except.ok) = .error words ↔
      ∃ front back, texts = front ++ words :: back ∧ (∀ item ∈ front, item? item ≠ none) ∧
        item? words = none := by
  induction texts with
  | nil => simp [pure, Except.pure]
  | cons text texts ih =>
    cases htext : item? text with
    | none =>
      -- The first text is the one that is told of, and nothing behind it is looked at.
      rw [mapM_cons_of_none htext, Except.error.injEq]
      constructor
      · rintro rfl
        exact ⟨[], texts, rfl, List.forall_mem_nil _, htext⟩
      · rintro ⟨front, back, hsplit, hfront, -⟩
        obtain ⟨-, hwords⟩ | ⟨more, rfl, -⟩ := List.cons_eq_append_iff.mp hsplit
        · exact (List.cons.inj hwords).1.symm
        · exact absurd htext (hfront text List.mem_cons_self)
    | some a =>
      have herror : ((text :: texts).mapM fun item =>
          (item? item).elim (Except.error item) Except.ok) = .error words ↔
            (texts.mapM fun item => (item? item).elim (Except.error item) Except.ok) =
              .error words := by
        rw [mapM_cons_of_some htext]
        cases texts.mapM fun item => (item? item).elim (Except.error item) Except.ok <;>
          simp [Except.map]
      rw [herror, ih]
      constructor
      · rintro ⟨front, back, rfl, hfront, hwords⟩
        exact ⟨text :: front, back, rfl,
          List.forall_mem_cons.mpr ⟨by simp [htext], hfront⟩, hwords⟩
      · rintro ⟨front, back, hsplit, hfront, hwords⟩
        obtain ⟨-, hhead⟩ | ⟨more, rfl, hmore⟩ := List.cons_eq_append_iff.mp hsplit
        · rw [(List.cons.inj hhead).1, htext] at hwords
          contradiction
        · exact ⟨more, back, hmore, (List.forall_mem_cons.mp hfront).2, hwords⟩

end

/-- A whole enumeration is read where it has items and each of them is read. -/
theorem read_eq_ok_iff {text : Text} {list : List α} :
    read item? text = .ok list ↔ list ≠ [] ∧ (items text).map item? = list.map some := by
  rw [read]
  split
  · next hnil =>
    cases list <;> simp [hnil]
  · next hne =>
    rw [mapM_eq_ok_iff, iff_and_self]
    rintro h rfl
    exact hne (List.map_eq_nil_iff.mp h)

/-- What is told of is the first item that cannot be read, or all there is where there is no
item. -/
theorem read_eq_error_iff {text words : Text} :
    read item? text = .error words ↔
      items text = [] ∧ words = text.trim ∨
        ∃ front back, items text = front ++ words :: back ∧ (∀ item ∈ front, item? item ≠ none) ∧
          item? words = none := by
  rw [read]
  split
  · next hnil => simp [hnil, eq_comm]
  · next hne =>
    rw [mapM_eq_error_iff]
    exact (or_iff_right fun hnil => hne hnil.1).symm

/-- Whether an enumeration is read as a whole or not at all: each item as what it means, in order, or
else no more than the first item without a meaning. Without items there is all of the text to tell
of. -/
structure IsReadAs (Means : Text → α → Prop) (text : Text) (result : Except Text (List α)) :
    Prop where
  ok_iff : ∀ list, result = .ok list ↔ items text ≠ [] ∧ List.Forall₂ Means (items text) list
  error_iff : ∀ words, result = .error words ↔ items text = [] ∧ words = text.trim ∨
    ∃ front back, items text = front ++ words :: back ∧ (∀ item ∈ front, ∃ a, Means item a) ∧
      ∀ a, ¬ Means words a

theorem isReadAs_read {Means : Text → α → Prop} (h : ∀ item a, item? item = some a ↔ Means item a)
    (text : Text) : IsReadAs Means text (read item? text) where
  ok_iff list := by
    have hitems : (items text).map item? = list.map some ↔
        List.Forall₂ Means (items text) list := by
      rw [← List.forall₂_eq_eq_eq, List.forall₂_map_left_iff, List.forall₂_map_right_iff]
      simp only [h]
    rw [read_eq_ok_iff, hitems]
    refine and_congr_left fun hlist => not_congr ?_
    rw [← List.length_eq_zero_iff, ← hlist.length_eq, List.length_eq_zero_iff]
  error_iff words := by
    have hread (item : Text) : item? item ≠ none ↔ ∃ a, Means item a := by
      rw [Option.ne_none_iff_exists']
      exact exists_congr (h item)
    have hnone (item : Text) : item? item = none ↔ ∀ a, ¬ Means item a := by
      rw [Option.eq_none_iff_forall_ne_some]
      exact forall_congr' fun a => not_congr (h item a)
    simp only [read_eq_error_iff, hread, hnone]

/-- The words that were not understood are a part of the enumeration. -/
theorem isInfix_of_read_eq_error {text words : Text} (h : read item? text = .error words) :
    words <:+: text := by
  rcases read_eq_error_iff.mp h with ⟨-, rfl⟩ | ⟨front, back, hitems, -⟩
  · exact trim_isInfix text
  · exact isInfix_of_mem_items (by simp [hitems])

/-- What was written as an enumeration of items is read back, item by item. -/
theorem read_spell {write : α → Text} {list : List α} (hne : list ≠ [])
    (hitem : ∀ a ∈ list, IsItem (write a)) (hread : ∀ a ∈ list, item? (write a) = some a) :
    read item? (spell (list.map write)) = .ok list := by
  rw [read_eq_ok_iff, items_spell (List.forall_mem_map.mpr hitem), List.map_map]
  exact ⟨hne, List.map_congr_left hread⟩

end Read

end Enumeration

end CampaignScript
