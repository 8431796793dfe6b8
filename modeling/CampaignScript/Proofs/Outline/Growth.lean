import CampaignScript.Proofs.Outline.Joining

/-! Outlines that grow. A line that is laid out further on comes behind the last entry or among the
lines nested under it, so all other entries stay as they are, and this holds at each level. -/
namespace CampaignScript

/-- Whether a list goes on as `later`: its members stay in their places, all but the last as they
are and the last one changed in the way that `R` allows, and more of them may follow. -/
def GrowsAtEnd {α : Type} (R : α → α → Prop) (list later : List α) : Prop :=
  list = [] ∨ ∃ front last changed more,
    list = front ++ [last] ∧ later = front ++ changed :: more ∧ R last changed

namespace GrowsAtEnd
variable {α β : Type} {R : α → α → Prop} {list later : List α}

theorem nil (later : List α) : GrowsAtEnd R [] later := .inl rfl

theorem last {a b : α} (h : R a b) (more : List α) : GrowsAtEnd R [a] (b :: more) :=
  .inr ⟨[], a, b, more, rfl, rfl, h⟩

theorem cons (h : GrowsAtEnd R list later) (hne : list ≠ []) (a : α) :
    GrowsAtEnd R (a :: list) (a :: later) := by
  obtain ⟨front, last, changed, more, rfl, rfl, hlast⟩ := h.resolve_left hne
  exact .inr ⟨a :: front, last, changed, more, rfl, rfl, hlast⟩

theorem map (h : GrowsAtEnd R list later) {S : β → β → Prop} {f : α → β}
    (hf : ∀ a b, R a b → S (f a) (f b)) : GrowsAtEnd S (list.map f) (later.map f) := by
  rcases h with rfl | ⟨front, last, changed, more, rfl, rfl, hlast⟩
  · exact .nil _
  · refine .inr ⟨front.map f, f last, f changed, more.map f, ?_, ?_, hf last changed hlast⟩
    · rw [List.map_append, List.map_singleton]
    · rw [List.map_append, List.map_cons]

theorem flatMap_isPrefix (h : GrowsAtEnd R list later) {f : α → List β}
    (hf : ∀ a b, R a b → f a <+: f b) : list.flatMap f <+: later.flatMap f := by
  rcases h with rfl | ⟨front, last, changed, more, rfl, rfl, hlast⟩
  · exact List.nil_prefix
  · rw [List.flatMap_append, List.flatMap_append, List.flatMap_singleton, List.flatMap_cons]
    apply (List.prefix_append_right_inj _).mpr
    exact (hf last changed hlast).trans (List.prefix_append _ _)

theorem map_isPrefix (h : GrowsAtEnd R list later) {f : α → β} (hf : ∀ a b, R a b → f b = f a) :
    list.map f <+: later.map f := by
  rcases h with rfl | ⟨front, last, changed, more, rfl, rfl, hlast⟩
  · exact List.nil_prefix
  · rw [List.map_append, List.map_append, List.map_singleton, List.map_cons, hf last changed hlast]
    exact ⟨more.map f, by simp⟩

end GrowsAtEnd

namespace Outline

/-- Whether an outline goes on as another one: where it ends, entries may follow, and lines may be
nested under its last entry, behind those that are. -/
inductive Grows : Outline → Outline → Prop
  | empty (later : Outline) : Grows .empty later
  | nested {line : Line} {nested later : Outline} (h : Grows nested later) (rest : Outline) :
    Grows (.entry line nested .empty) (.entry line later rest)
  | rest {line : Line} {nested rest later : Outline} (hne : rest ≠ .empty) (h : Grows rest later) :
    Grows (.entry line nested rest) (.entry line nested later)

namespace Grows
variable {outline later last : Outline}

theorem refl (outline : Outline) : Grows outline outline := by
  induction outline with
  | empty => exact .empty _
  | entry line nested rest ihNested ihRest =>
    by_cases hrest : rest = .empty
    · rw [hrest]
      exact .nested ihNested .empty
    · exact .rest hrest ihRest

theorem ne_empty (h : Grows outline later) (hne : outline ≠ .empty) : later ≠ .empty := by
  cases h with
  | empty => exact absurd rfl hne
  | nested => exact Outline.noConfusion
  | rest => exact Outline.noConfusion

theorem trans (h : Grows outline later) (h' : Grows later last) : Grows outline last := by
  induction h generalizing last with
  | empty => exact .empty last
  | nested h rest ih => cases h' with
    | nested h' rest => exact .nested (ih h') rest
    | rest hne h' => exact .nested h _
  | rest hne h ih => cases h' with
    -- An outline that has grown behind its first entry does not end with it any more.
    | nested h' rest => exact absurd rfl (h.ne_empty hne)
    | rest hne' h' => exact .rest hne (ih h')

/-- The first line of an outline stays the first, and what follows it grows. -/
theorem exists_of_entry {line : Line} {nested rest : Outline}
    (h : Grows (.entry line nested rest) later) :
    ∃ laterNested laterRest, later = .entry line laterNested laterRest ∧ Grows rest laterRest := by
  cases h with
  | nested h laterRest => exact ⟨_, laterRest, rfl, .empty laterRest⟩
  | rest hne h => exact ⟨nested, _, rfl, h⟩

theorem push (line : Line) (level : Nat) (outline : Outline) :
    Grows outline (outline.push line level) := by
  fun_induction Outline.push line level outline with
  | case1 => exact .empty _
  | case2 last nested level ih => exact .nested ih .empty
  | case3 level head nested rest hlast ih =>
    by_cases hrest : rest = .empty
    · rw [hrest]
      exact .nested (.refl nested) _
    · exact .rest hrest ih

end Grows

end Outline

/-- Whether an entry goes on as another one, by lines that are nested under it. -/
def Entry.Grows (entry later : Entry) : Prop :=
  later.line = entry.line ∧ entry.nested.Grows later.nested

theorem Outline.Grows.entries {outline later : Outline} (h : outline.Grows later) :
    GrowsAtEnd Entry.Grows outline.entries later.entries := by
  induction h with
  | empty later => exact .nil _
  | nested h rest => exact .last ⟨rfl, h⟩ rest.entries
  | @rest line nested rest later hne h ih =>
    apply ih.cons
    cases rest with
    | empty => exact absurd rfl hne
    | entry => exact List.cons_ne_nil _ _

/-- The lines directly under an entry stay in their places. -/
theorem Outline.Grows.lines_isPrefix {outline later : Outline} (h : outline.Grows later) :
    outline.lines <+: later.lines :=
  h.entries.map_isPrefix fun _ _ hgrows => hgrows.1

namespace Layout

theorem grows_add (layout : Layout) (line : Line) :
    layout.outline.Grows (layout.add line).outline := by
  unfold add
  split
  · exact .refl _
  · split <;> exact .push _ _ _

theorem grows_foldl_add (layout : Layout) (lines : List Line) :
    layout.outline.Grows (lines.foldl add layout).outline := by
  induction lines generalizing layout with
  | nil => exact .refl _
  | cons line lines ih => exact (grows_add layout line).trans (ih (layout.add line))

theorem grows_ofText_append {front : Text} (hfront : front.getLast? = some '\n')
    (hne : contentLines front ≠ []) (more : Text) :
    (ofText front).outline.Grows (ofText (front ++ more)).outline := by
  rw [ofText_of_ne_nil hne, ofText_of_ne_nil (contentLines_append_ne_nil hfront hne more),
    contentLines_append hfront, ofLines_append]
  exact grows_foldl_add _ _

end Layout

end CampaignScript
