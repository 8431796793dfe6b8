import CampaignScript.Json.Basic
import CampaignScript.Proofs.Text.Numeral

/-! The text of a JSON value tells the value. Each part of the text shows where it ends, but for a
number, which goes on as long as there are digits; and no digit ever stands behind a number. -/
namespace CampaignScript.Json

/-- Whether a text does not go on with a number that stands in front of it. -/
def Ends (text : Text) : Prop :=
  ∀ c ∈ text.head?, c.isDigit = false

theorem Ends.nil : Ends [] :=
  fun _ hc => absurd hc (Option.not_mem_none _)

theorem ends_cons {c : Char} (h : c.isDigit = false) (rest : Text) : Ends (c :: rest) := by
  intro d hd
  cases hd
  exact h

/-- Whether what is written for a value tells the value, and where the text of the value ends. -/
def Legible {α : Type} (write : α → Text) (a : α) : Prop :=
  ∀ b x y, Ends x → Ends y → write a ++ x = write b ++ y → a = b ∧ x = y

section Numbers

theorem takeWhile_numeral_append (n : Nat) {rest : Text} (h : Ends rest) :
    (Text.numeral n ++ rest).takeWhile Char.isDigit = Text.numeral n := by
  rw [List.takeWhile_append_of_pos fun c hc => Text.isDigit_of_mem_numeral hc]
  cases rest with
  | nil => simp
  | cons c rest => simp [h c rfl]

theorem numeral_injective : Function.Injective Text.numeral := by
  intro n m h
  have hnumber := congrArg Text.number? h
  rw [Text.number?_numeral, Text.number?_numeral] at hnumber
  exact Option.some.inj hnumber

theorem legible_numeral (n : Nat) : Legible Text.numeral n := by
  intro m x y hx hy h
  have hdigits := congrArg (List.takeWhile Char.isDigit) h
  rw [takeWhile_numeral_append n hx, takeWhile_numeral_append m hy] at hdigits
  rw [hdigits, List.append_cancel_left_eq] at h
  exact ⟨numeral_injective hdigits, h⟩

end Numbers

section Strings

/-- The characters that are not written as they are. -/
def escaped : List Char :=
  '"' :: '\\' :: (List.range 0x20).map Char.ofNat

theorem escape_eq_or_mem_escaped (c : Char) :
    (escape c = [c] ∧ c ≠ '"' ∧ c ≠ '\\') ∨ c ∈ escaped := by
  unfold escape
  split
  case h_8 hquote hbackslash _ _ _ _ _ =>
    split
    · next hcontrol =>
      refine .inr (List.mem_cons_of_mem _ (List.mem_cons_of_mem _ (List.mem_map.mpr ?_)))
      exact ⟨c.toNat, List.mem_range.mpr hcontrol, Char.ofNat_toNat c⟩
    · exact .inl ⟨rfl, hquote, hbackslash⟩
  all_goals exact .inr (by decide +kernel)

theorem eq_of_escape_isPrefix :
    ∀ c ∈ escaped, ∀ d ∈ escaped, escape c <+: escape d → c = d := by
  have h : escaped.all fun c => escaped.all fun d => escape c <+: escape d → c = d := by
    decide +kernel
  intro c hc d hd
  exact of_decide_eq_true (List.all_eq_true.mp (List.all_eq_true.mp h c hc) d hd)

theorem head?_escape_of_mem_escaped : ∀ c ∈ escaped, (escape c).head? = some '\\' := by
  have h : escaped.all fun c => (escape c).head? = some '\\' := by
    decide +kernel
  simpa using h

theorem exists_escape_eq_cons (c : Char) : ∃ d rest, escape c = d :: rest ∧ d ≠ '"' := by
  rcases escape_eq_or_mem_escaped c with ⟨h, hquote, -⟩ | h
  · exact ⟨c, [], h, hquote⟩
  · obtain ⟨rest, hrest⟩ := List.head?_eq_some_iff.mp (head?_escape_of_mem_escaped c h)
    exact ⟨'\\', rest, hrest, by decide⟩

/-- No backslash stands for itself, so a character is not taken for the start of another one. -/
theorem escape_append_inj {c d : Char} {x y : Text} (h : escape c ++ x = escape d ++ y) :
    c = d ∧ x = y := by
  have hbackslash {c : Char} (hc : c ∈ escaped) (x : Text) : (escape c ++ x).head? = some '\\' := by
    rw [List.head?_append, head?_escape_of_mem_escaped c hc, Option.some_or]
  have hhead := congrArg List.head? h
  rcases escape_eq_or_mem_escaped c with ⟨hc, -, hcPlain⟩ | hc <;>
    rcases escape_eq_or_mem_escaped d with ⟨hd, -, hdPlain⟩ | hd
  · rw [hc, hd] at h
    exact List.cons_eq_cons.mp h
  · rw [hc, hbackslash hd] at hhead
    exact absurd (Option.some.inj hhead) hcPlain
  · rw [hd, hbackslash hc] at hhead
    exact absurd (Option.some.inj hhead).symm hdPlain
  · have hcd : c = d := by
      have hprefix : escape d <+: escape c ++ x := h ▸ List.prefix_append _ _
      rcases List.prefix_or_prefix_of_prefix (List.prefix_append (escape c) x) hprefix with h | h
      · exact eq_of_escape_isPrefix c hc d hd h
      · exact (eq_of_escape_isPrefix d hd c hc h).symm
    rw [hcd, List.append_cancel_left_eq] at h
    exact ⟨hcd, h⟩

theorem flatMap_escape_append_inj {text other x y : Text}
    (h : text.flatMap escape ++ '"' :: x = other.flatMap escape ++ '"' :: y) :
    text = other ∧ x = y := by
  induction text generalizing other with
  | nil =>
    cases other with
    | nil => exact ⟨rfl, List.tail_eq_of_cons_eq h⟩
    | cons d other =>
      obtain ⟨first, rest, hd, hfirst⟩ := exists_escape_eq_cons d
      rw [List.flatMap_cons, hd] at h
      exact absurd (List.head_eq_of_cons_eq h).symm hfirst
  | cons c text ih =>
    cases other with
    | nil =>
      obtain ⟨first, rest, hc, hfirst⟩ := exists_escape_eq_cons c
      rw [List.flatMap_cons, hc] at h
      exact absurd (List.head_eq_of_cons_eq h) hfirst
    | cons d other =>
      rw [List.flatMap_cons, List.flatMap_cons, List.append_assoc, List.append_assoc] at h
      obtain ⟨rfl, hmore⟩ := escape_append_inj h
      obtain ⟨rfl, hrest⟩ := ih hmore
      exact ⟨rfl, hrest⟩

theorem quote_append_inj {text other x y : Text} (h : quote text ++ x = quote other ++ y) :
    text = other ∧ x = y := by
  apply flatMap_escape_append_inj
  simpa [quote] using h

end Strings

section Blocks

variable {α : Type} {write : α → Text} {gap close : Text}

/-- The parts behind the first one, and the end of the block. -/
private def further (gap close : Text) (parts : List Text) : Text :=
  parts.flatMap (fun next => ',' :: gap ++ next) ++ close

private theorem ends_further_append {last : Char} {rest : Text} (hlast : last.isDigit = false)
    (parts : List Text) (more : Text) : Ends (further gap (last :: rest) parts ++ more) := by
  cases parts with
  | nil => exact ends_cons hlast _
  | cons part parts => exact ends_cons rfl _

private theorem further_append_inj {last : Char} {rest : Text} (hlast : last.isDigit = false)
    (hcomma : last ≠ ',') {list other : List α} (hlist : ∀ a ∈ list, Legible write a) {x y : Text}
    (h : further gap (last :: rest) (list.map write) ++ x =
      further gap (last :: rest) (other.map write) ++ y) :
    list = other ∧ x = y := by
  induction list generalizing other with
  | nil =>
    cases other with
    | nil => exact ⟨rfl, List.append_cancel_left h⟩
    | cons b other => exact absurd (List.head_eq_of_cons_eq h) hcomma
  | cons a list ih =>
    obtain ⟨ha, hlist⟩ := List.forall_mem_cons.mp hlist
    cases other with
    | nil => exact absurd (List.head_eq_of_cons_eq h).symm hcomma
    | cons b other =>
      have hstep (a : α) (list : List α) (more : Text) :
          further gap (last :: rest) ((a :: list).map write) ++ more =
            (',' :: gap) ++ (write a ++ (further gap (last :: rest) (list.map write) ++ more)) := by
        simp [further]
      rw [hstep, hstep, List.append_cancel_left_eq] at h
      obtain ⟨rfl, hmore⟩ := ha b _ _ (ends_further_append hlast _ _)
        (ends_further_append hlast _ _) h
      obtain ⟨rfl, hrest⟩ := ih hlist hmore
      exact ⟨rfl, hrest⟩

/-- A block shows its parts where none of them begins like the end of a block. -/
theorem block_append_inj (style : Style) (depth : Nat) (opening closing : Char)
    (hdigit : closing.isDigit = false) (hcomma : closing ≠ ',') (hfeed : closing ≠ '\n')
    (hwrite : ∀ a, ∃ c rest, write a = c :: rest ∧ c ≠ closing) {list other : List α}
    (hlist : ∀ a ∈ list, Legible write a) {x y : Text}
    (h : block style depth opening closing (list.map write) ++ x =
      block style depth opening closing (other.map write) ++ y) :
    list = other ∧ x = y := by
  obtain ⟨last, rest, hend, hlast, hlastComma⟩ : ∃ last rest,
      style.gap depth ++ [closing] = last :: rest ∧ last.isDigit = false ∧ last ≠ ',' := by
    cases style with
    | compact => exact ⟨closing, [], rfl, hdigit, hcomma⟩
    | pretty => exact ⟨'\n', _, rfl, rfl, by decide⟩
  have hcons (a : α) (list : List α) (more : Text) :
      block style depth opening closing ((a :: list).map write) ++ more =
        opening :: style.gap (depth + 1) ++
          (write a ++ (further (style.gap (depth + 1)) (last :: rest) (list.map write) ++ more)) := by
    simp [block, further, ← hend]
  -- An empty block closes at once, where a first part or the gap before it would stand.
  have hempty (a : α) (list : List α) (more more' : Text) :
      block style depth opening closing [] ++ more ≠
        block style depth opening closing ((a :: list).map write) ++ more' := by
    intro h
    rw [hcons] at h
    obtain ⟨c, part, hc, hne⟩ := hwrite a
    cases style with
    | compact =>
      rw [hc] at h
      exact hne (List.head_eq_of_cons_eq (List.tail_eq_of_cons_eq h)).symm
    | pretty => exact hfeed (List.head_eq_of_cons_eq (List.tail_eq_of_cons_eq h))
  cases list with
  | nil =>
    cases other with
    | nil => exact ⟨rfl, List.append_cancel_left h⟩
    | cons b other => exact absurd h (hempty b other x y)
  | cons a list =>
    obtain ⟨ha, hlist⟩ := List.forall_mem_cons.mp hlist
    cases other with
    | nil => exact absurd h.symm (hempty a list y x)
    | cons b other =>
      rw [hcons, hcons, List.append_cancel_left_eq] at h
      obtain ⟨rfl, hmore⟩ := ha b _ _ (ends_further_append hlast _ _)
        (ends_further_append hlast _ _) h
      obtain ⟨rfl, hrest⟩ := further_append_inj hlast hlastComma hlist hmore
      exact ⟨rfl, hrest⟩

end Blocks

theorem renderItems_eq_map (style : Style) (depth : Nat) (items : List Json) :
    renderItems style depth items = items.map (render style depth) := by
  induction items with
  | nil => rfl
  | cons item items ih => rw [renderItems, ih, List.map_cons]

theorem renderMembers_eq_map (style : Style) (depth : Nat) (members : List (Text × Json)) :
    renderMembers style depth members = members.map (renderMember style depth) := by
  induction members with
  | nil => rfl
  | cons member members ih => rw [renderMembers, ih, List.map_cons]

/-- The character that the text of a value begins with, unless that is a digit. -/
def opening? : Json → Option Char
  | number _ => none
  | string _ => some '"'
  | array _ => some '['
  | object _ => some '{'

theorem exists_block_eq_cons (style : Style) (depth : Nat) (opening closing : Char)
    (parts : List Text) : ∃ rest, block style depth opening closing parts = opening :: rest := by
  cases parts <;> exact ⟨_, rfl⟩

theorem exists_render_eq_cons (style : Style) (depth : Nat) (json : Json) :
    ∃ c rest, json.render style depth = c :: rest ∧
      json.opening? = if c.isDigit then none else some c := by
  cases json with
  | number n =>
    obtain ⟨c, rest, h⟩ := List.exists_cons_of_ne_nil (Text.numeral_ne_nil n)
    have hdigit : c.isDigit = true := Text.isDigit_of_mem_numeral (h ▸ List.mem_cons_self)
    exact ⟨c, rest, h, by rw [if_pos hdigit, opening?]⟩
  | string text => exact ⟨'"', _, rfl, rfl⟩
  | array items =>
    rw [render]
    obtain ⟨rest, h⟩ := exists_block_eq_cons style depth '[' ']' _
    exact ⟨'[', rest, h, rfl⟩
  | object members =>
    rw [render]
    obtain ⟨rest, h⟩ := exists_block_eq_cons style depth '{' '}' _
    exact ⟨'{', rest, h, rfl⟩

theorem opening?_eq_of_render_append {style : Style} {depth : Nat} {json other : Json} {x y : Text}
    (h : json.render style depth ++ x = other.render style depth ++ y) :
    json.opening? = other.opening? := by
  obtain ⟨c, rest, hc, hopening⟩ := exists_render_eq_cons style depth json
  obtain ⟨d, rest', hd, hopening'⟩ := exists_render_eq_cons style depth other
  rw [hc, hd] at h
  rw [hopening, hopening', List.head_eq_of_cons_eq h]

theorem exists_render_eq_cons_ne_bracket (style : Style) (depth : Nat) (json : Json) :
    ∃ c rest, json.render style depth = c :: rest ∧ c ≠ ']' := by
  obtain ⟨c, rest, hc, hopening⟩ := exists_render_eq_cons style depth json
  refine ⟨c, rest, hc, ?_⟩
  rintro rfl
  cases json <;> exact absurd hopening (by simp [opening?])

theorem exists_renderMember_eq_cons_ne_brace (style : Style) (depth : Nat)
    (member : Text × Json) : ∃ c rest, renderMember style depth member = c :: rest ∧ c ≠ '}' := by
  rw [renderMember, quote]
  exact ⟨'"', _, rfl, by decide⟩

theorem legible_renderMember {style : Style} {depth : Nat} {member : Text × Json}
    (h : Legible (render style depth) member.2) : Legible (renderMember style depth) member := by
  intro other x y hx hy heq
  rw [renderMember, renderMember, List.append_assoc, List.append_assoc, List.append_assoc,
    List.append_assoc] at heq
  obtain ⟨hkey, hvalue⟩ := quote_append_inj heq
  rw [List.append_cancel_left_eq] at hvalue
  obtain ⟨hjson, hrest⟩ := h other.2 x y hx hy hvalue
  exact ⟨Prod.ext hkey hjson, hrest⟩

/-- By recursion on the value: its first character tells what kind of value it is, and its parts are
legible. -/
theorem legible_render (style : Style) (depth : Nat) :
    (json : Json) → Legible (render style depth) json
  | number n => by
    intro other x y hx hy h
    cases other with
    | number m =>
      rw [render, render] at h
      obtain ⟨rfl, hrest⟩ := legible_numeral n m x y hx hy h
      exact ⟨rfl, hrest⟩
    | _ => exact absurd (opening?_eq_of_render_append h) (by simp [opening?])
  | string text => by
    intro other x y hx hy h
    cases other with
    | string text' =>
      rw [render, render] at h
      obtain ⟨rfl, hrest⟩ := quote_append_inj h
      exact ⟨rfl, hrest⟩
    | _ => exact absurd (opening?_eq_of_render_append h) (by simp [opening?])
  | array items => by
    intro other x y hx hy h
    cases other with
    | array items' =>
      have hitems : ∀ item ∈ items, Legible (render style (depth + 1)) item :=
        fun item _ => legible_render style (depth + 1) item
      rw [render, render, renderItems_eq_map, renderItems_eq_map] at h
      obtain ⟨rfl, hrest⟩ := block_append_inj style depth '[' ']' rfl (by decide) (by decide)
        (exists_render_eq_cons_ne_bracket style (depth + 1)) hitems h
      exact ⟨rfl, hrest⟩
    | _ => exact absurd (opening?_eq_of_render_append h) (by simp [opening?])
  | object members => by
    intro other x y hx hy h
    cases other with
    | object members' =>
      have hmembers : ∀ member ∈ members, Legible (renderMember style (depth + 1)) member :=
        fun member _ => legible_renderMember (legible_render style (depth + 1) member.2)
      rw [render, render, renderMembers_eq_map, renderMembers_eq_map] at h
      obtain ⟨rfl, hrest⟩ := block_append_inj style depth '{' '}' rfl (by decide) (by decide)
        (exists_renderMember_eq_cons_ne_brace style (depth + 1)) hmembers h
      exact ⟨rfl, hrest⟩
    | _ => exact absurd (opening?_eq_of_render_append h) (by simp [opening?])
termination_by json => sizeOf json
decreasing_by
  · next hitem =>
    have := List.sizeOf_lt_of_mem hitem
    simp only [array.sizeOf_spec]
    omega
  · next hmember =>
    have := List.sizeOf_lt_of_mem hmember
    rcases member with ⟨key, value⟩
    simp only [object.sizeOf_spec, Prod.mk.sizeOf_spec] at this ⊢
    omega

theorem toText_injective (style : Style) : Function.Injective (toText style) := by
  intro json other h
  refine (legible_render style 0 json other [] [] .nil .nil ?_).1
  rw [List.append_nil, List.append_nil]
  exact h

end CampaignScript.Json
