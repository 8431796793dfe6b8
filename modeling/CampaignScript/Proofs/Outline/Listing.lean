import CampaignScript.Outline.Basic
import Mathlib.Data.List.TakeWhile

/-! The listing of an outline, its lines in order with their depths, leaves nothing of the outline
out. A line that is pushed comes last in the listing, and its depth is that of the place it takes
on the spine. -/
namespace CampaignScript.Outline

theorem push_ne_empty (line : Line) (level : Nat) (outline : Outline) :
    outline.push line level ≠ empty := by
  fun_cases push line level outline <;> simp

theorem push_entry_of_ne_empty (line head : Line) (level : Nat) (nested : Outline) {rest : Outline}
    (h : rest ≠ empty) :
    (entry head nested rest).push line level = entry head nested (rest.push line level) := by
  cases rest with
  | empty => exact absurd rfl h
  | entry => cases level <;> rfl

theorem spine_entry_of_ne_empty (line : Line) (nested : Outline) {rest : Outline}
    (h : rest ≠ empty) : (entry line nested rest).spine = rest.spine := by
  cases rest with
  | empty => exact absurd rfl h
  | entry => rfl

/-- A pushed line ends the spine, below the lines that it is nested under. -/
theorem spine_push (line : Line) (level : Nat) (outline : Outline) :
    (outline.push line level).spine = outline.spine.take level ++ [line] := by
  fun_induction push line level outline with
  | case1 => simp [spine]
  | case2 last nested level ih => simp [spine, ih]
  | case3 level head nested rest hlast ih =>
    rw [spine_entry_of_ne_empty _ _ (push_ne_empty line level rest), ih]
    by_cases hrest : rest = empty
    · cases level with
      | zero => simp
      | succ level => exact absurd hrest (hlast level rfl)
    · rw [spine_entry_of_ne_empty _ _ hrest]

/-- A pushed line comes behind all others, at the depth of its place on the spine. -/
theorem listing_push (line : Line) (level : Nat) (outline : Outline) (depth : Nat) :
    (outline.push line level).listing depth =
      outline.listing depth ++ [(depth + min level outline.spine.length, line)] := by
  fun_induction push line level outline generalizing depth with
  | case1 => simp [listing, spine]
  | case2 last nested level ih =>
    simp only [listing, ih, spine, List.length_cons, List.append_nil, List.cons_append]
    congr 4
    omega
  | case3 level head nested rest hlast ih =>
    by_cases hrest : rest = empty
    · cases level with
      | zero => simp [listing, hrest, push]
      | succ level => exact absurd hrest (hlast level rfl)
    · simp [listing, ih, spine_entry_of_ne_empty _ _ hrest]

theorem le_depth_of_mem_listing {outline : Outline} {depth : Nat} {item : Nat × Line}
    (h : item ∈ outline.listing depth) : depth ≤ item.1 := by
  induction outline generalizing depth with
  | empty => simp [listing] at h
  | entry line nested rest ihNested ihRest =>
    simp only [listing, List.mem_cons, List.mem_append] at h
    rcases h with rfl | h | h
    · exact Nat.le_refl depth
    · exact Nat.le_of_succ_le (ihNested h)
    · exact ihRest h

/-- What is nested under an entry can be told from what follows it by the depths. -/
private theorem takeWhile_listing (nested rest : Outline) (depth : Nat) :
    (nested.listing (depth + 1) ++ rest.listing depth).takeWhile (depth < ·.1) =
      nested.listing (depth + 1) := by
  rw [List.takeWhile_append_of_pos]
  · cases rest <;> simp [listing]
  · intro item h
    simpa [Nat.succ_le_iff] using le_depth_of_mem_listing h

theorem listing_injective (depth : Nat) : Function.Injective (listing depth) := by
  intro outline other h
  induction outline generalizing depth other with
  | empty => cases other with
    | empty => rfl
    | entry => simp [listing] at h
  | entry line nested rest ihNested ihRest => cases other with
    | empty => simp [listing] at h
    | entry line' nested' rest' =>
      simp only [listing, List.cons.injEq, Prod.mk.injEq, true_and] at h
      obtain ⟨rfl, h⟩ := h
      have hNested := congrArg (List.takeWhile (depth < ·.1)) h
      simp only [takeWhile_listing] at hNested
      rw [hNested, List.append_cancel_left_eq] at h
      rw [ihNested (depth + 1) hNested, ihRest depth h]

/-- Whether all lines of an outline have a property. -/
def Forall (P : Line → Prop) : Outline → Prop
  | empty => True
  | entry line nested rest => P line ∧ nested.Forall P ∧ rest.Forall P

variable {P : Line → Prop}

theorem forall_of_listing {outline : Outline} {depth : Nat}
    (h : ∀ item ∈ outline.listing depth, P item.2) : outline.Forall P := by
  induction outline generalizing depth with
  | empty => trivial
  | entry line nested rest ihNested ihRest =>
    obtain ⟨hline, hmore⟩ := List.forall_mem_cons.mp h
    obtain ⟨hnested, hrest⟩ := List.forall_mem_append.mp hmore
    exact ⟨hline, ihNested hnested, ihRest hrest⟩

theorem Forall.of_mem_entries {outline : Outline} (h : outline.Forall P) {entry : Entry}
    (hentry : entry ∈ outline.entries) : P entry.line ∧ entry.nested.Forall P := by
  induction outline with
  | empty => exact absurd hentry List.not_mem_nil
  | entry line nested rest ihNested ihRest =>
    obtain ⟨hline, hnested, hrest⟩ := h
    rcases List.mem_cons.mp hentry with rfl | hentry
    · exact ⟨hline, hnested⟩
    · exact ihRest hrest hentry

theorem Forall.of_mem_lines {outline : Outline} (h : outline.Forall P) {line : Line}
    (hline : line ∈ outline.lines) : P line := by
  obtain ⟨entry, hentry, rfl⟩ := List.mem_map.mp hline
  exact (h.of_mem_entries hentry).1

end CampaignScript.Outline
