import CampaignScript.Text.Space
import Mathlib.Data.List.DropRight
import Mathlib.Data.List.TakeWhile

/-! Texts without white space at their ends, and what trimming leaves of a text. -/
namespace CampaignScript.Text

/-- Of the characters between the space and the first control character behind ASCII, none is white
space. -/
theorem isSpace_of_between {c : Char} (h : 0x20 < c.toNat ∧ c.toNat < 0x85) :
    isSpace c = false := by
  rw [isSpace, inRanges, List.any_eq_false]
  intro range hrange
  have houtside : range.2 ≤ 0x20 ∨ 0x85 ≤ range.1 := by
    revert range
    decide
  simp only [Bool.and_eq_true, decide_eq_true_eq]
  omega

theorem trimStart_eq_self_iff {text : Text} :
    text.trimStart = text ↔ ∀ c ∈ text.head?, isSpace c = false := by
  cases text with
  | nil => simp [trimStart]
  | cons c text =>
    rw [trimStart, List.dropWhile_eq_self_iff]
    simp

theorem trimEnd_eq_self_iff {text : Text} :
    text.trimEnd = text ↔ ∀ c ∈ text.getLast?, isSpace c = false := by
  rw [show text.trimEnd = text.rdropWhile isSpace from rfl, List.rdropWhile_eq_self_iff]
  constructor
  · intro h c hc
    obtain ⟨hne, rfl⟩ := List.mem_getLast?_eq_getLast hc
    simpa using h hne
  · intro h hne
    simpa using h _ (List.getLast_mem_getLast? hne)

@[simp] theorem trimEnd_trimEnd (text : Text) : text.trimEnd.trimEnd = text.trimEnd :=
  List.rdropWhile_idempotent isSpace text

@[simp] theorem trimStart_trimStart (text : Text) : text.trimStart.trimStart = text.trimStart :=
  List.dropWhile_idempotent isSpace text

theorem trimEnd_isPrefix (text : Text) : text.trimEnd <+: text :=
  List.rdropWhile_prefix isSpace text

theorem trimStart_isSuffix (text : Text) : text.trimStart <:+ text :=
  List.dropWhile_suffix isSpace

theorem trim_isInfix (text : Text) : text.trim <:+: text :=
  (trimEnd_isPrefix text.trimStart).isInfix.trans (trimStart_isSuffix text).isInfix

theorem mem_of_mem_trim {c : Char} {text : Text} (h : c ∈ text.trim) : c ∈ text :=
  (trim_isInfix text).subset h

theorem trimStart_trimEnd {text : Text} (h : text.trimStart = text) :
    text.trimEnd.trimStart = text.trimEnd := by
  rw [trimStart_eq_self_iff] at h ⊢
  intro c hc
  obtain ⟨rest, hrest⟩ := trimEnd_isPrefix text
  exact h c (by rw [← hrest, List.head?_append, Option.mem_def.mp hc]; rfl)

@[simp] theorem trimStart_trim (text : Text) : text.trim.trimStart = text.trim :=
  trimStart_trimEnd (trimStart_trimStart text)

@[simp] theorem trimEnd_trim (text : Text) : text.trim.trimEnd = text.trim :=
  trimEnd_trimEnd text.trimStart

@[simp] theorem trim_trim (text : Text) : text.trim.trim = text.trim := by
  rw [trim, trimStart_trim, trimEnd_trim]

theorem trim_eq_self_iff {text : Text} :
    text.trim = text ↔ text.trimStart = text ∧ text.trimEnd = text := by
  constructor
  · intro h
    exact ⟨h ▸ trimStart_trim text, h ▸ trimEnd_trim text⟩
  · rintro ⟨hstart, hend⟩
    rw [trim, hstart, hend]

theorem isSpace_of_trim_eq_cons {text rest : Text} {c : Char} (h : text.trim = c :: rest) :
    isSpace c = false :=
  trimStart_eq_self_iff.mp (trimStart_trim text) c (by rw [h]; rfl)

theorem trimEnd_cons_ne_nil {c : Char} (h : isSpace c = false) (rest : Text) :
    Text.trimEnd (c :: rest) ≠ [] := by
  intro hnil
  rw [List.rdropWhile_eq_nil_iff.mp hnil c List.mem_cons_self] at h
  contradiction

theorem trimEnd_append_of_ne_nil (front : Text) {text : Text} (h : text.trimEnd = text)
    (hne : text ≠ []) : (front ++ text).trimEnd = front ++ text := by
  rw [trimEnd_eq_self_iff] at h ⊢
  rwa [List.getLast?_append_of_ne_nil front hne]

theorem trimEnd_of_append {front text : Text} (h : (front ++ text).trimEnd = front ++ text) :
    text.trimEnd = text := by
  rw [trimEnd_eq_self_iff] at h ⊢
  intro c hc
  exact h c (by simp [Option.mem_def.mp hc])

theorem trimStart_append_of_ne_nil {text : Text} (h : text.trimStart = text) (hne : text ≠ [])
    (rest : Text) : (text ++ rest).trimStart = text ++ rest := by
  rw [trimStart_eq_self_iff] at h ⊢
  rwa [List.head?_append_of_ne_nil text hne]

/-- Whether a text has white space only. -/
def IsBlank (text : Text) : Prop :=
  ∀ c ∈ text, isSpace c

instance (text : Text) : Decidable text.IsBlank :=
  List.decidableBAll _ text

theorem trimEnd_append_of_isBlank (text : Text) {space : Text} (h : space.IsBlank) :
    (text ++ space).trimEnd = text.trimEnd := by
  rw [trimEnd, List.reverse_append, List.dropWhile_append_of_pos, trimEnd]
  exact fun c hc => h c (List.mem_reverse.mp hc)

theorem trimStart_append_of_isBlank {space : Text} (h : space.IsBlank) (text : Text) :
    (space ++ text).trimStart = text.trimStart :=
  List.dropWhile_append_of_pos h

/-- Indentation is not part of a line's content. -/
@[simp] theorem trim_replicate_append (n : Nat) (text : Text) :
    Text.trim (List.replicate n ' ' ++ text) = text.trim := by
  rw [trim, trimStart_append_of_isBlank, ← trim]
  intro c hc
  rw [List.eq_of_mem_replicate hc]
  rfl

theorem takeWhile_replicate_append (n : Nat) {text : Text}
    (h : ∀ c ∈ text.head?, isSpace c = false) :
    (List.replicate n ' ' ++ text).takeWhile isSpace = List.replicate n ' ' := by
  have htext : text.takeWhile isSpace = [] := by
    cases text with
    | nil => rfl
    | cons c text => exact List.takeWhile_cons_of_neg (by simp [h c rfl])
  rw [List.takeWhile_append_of_pos, htext, List.append_nil]
  intro c hc
  rw [List.eq_of_mem_replicate hc]
  rfl

theorem trimStart_eq_nil_iff {text : Text} : text.trimStart = [] ↔ text.IsBlank :=
  List.dropWhile_eq_nil_iff

theorem trimEnd_eq_nil_iff {text : Text} : text.trimEnd = [] ↔ text.IsBlank :=
  List.rdropWhile_eq_nil_iff

theorem isBlank_trimEnd_iff {text : Text} : text.trimEnd.IsBlank ↔ text.IsBlank := by
  rw [← trimEnd_eq_nil_iff, trimEnd_trimEnd, trimEnd_eq_nil_iff]

theorem trim_append_of_isBlank (text : Text) {space : Text} (h : space.IsBlank) :
    (text ++ space).trim = text.trim := by
  by_cases htext : text.IsBlank
  · rw [trim, trimStart_append_of_isBlank htext, trimStart_eq_nil_iff.mpr h, trim,
      trimStart_eq_nil_iff.mpr htext]
  · have hstart : (text ++ space).trimStart = text.trimStart ++ space := by
      rw [trimStart, List.dropWhile_append, if_neg]
      · rfl
      · simpa [IsBlank] using htext
    rw [trim, hstart, trimEnd_append_of_isBlank _ h, trim]

theorem trim_eq_nil_iff {text : Text} : text.trim = [] ↔ text.IsBlank := by
  constructor
  · intro h
    by_contra htext
    have hne := mt trimStart_eq_nil_iff.mp htext
    obtain ⟨c, rest, hrest⟩ := List.exists_cons_of_ne_nil hne
    have hc := trimStart_eq_self_iff.mp (trimStart_trimStart text) c (by rw [hrest]; rfl)
    rw [trim, hrest] at h
    exact trimEnd_cons_ne_nil hc rest h
  · intro h
    rw [trim, trimStart_eq_nil_iff.mpr h]
    rfl

theorem eq_trimEnd_append (text : Text) :
    ∃ space, text = text.trimEnd ++ space ∧ space.IsBlank := by
  refine ⟨text.rtakeWhile isSpace, ?_, fun c hc => List.mem_rtakeWhile_imp hc⟩
  exact List.rdropWhile_append_rtakeWhile.symm

end CampaignScript.Text
