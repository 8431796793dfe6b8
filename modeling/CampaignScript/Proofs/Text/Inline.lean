import CampaignScript.Proofs.Text.Lines
import CampaignScript.Proofs.Text.Space

/-! Texts that a line can hold as they are, and the places on it that they can stand in. -/
namespace CampaignScript.Text

/-- Whether a text can stand on a line as it is. -/
def IsInline (text : Text) : Prop :=
  '\t' ∉ text ∧ '\n' ∉ text

/-- Whether a text can stand at the end of a line. -/
structure IsEnding (text : Text) : Prop where
  inline : text.IsInline
  ne_nil : text ≠ []
  trimEnd : text.trimEnd = text

theorem IsInline.append {text more : Text} (h : text.IsInline) (h' : more.IsInline) :
    IsInline (text ++ more) :=
  ⟨List.mem_append.not.mpr (not_or.mpr ⟨h.1, h'.1⟩),
    List.mem_append.not.mpr (not_or.mpr ⟨h.2, h'.2⟩)⟩

theorem IsInline.of_subset {text more : Text} (h : text.IsInline) (hsub : more ⊆ text) :
    more.IsInline :=
  ⟨fun hmem => h.1 (hsub hmem), fun hmem => h.2 (hsub hmem)⟩

theorem IsEnding.append {front text : Text} (hfront : front.IsInline) (h : text.IsEnding) :
    IsEnding (front ++ text) :=
  ⟨hfront.append h.inline, List.append_ne_nil_of_right_ne_nil front h.ne_nil,
    trimEnd_append_of_ne_nil front h.trimEnd h.ne_nil⟩

theorem IsEnding.isLine {text : Text} (h : text.IsEnding) : text.IsLine := by
  refine ⟨h.inline.2, fun hlast => ?_⟩
  exact absurd (trimEnd_eq_self_iff.mp h.trimEnd _ hlast) (by decide)

instance (text : Text) : Decidable text.IsInline :=
  inferInstanceAs (Decidable (_ ∧ _))

instance (text : Text) : Decidable text.IsEnding :=
  decidable_of_iff (text.IsInline ∧ text ≠ [] ∧ text.trimEnd = text)
    ⟨fun h => ⟨h.1, h.2.1, h.2.2⟩, fun h => ⟨h.inline, h.ne_nil, h.trimEnd⟩⟩

/-- What a line ends in behind a space can end a line. -/
theorem IsEnding.of_append_space (front : Text) {rest : Text}
    (h : IsEnding (front ++ ' ' :: rest)) :
    rest.IsEnding := by
  have hsub : rest ⊆ front ++ ' ' :: rest := by
    intro c hc
    exact List.mem_append_right front (List.mem_cons_of_mem ' ' hc)
  refine ⟨h.inline.of_subset hsub, ?_, ?_⟩
  · rintro rfl
    have hlast := trimEnd_eq_self_iff.mp h.trimEnd ' ' (by simp)
    exact absurd hlast (by decide)
  · have hend := h.trimEnd
    rw [List.append_cons] at hend
    exact trimEnd_of_append hend

/-- Whether a text can be all the content of a line. -/
structure IsParagraph (text : Text) : Prop where
  inline : text.IsInline
  ne_nil : text ≠ []
  trim : text.trim = text

instance (text : Text) : Decidable text.IsParagraph :=
  decidable_of_iff (text.IsInline ∧ text ≠ [] ∧ text.trim = text)
    ⟨fun h => ⟨h.1, h.2.1, h.2.2⟩, fun h => ⟨h.inline, h.ne_nil, h.trim⟩⟩

theorem IsParagraph.trimStart {text : Text} (h : text.IsParagraph) : text.trimStart = text :=
  (trim_eq_self_iff.mp h.trim).1

theorem IsParagraph.isEnding {text : Text} (h : text.IsParagraph) : text.IsEnding :=
  ⟨h.inline, h.ne_nil, (trim_eq_self_iff.mp h.trim).2⟩

/-- Two paragraphs on lines next to each other make one. -/
theorem IsParagraph.append {text more : Text} (h : text.IsParagraph) (h' : more.IsParagraph) :
    IsParagraph (text ++ [' '] ++ more) := by
  have hspace : IsInline [' '] := by decide
  have hending := h'.isEnding.append (h.inline.append hspace)
  refine ⟨hending.inline, hending.ne_nil, trim_eq_self_iff.mpr ⟨?_, hending.trimEnd⟩⟩
  rw [List.append_assoc]
  exact trimStart_append_of_ne_nil h.trimStart h.ne_nil _

end CampaignScript.Text
