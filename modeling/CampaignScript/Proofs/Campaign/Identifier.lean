import CampaignScript.Campaign.Identifier
import CampaignScript.Proofs.Text.Inline
import CampaignScript.Proofs.Text.Lowercase

/-! The identifiers are the texts in lower case without spaces, and making an identifier of one of
them changes nothing. -/
namespace CampaignScript

open Text

theorem space_notMem_identifier (words : Text) : ' ' ∉ identifier words := by
  intro h
  obtain ⟨c, -, hc⟩ := List.mem_map.mp h
  split_ifs at hc
  · exact absurd hc (by decide)
  · contradiction

theorem isLower_of_mem_identifier {words : Text} {d : Char} (h : d ∈ identifier words) :
    IsLower d := by
  obtain ⟨c, hc, rfl⟩ := List.mem_map.mp h
  split_ifs
  · exact isLower_of_lowerChar (by decide) (by decide) (by decide +kernel)
  · exact isLower_of_mem_lowercase hc

theorem identifier_eq_self {words : Text} (hlower : ∀ c ∈ words, IsLower c) (hspace : ' ' ∉ words) :
    identifier words = words := by
  have hkeep : ∀ c ∈ words, (if c = ' ' then '_' else c) = c := by
    intro c hc
    apply if_neg
    rintro rfl
    exact hspace hc
  rw [identifier, lowercase_of_isLower hlower, List.map_congr_left hkeep, List.map_id']

theorem identifier_identifier (words : Text) : identifier (identifier words) = identifier words :=
  identifier_eq_self (fun _ => isLower_of_mem_identifier) (space_notMem_identifier words)

theorem mem_of_mem_identifier {words : Text} {d : Char} (h : d ∈ identifier words)
    (hd : isSpace d = true) : d ∈ words := by
  obtain ⟨c, hc, rfl⟩ := List.mem_map.mp h
  split_ifs at hd ⊢
  · exact absurd hd (by decide)
  · exact mem_of_mem_lowercase hc hd

theorem Text.IsInline.identifier {words : Text} (h : words.IsInline) :
    IsInline (identifier words) :=
  ⟨fun htab => h.1 (mem_of_mem_identifier htab rfl),
    fun hfeed => h.2 (mem_of_mem_identifier hfeed rfl)⟩

theorem Text.IsEnding.identifier {words : Text} (h : words.IsEnding) :
    IsEnding (identifier words) := by
  refine ⟨h.inline.identifier, ?_, ?_⟩
  · rw [CampaignScript.identifier, Ne, List.map_eq_nil_iff]
    exact lowercase_go_ne_nil [] h.ne_nil
  · have htrim := trimEnd_eq_self_iff.mp h.trimEnd
    rw [trimEnd_eq_self_iff]
    intro d hd
    rw [CampaignScript.identifier, List.getLast?_map, Option.mem_def, Option.map_eq_some_iff] at hd
    obtain ⟨c, hc, rfl⟩ := hd
    split_ifs
    · decide
    · exact isSpace_of_getLast?_lowercase_go htrim c hc

end CampaignScript
