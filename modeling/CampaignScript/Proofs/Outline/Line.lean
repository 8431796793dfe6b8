import CampaignScript.Outline.Line
import CampaignScript.Proofs.Text.Inline

/-! Lines that are written with their content behind a number of whole levels, and what any line
holds: no tab is left on it, and its content has no white space around it. -/
namespace CampaignScript.Line

open Text

theorem mem_expandTabs {source : Text} {c : Char} (h : c ∈ expandTabs source) :
    c = ' ' ∨ c ≠ '\t' ∧ c ∈ source := by
  obtain ⟨d, hd, hc⟩ := List.mem_flatMap.mp h
  split_ifs at hc with htab
  · exact .inl (List.eq_of_mem_replicate hc)
  · rw [List.mem_singleton.mp hc]
    exact .inr ⟨htab, hd⟩

theorem tab_notMem_raw (source : Text) (number : Nat) : '\t' ∉ (ofSource source number).raw := by
  intro h
  rcases mem_expandTabs h with h | ⟨h, -⟩
  · exact absurd h (by decide)
  · exact h rfl

theorem lineFeed_notMem_raw {source : Text} (h : '\n' ∉ source) (number : Nat) :
    '\n' ∉ (ofSource source number).raw := by
  intro hmem
  rcases mem_expandTabs hmem with hspace | ⟨-, hmem⟩
  · exact absurd hspace (by decide)
  · exact h hmem

theorem expandTabs_eq_self {source : Text} (h : '\t' ∉ source) : expandTabs source = source :=
  flatMap_replace_eq_self h (List.replicate indentWidth ' ')

theorem expandTabs_append (text more : Text) :
    expandTabs (text ++ more) = expandTabs text ++ expandTabs more :=
  List.flatMap_append

theorem mem_expandTabs_of_mem {text : Text} {c : Char} (h : c ∈ text) (htab : c ≠ '\t') :
    c ∈ expandTabs text := by
  refine List.mem_flatMap.mpr ⟨c, h, ?_⟩
  rw [if_neg htab]
  exact List.mem_singleton_self c

theorem isBlank_expandTabs_iff {text : Text} : (expandTabs text).IsBlank ↔ text.IsBlank := by
  constructor
  · intro h c hc
    by_cases htab : c = '\t'
    · rw [htab]
      rfl
    · exact h c (mem_expandTabs_of_mem hc htab)
  · intro h c hc
    rcases mem_expandTabs hc with rfl | ⟨-, hc⟩
    · rfl
    · exact h c hc

theorem isBlank_ofSource_iff {text : Text} {number : Nat} :
    (ofSource text number).isBlank ↔ text.IsBlank := by
  rw [isBlank, List.isEmpty_iff]
  exact trim_eq_nil_iff.trans isBlank_expandTabs_iff

/-- The spaces that a text begins with. -/
def spaces (text : Text) : Text :=
  text.takeWhile (· == ' ')

theorem spaces_eq_nil {text : Text} (h : text.trimStart = text) : spaces text = [] := by
  rw [trimStart_eq_self_iff] at h
  cases text with
  | nil => rfl
  | cons c text =>
    have hc : c ≠ ' ' := by
      rintro rfl
      exact absurd (h ' ' rfl) (by decide)
    rw [spaces, List.takeWhile_cons, if_neg (by simpa using hc)]

/-- Whether a text can be written behind the indentation of a line. -/
structure IsContent (content : Text) : Prop where
  ne_nil : content ≠ []
  tab : '\t' ∉ content
  trimStart : content.trimStart = content

theorem isContent_of_isEnding {text : Text} (hstart : text.trimStart = text)
    (hending : text.IsEnding) : IsContent text :=
  ⟨hending.ne_nil, hending.inline.1, hstart⟩

theorem isContent_of_isParagraph {text : Text} (h : text.IsParagraph) : IsContent text :=
  isContent_of_isEnding h.trimStart h.isEnding

/-- A content behind whole levels of indentation. -/
def indented (depth : Nat) (content : Text) : Text :=
  List.replicate (4 * depth) ' ' ++ content

variable {content : Text}

theorem raw_ofSource (h : IsContent content) (depth number : Nat) :
    (ofSource (indented depth content) number).raw =
      indented depth content := by
  apply expandTabs_eq_self
  rw [indented, List.mem_append, not_or]
  refine ⟨fun hmem => ?_, h.tab⟩
  exact absurd (List.eq_of_mem_replicate hmem) (by decide)

theorem indent_ofSource (h : IsContent content) (depth number : Nat) :
    (ofSource (indented depth content) number).indent = depth := by
  have hstart : content.takeWhile (· == ' ') = [] := spaces_eq_nil h.trimStart
  have hreplicate : ∀ c ∈ List.replicate (4 * depth) ' ', (c == ' ') = true :=
    fun c hc => beq_iff_eq.mpr (List.eq_of_mem_replicate hc)
  rw [indent, raw_ofSource h, indented, List.takeWhile_append_of_pos hreplicate, hstart,
    List.append_nil, List.length_replicate, indentWidth, Nat.mul_div_cancel_left depth (by decide)]

theorem text_ofSource (h : IsContent content) (depth number : Nat) :
    (ofSource (indented depth content) number).text = content.trimEnd := by
  rw [text, raw_ofSource h, indented, trim_replicate_append, trim, h.trimStart]

theorem isBlank_ofSource (h : IsContent content) (depth number : Nat) :
    (ofSource (indented depth content) number).isBlank = false := by
  have htrim := trimStart_eq_self_iff.mp h.trimStart
  rw [isBlank, text_ofSource h]
  cases content with
  | nil => exact absurd rfl h.ne_nil
  | cons c content =>
    simpa using trimEnd_cons_ne_nil (htrim c rfl) content

end CampaignScript.Line
