import CampaignScript.Diagnostic.Excerpt
import CampaignScript.Proofs.Text.Numeral

/-! The lines that diagnostics take up. Neither colours nor numbers add a line feed, so a diagnostic
has the line feeds of its layout and no others, where there is none in the name of the file, in the
message or in the line it is about. -/
namespace CampaignScript

namespace Palette

theorem lineFeed_notMem_select (code : Nat) : '\n' ∉ select code := by
  simp [select, Text.notMem_numeral]

theorem lineFeed_notMem_paint {text : Text} (h : '\n' ∉ text) (palette : Palette) (part : Part) :
    '\n' ∉ palette.paint part text := by
  unfold paint
  split
  · simp [lineFeed_notMem_select, h]
  · exact h

end Palette

namespace Diagnostic

theorem lineFeed_notMem_concise {diagnostic : Diagnostic} (h : '\n' ∉ diagnostic.message)
    {file : Text} (hfile : '\n' ∉ file) (palette : Palette) :
    '\n' ∉ diagnostic.concise palette file := by
  have hnumeral (n : Nat) : '\n' ∉ Text.numeral n := Text.notMem_numeral rfl n
  simp [concise, Palette.lineFeed_notMem_paint, hfile, hnumeral, h]

theorem lineFeed_notMem_of_mem_excerpt {diagnostic : Diagnostic} (h : '\n' ∉ diagnostic.line.raw)
    {palette : Palette} {excerpt : List Text}
    (hexcerpt : diagnostic.excerpt? palette = some excerpt) {line : Text} (hline : line ∈ excerpt) :
    '\n' ∉ line := by
  have hnumeral : '\n' ∉ Text.numeral diagnostic.line.number := Text.notMem_numeral rfl _
  have htext : '\n' ∉ diagnostic.line.raw.trimEnd :=
    fun hmem => h ((Text.trimEnd_isPrefix _).subset hmem)
  rw [excerpt?, Option.ite_none_right_eq_some, Option.some.injEq] at hexcerpt
  rw [← hexcerpt.2] at hline
  simp only [List.mem_cons, List.not_mem_nil, or_false] at hline
  rcases hline with rfl | rfl | rfl <;> simp [Palette.lineFeed_notMem_paint, hnumeral, htext]

/-- A full diagnostic has five lines, of which none is broken. -/
theorem lineFeed_notMem_of_mem_lines {diagnostic : Diagnostic} {file : Text}
    (hmessage : '\n' ∉ diagnostic.message) (hraw : '\n' ∉ diagnostic.line.raw) (hfile : '\n' ∉ file)
    {palette : Palette} {lines : List Text} (hlines : diagnostic.lines? palette file = some lines)
    {line : Text} (hline : line ∈ lines) : '\n' ∉ line := by
  obtain ⟨excerpt, hexcerpt, rfl⟩ := Option.map_eq_some_iff.mp hlines
  rw [List.mem_cons, List.mem_cons] at hline
  rcases hline with rfl | rfl | hline
  · exact lineFeed_notMem_concise hmessage hfile palette
  · exact List.not_mem_nil
  · exact lineFeed_notMem_of_mem_excerpt hraw hexcerpt hline

end Diagnostic

end CampaignScript
