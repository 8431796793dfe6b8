import CampaignScript.Outline.Line

/-! Outlines: lines with further lines nested under them. -/
namespace CampaignScript

/-- A sequence of entries, each a line with an outline nested under it. -/
inductive Outline where
  | empty
  | entry (line : Line) (nested rest : Outline)
deriving DecidableEq, Repr

/-- A line together with what is nested under it. -/
structure Entry where
  line : Line
  nested : Outline
deriving DecidableEq, Repr

namespace Outline

/-- The entries at the top level. -/
def entries : Outline → List Entry
  | empty => []
  | entry line nested rest => ⟨line, nested⟩ :: rest.entries

def ofEntries (list : List Entry) : Outline :=
  list.foldr (fun e rest => entry e.line e.nested rest) empty

/-- The lines at the top level. -/
def lines (outline : Outline) : List Line :=
  outline.entries.map Entry.line

/-- Every line in the order of the script, each with its depth, for an outline that stands at
`depth`. -/
def listing (depth : Nat) : Outline → List (Nat × Line)
  | empty => []
  | entry line nested rest => (depth, line) :: (nested.listing (depth + 1) ++ rest.listing depth)

/-- The last line of each level, from the top down along the last entries. -/
def spine : Outline → List Line
  | empty => []
  | entry line nested empty => line :: nested.spine
  | entry _ _ rest => rest.spine

/-- Adds a line behind all others, `depth` levels down the last entries. Where they do not go down
that far, the line is nested under the last of them. -/
def push (line : Line) : Nat → Outline → Outline
  | _, empty => entry line empty empty
  | depth + 1, entry last nested empty => entry last (nested.push line depth) empty
  | depth, entry head nested rest => entry head nested (rest.push line depth)

end Outline

end CampaignScript
