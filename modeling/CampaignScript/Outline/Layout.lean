import CampaignScript.Outline.Basic
import CampaignScript.Problem
import CampaignScript.Text.Lines

/-! How the indentation of a script's lines makes an outline of them. A line may stand at any level
up to one below the line before it, and the first line at the top only. A line that is indented
further is out of place: it is kept beside the line before it, and reading stops there. -/
namespace CampaignScript

/-- The lines laid out so far. -/
structure Layout where
  outline : Outline
  /-- The deepest level that the next line may take. -/
  room : Nat
  /-- The line at which reading stopped, if one was out of place. -/
  misplaced : Option Line
deriving DecidableEq, Repr

namespace Layout

def start : Layout :=
  { outline := .empty, room := 0, misplaced := none }

/-- Lays out one more line. -/
def add (layout : Layout) (line : Line) : Layout :=
  if layout.misplaced.isSome then layout
  else if line.indent ≤ layout.room then
    { layout with outline := layout.outline.push line line.indent, room := line.indent + 1 }
  else
    { layout with outline := layout.outline.push line (layout.room - 1), misplaced := some line }

def ofLines (lines : List Line) : Layout :=
  lines.foldl add start

/-- The lines of a script that are not blank. Blank lines count in the numbering, from 1. -/
def contentLines (source : Text) : List Line :=
  let numbered := source.lines.zipIdx 1
  (numbered.map fun (text, number) => Line.ofSource text number).filter fun line => !line.isBlank

/-- The layout of a script. A script without content is laid out as one empty line. -/
def ofText (source : Text) : Layout :=
  match contentLines source with
  | [] => { start with outline := .entry .empty .empty .empty }
  | lines => ofLines lines

def problems (layout : Layout) : List Problem :=
  layout.misplaced.toList.map fun line => { line, cause := .indentation }

end Layout

end CampaignScript
