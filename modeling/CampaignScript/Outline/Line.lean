import CampaignScript.Text.Space

/-! One line of a script: its text as written, where it stands, and how deep it is indented. -/
namespace CampaignScript

/-- A line with its number in the script. Its characters are kept with tabs already spread out. -/
structure Line where
  number : Nat
  raw : Text
deriving DecidableEq, Repr

namespace Line

/-- The number of spaces that stand for a tab, and that make one level of indentation. -/
def indentWidth : Nat := 4

/-- A text with each tab replaced by one level's worth of spaces, wherever the tab stands. -/
def expandTabs (source : Text) : Text :=
  source.flatMap fun c => if c = '\t' then List.replicate indentWidth ' ' else [c]

/-- The line that reads `source` at the given place of a script. -/
def ofSource (source : Text) (number : Nat) : Line :=
  { number, raw := expandTabs source }

/-- The line that stands for an empty script. -/
def empty : Line :=
  ofSource [] 0

/-- The level of indentation. Spaces short of a whole level do not count, and white space other
than spaces does not indent. -/
def indent (line : Line) : Nat :=
  (line.raw.takeWhile (· == ' ')).length / indentWidth

/-- The content of the line. -/
def text (line : Line) : Text :=
  line.raw.trim

def isBlank (line : Line) : Bool :=
  line.text.isEmpty

end Line

end CampaignScript
