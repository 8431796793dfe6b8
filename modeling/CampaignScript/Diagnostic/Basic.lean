import CampaignScript.Diagnostic.Palette
import CampaignScript.Problem

/-! Diagnostics: messages about a line, as they are shown to the author of a script. -/
namespace CampaignScript

/-- A message about a line. -/
structure Diagnostic where
  line : Line
  message : Text
deriving DecidableEq, Repr

namespace Diagnostic

/-- The column in which the content of the line starts, counted from 1. -/
def column (diagnostic : Diagnostic) : Nat :=
  (diagnostic.line.raw.takeWhile Text.isSpace).length + 1

/-- The width of the line number beside the line. -/
def gutterWidth (diagnostic : Diagnostic) : Nat :=
  max 3 (Text.numeral diagnostic.line.number).length

/-- The diagnostic on one line: where, and what. -/
def concise (palette : Palette) (file : Text) (diagnostic : Diagnostic) : Text :=
  let place := file ++ ':' :: Text.numeral diagnostic.line.number ++
    ':' :: Text.numeral diagnostic.column
  palette.paint .label "error".toList ++ ": ".toList ++ palette.paint .location place ++
    ' ' :: palette.paint .problem diagnostic.message

end Diagnostic

namespace Problem

def diagnostic (problem : Problem) : Diagnostic :=
  { line := problem.line, message := problem.message }

/-- The problem in one line, without the name of a file. -/
def summary (problem : Problem) : Text :=
  "line ".toList ++ Text.numeral problem.line.number ++ ": ".toList ++ problem.message

end Problem

end CampaignScript
