import CampaignScript.Diagnostic.Basic

/-! The full diagnostic, as a form that is filled in. Each field is widened to its column, those
that have colour once more after they have it, and white space around the whole is taken away. -/
namespace CampaignScript

namespace Text

/-- Whether a character is one of the five of ASCII that are taken for white space. -/
def isAsciiSpace (c : Char) : Bool :=
  c = ' ' || c = '\t' || c = '\n' || c = '\x0c' || c = '\r'

/-- The text without the white space of ASCII around it. -/
def trimAscii (text : Text) : Text :=
  ((text.dropWhile isAsciiSpace).reverse.dropWhile isAsciiSpace).reverse

/-- The greatest width that a field can have. -/
def widthLimit : Nat := 65535

/-- The text, with spaces before it as far as it is narrower than its field. A field cannot be wider
than the limit. -/
def padStart? (width : Nat) (text : Text) : Option Text :=
  if width ≤ widthLimit then some (text.leftpad width ' ') else none

end Text

/-- The diagnostic with the line shown under it, in a form with a margin above and below. The caret
has a field as wide as the column it stands in, and where that is beyond the limit there is no such
form. The number of a line has a few digits only, so the limit does not matter to its field. -/
def Diagnostic.form? (palette : Palette) (file : Text) (diagnostic : Diagnostic) : Option Text := do
  let width := diagnostic.gutterWidth
  let number := Text.numeral diagnostic.line.number
  let place := file ++ ':' :: number ++ ':' :: Text.numeral diagnostic.column
  let bar := palette.paint .gutter ['|']
  let beside := palette.paint .gutter (number.leftpad width ' ')
  let caret ← Text.padStart? diagnostic.column ['^']
  let pointer ← Text.padStart? diagnostic.column (palette.paint .caret caret)
  some <| Text.trimAscii <|
    '\n' :: palette.paint .label "error".toList ++ ": ".toList ++ palette.paint .location place ++
      ' ' :: palette.paint .problem diagnostic.message ++
    "\n\n".toList ++ [' '].rightpad width ' ' ++ ' ' :: bar ++
    '\n' :: beside.rightpad width ' ' ++ ' ' :: bar ++ ' ' :: diagnostic.line.raw.trimEnd ++
    '\n' :: [' '].rightpad width ' ' ++ ' ' :: bar ++ ' ' :: pointer ++
    '\n' :: List.replicate 8 ' '

end CampaignScript
