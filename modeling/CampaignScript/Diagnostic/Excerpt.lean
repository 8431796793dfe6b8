import CampaignScript.Diagnostic.Form

/-! The full diagnostic as its lines: the concise one, an empty one, and three that show the line it
is about. -/
namespace CampaignScript.Diagnostic

/-- Whether the caret has a field: whether the column it stands in is within the limit. -/
def Fits (diagnostic : Diagnostic) : Prop :=
  diagnostic.column ≤ Text.widthLimit

instance (diagnostic : Diagnostic) : Decidable diagnostic.Fits :=
  Nat.decLe _ _

/-- The line itself beside its number, with a caret under the start of its content. -/
def excerpt? (palette : Palette) (diagnostic : Diagnostic) : Option (List Text) :=
  let width := diagnostic.gutterWidth
  let margin := List.replicate width ' '
  let number := (Text.numeral diagnostic.line.number).leftpad width ' '
  let caret := ['^'].leftpad diagnostic.column ' '
  let bar := ' ' :: palette.paint .gutter ['|']
  if diagnostic.Fits then
    some
      [margin ++ bar,
        palette.paint .gutter number ++ bar ++ ' ' :: diagnostic.line.raw.trimEnd,
        margin ++ bar ++ ' ' :: palette.paint .caret caret]
  else none

/-- The lines of the diagnostic with the line shown under it. -/
def lines? (palette : Palette) (file : Text) (diagnostic : Diagnostic) : Option (List Text) :=
  (diagnostic.excerpt? palette).map fun excerpt =>
    diagnostic.concise palette file :: [] :: excerpt

end CampaignScript.Diagnostic
