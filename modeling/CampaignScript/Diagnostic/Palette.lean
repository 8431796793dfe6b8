import CampaignScript.Text.Numeral

/-! The colours of diagnostics. A part that has colour is written between two control sequences of
the terminal, one that begins its look and one that ends it, and as it is between them. -/
namespace CampaignScript

/-- The parts of a diagnostic that are told apart by colour. -/
inductive Part where
  /-- The word that opens a diagnostic. -/
  | label
  | problem
  | location
  /-- The line number and the bar that divides it from the line. -/
  | gutter
  | caret
deriving DecidableEq, Repr

/-- The looks of the parts: for each that has one of its own, the terminal's codes that begin and
end it. -/
structure Palette where
  codes? : Part → Option (Nat × Nat)

namespace Palette

/-- No part has a look of its own. -/
def plain : Palette :=
  ⟨fun _ => none⟩

/-- The colours of ANSI terminals: bright red, bold and bright blue. -/
def ansi : Palette where
  codes?
    | .label | .caret => some (91, 39)
    | .problem => some (1, 0)
    | .gutter => some (94, 39)
    | .location => none

/-- The control sequence that makes a terminal go on in the way that `code` stands for. -/
def select (code : Nat) : Text :=
  '\x1b' :: '[' :: Text.numeral code ++ ['m']

/-- The text of a part, in the look that the part has. -/
def paint (palette : Palette) (part : Part) (text : Text) : Text :=
  match palette.codes? part with
  | some (start, stop) => select start ++ text ++ select stop
  | none => text

@[simp] theorem paint_plain (part : Part) (text : Text) : plain.paint part text = text := rfl

end Palette

end CampaignScript
