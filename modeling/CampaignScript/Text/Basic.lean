/-! Text as a list of Unicode characters, so that what is read and written can be taken apart
by recursion, and the few operations on pieces of text that several readers share. -/
namespace CampaignScript

/-- A text is the list of its characters. -/
abbrev Text := List Char

namespace Text

/-- Puts a character in front of the first piece, or makes a piece of it where there is none.
A reader that cuts a text into pieces from the left adds each character it keeps this way. -/
def extendFirst (c : Char) : List Text → List Text
  | [] => [[c]]
  | piece :: pieces => (c :: piece) :: pieces

/-- Whether the code point of a character lies in one of the given ranges, ends included. -/
def inRanges (ranges : List (Nat × Nat)) (c : Char) : Bool :=
  ranges.any fun range => range.1 ≤ c.toNat && c.toNat ≤ range.2

end Text

end CampaignScript
