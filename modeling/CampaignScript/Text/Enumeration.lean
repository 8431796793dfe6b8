import CampaignScript.Text.Space

/-! Enumerations as sentences have them, such as a, b and c. -/
namespace CampaignScript.Enumeration

open Text

/-- The text between the separators, which are the comma and the word "and" in small letters
between two spaces. Separators are taken from the left and do not overlap. -/
def pieces : Text → List Text
  | [] => [[]]
  | ',' :: rest => [] :: pieces rest
  | ' ' :: 'a' :: 'n' :: 'd' :: ' ' :: rest => [] :: pieces rest
  | c :: rest => extendFirst c (pieces rest)

/-- The items of an enumeration. A comma followed by "and" leaves an empty piece, which is no
item. -/
def items (text : Text) : List Text :=
  ((pieces text).map trim).filter fun item => !item.isEmpty

/-- Reads every item, or gives the first that cannot be read. An enumeration without items cannot
be read as a whole. -/
def read {α : Type} (item? : Text → Option α) (text : Text) : Except Text (List α) :=
  match items text with
  | [] => .error text.trim
  | list => list.mapM fun item => (item? item).elim (.error item) .ok

end CampaignScript.Enumeration
