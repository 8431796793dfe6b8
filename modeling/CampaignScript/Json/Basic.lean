import CampaignScript.Text.Numeral

/-! JSON values and their text. -/
namespace CampaignScript

/-- A JSON value whose numbers are whole and not negative. Members keep their order. -/
inductive Json where
  | number (n : Nat)
  | string (text : Text)
  | array (items : List Json)
  | object (members : List (Text × Json))

namespace Json

/-- How the text of a value is set out: without any white space, or with each item and member on a
line of its own. -/
inductive Style where
  | compact
  | pretty
deriving DecidableEq, Repr

/-- What stands before an item or a closing bracket at a depth. -/
def Style.gap : Style → Nat → Text
  | compact, _ => []
  | pretty, depth => '\n' :: List.replicate (2 * depth) ' '

/-- What stands between a key and its value. -/
def Style.colon : Style → Text
  | compact => [':']
  | pretty => [':', ' ']

/-- A character inside a string. Quotes, backslashes and control characters are escaped, and no
others. -/
def escape (c : Char) : Text :=
  match c with
  | '"' => ['\\', '"']
  | '\\' => ['\\', '\\']
  | '\x08' => ['\\', 'b']
  | '\x0c' => ['\\', 'f']
  | '\n' => ['\\', 'n']
  | '\r' => ['\\', 'r']
  | '\t' => ['\\', 't']
  | c =>
    if c.toNat < 0x20 then
      ['\\', 'u', '0', '0', Nat.digitChar (c.toNat / 16), Nat.digitChar (c.toNat % 16)]
    else [c]

def quote (text : Text) : Text :=
  '"' :: text.flatMap escape ++ ['"']

/-- Parts between brackets, divided by commas. -/
def block (style : Style) (depth : Nat) (opening closing : Char) : List Text → Text
  | [] => [opening, closing]
  | part :: parts =>
    let gap := style.gap (depth + 1)
    opening :: gap ++ part ++ parts.flatMap (fun next => ',' :: gap ++ next) ++
      style.gap depth ++ [closing]

mutual

/-- The text of a value whose brackets close at `depth`. -/
def render (style : Style) (depth : Nat) : Json → Text
  | number n => Text.numeral n
  | string text => quote text
  | array items => block style depth '[' ']' (renderItems style (depth + 1) items)
  | object members => block style depth '{' '}' (renderMembers style (depth + 1) members)

/-- The texts of values at `depth`. -/
def renderItems (style : Style) (depth : Nat) : List Json → List Text
  | [] => []
  | item :: items => render style depth item :: renderItems style depth items

/-- The texts of members at `depth`. -/
def renderMembers (style : Style) (depth : Nat) : List (Text × Json) → List Text
  | [] => []
  | member :: members => renderMember style depth member :: renderMembers style depth members

/-- The text of a member at `depth`. -/
def renderMember (style : Style) (depth : Nat) : Text × Json → Text
  | (key, value) => quote key ++ style.colon ++ render style depth value

end

/-- The text of a value on its own. -/
def toText (style : Style) (json : Json) : Text :=
  json.render style 0

end Json

end CampaignScript
