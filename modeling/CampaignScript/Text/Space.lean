import CampaignScript.Text.Basic

/-! White space and its removal from the ends of a text. -/
namespace CampaignScript.Text

/-- The code points of Unicode's property White_Space. The zero width space, the byte order mark
and the information separators are not among them. -/
def spaceRanges : List (Nat × Nat) :=
  [(0x09, 0x0D), (0x20, 0x20), (0x85, 0x85), (0xA0, 0xA0), (0x1680, 0x1680), (0x2000, 0x200A),
    (0x2028, 0x2029), (0x202F, 0x202F), (0x205F, 0x205F), (0x3000, 0x3000)]

def isSpace (c : Char) : Bool :=
  inRanges spaceRanges c

def trimStart (text : Text) : Text :=
  text.dropWhile isSpace

def trimEnd (text : Text) : Text :=
  (text.reverse.dropWhile isSpace).reverse

/-- The text without the white space around it. -/
def trim (text : Text) : Text :=
  trimEnd (trimStart text)

end CampaignScript.Text
