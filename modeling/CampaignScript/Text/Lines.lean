import CampaignScript.Text.Basic

/-! The division of a text into lines. -/
namespace CampaignScript.Text

/-- The lines of a text. A line feed ends a line, and a carriage return directly before it belongs
to the line end; no other character ends a line. Text after the last line feed is a line too, with
all its characters, unless it is empty. -/
def lines : Text → List Text
  | [] => []
  | '\n' :: rest => [] :: lines rest
  | '\r' :: '\n' :: rest => [] :: lines rest
  | c :: rest => extendFirst c (lines rest)

end CampaignScript.Text
