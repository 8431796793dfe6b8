import CampaignScript.Text.LetterTable

/-! Lower case of whole texts, by the full case mapping of Unicode. It differs from a letter by
letter mapping at two characters: the dotted capital I, and the capital sigma, whose small form
depends on its place in the word. -/
namespace CampaignScript.Text

/-- The small form of a character on its own. -/
def lowerChar (c : Char) : Char :=
  match capitalRuns.findSome? fun run => run.small? c.toNat with
  | some n => Char.ofNat n
  | none => c

/-- Whether the first character that counts, past those that the rule for the final sigma ignores,
is a letter with case. -/
def meetsCased (text : Text) : Bool :=
  match text.dropWhile (inRanges caseIgnorableRanges) with
  | [] => false
  | c :: _ => inRanges casedRanges c

/-- The small form of a character between the text `before` it, nearest character first, and the
text `after` it. A sigma is final when a letter comes before it in its word and none after. -/
def lowerBetween (before : Text) (c : Char) (after : Text) : Text :=
  if c = 'Σ' then [if meetsCased before && !meetsCased after then 'ς' else 'σ']
  else if c = 'İ' then ['i', '\u0307']
  else [lowerChar c]

/-- The text in lower case. -/
def lowercase (text : Text) : Text :=
  go [] text
where
  /-- Goes on with the part of the text that is left, with the part done in reverse. -/
  go (before : Text) : Text → Text
    | [] => []
    | c :: after => lowerBetween before c after ++ go (c :: before) after

end CampaignScript.Text
