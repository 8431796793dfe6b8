import CampaignScript.Text.Basic

/-! Fixed phrases inside a text. A phrase is written in small letters and matches in either
letter case. -/
namespace CampaignScript.Text

/-- Simple case folding, as far as it leads to small ASCII letters: besides the capitals, the long
s folds to `s` and the Kelvin sign to `k`. -/
def foldCase (c : Char) : Char :=
  if 'A' ≤ c ∧ c ≤ 'Z' then Char.ofNat (c.toNat + 32)
  else if c = '\u017f' then 's'
  else if c = '\u212a' then 'k'
  else c

/-- What follows `phrase` at the start of a text. -/
def afterPhrase? : (phrase text : Text) → Option Text
  | [], text => some text
  | _ :: _, [] => none
  | p :: phrase, c :: text => if foldCase c = p then afterPhrase? phrase text else none

/-- What comes before `phrase` at the end of a text. -/
def beforePhrase? (phrase text : Text) : Option Text :=
  (afterPhrase? phrase.reverse text.reverse).map List.reverse

/-- The text before the first occurrence of `phrase` and the text after it. -/
def splitAtPhrase? (phrase : Text) : Text → Option (Text × Text)
  | [] => (afterPhrase? phrase []).map fun rest => ([], rest)
  | c :: text =>
    match afterPhrase? phrase (c :: text) with
    | some rest => some ([], rest)
    | none => (splitAtPhrase? phrase text).map fun (before, after) => (c :: before, after)

/-- The text before the first occurrence of a character and the text after it. -/
def splitAtChar? (separator : Char) : Text → Option (Text × Text)
  | [] => none
  | c :: text =>
    if c = separator then some ([], text)
    else (splitAtChar? separator text).map fun (before, after) => (c :: before, after)

end CampaignScript.Text
