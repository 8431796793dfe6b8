import CampaignScript.Text.Lowercase

/-! Identifiers of templates and predicates, as they are made from the words of a script. -/
namespace CampaignScript

/-- The words in lower case, joined by underscores instead of spaces. -/
def identifier (words : Text) : Text :=
  words.lowercase.map fun c => if c = ' ' then '_' else c

end CampaignScript
