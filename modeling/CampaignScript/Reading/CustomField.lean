import CampaignScript.Campaign.Basic
import CampaignScript.Outline.Basic
import CampaignScript.Reading.Session

/-! Reading the fields of an email. -/
namespace CampaignScript

/-- A value that begins on the line with number `previous`, continued by further lines. A line that
does not stand directly below the one before it starts a new paragraph; other lines are joined by
spaces. -/
def CustomField.continueValue (previous : Nat) (value : Text) : List Line → Text
  | [] => value
  | line :: rest =>
    let separator :=
      if value.isEmpty then []
      else if line.number > previous + 1 then ['\n']
      else [' ']
    CustomField.continueValue line.number (value ++ separator ++ line.text) rest

/-- Reads a field, a key and a value with a colon between them. The value goes on over the lines
nested under the field. -/
def CustomField.read (entry : Entry) : Session CustomField :=
  match Text.splitAtChar? ':' entry.line.text with
  | some (c :: key, value) =>
    pure
      { key := Text.trimEnd (c :: key)
        value := CustomField.continueValue entry.line.number value.trim entry.nested.lines }
  | _ => do
    Session.report entry.line .customField
    pure { key := [], value := [] }

end CampaignScript
