import CampaignScript.Problem

/-! Reading with a record of the problems met on the way. -/
namespace CampaignScript

/-- A reader that adds the problems it meets to those found before, in the order it meets them. -/
abbrev Session := StateM (List Problem)

namespace Session

def report (line : Line) (cause : Cause) : Session Unit :=
  modify (· ++ [{ line, cause }])

/-- The value that was read, or a report that there is none. -/
def expect {α : Type} (line : Line) (cause : Cause) : Option α → Session (Option α)
  | some value => pure (some value)
  | none => do
    report line cause
    pure none

/-- The value that was read, or a report of the words that were not understood. -/
def accept {α : Type} (line : Line) (cause : Text → Cause) : Except Text α → Session (Option α)
  | .ok value => pure (some value)
  | .error words => expect line (cause words) none

end Session

end CampaignScript
