import CampaignScript.Outline.Layout
import CampaignScript.Reading.Step
import CampaignScript.Reading.Trigger

/-! Reading a whole script: the first line is the trigger, and every other line at the top level is
a step. -/
namespace CampaignScript

/-- Reports a line nested under the trigger, unless the reading of the script stopped early: then
that line may be the one reported already. -/
def Campaign.reportNesting (trigger : Entry) : Session Unit := do
  match trigger.nested.lines with
  | [] => pure ()
  | line :: _ =>
    let problems ← get
    unless problems.any Problem.isFatal do
      Session.report line .nesting

/-- Reads a campaign. An empty outline reads like an empty line. -/
def Campaign.read (outline : Outline) : Session Campaign :=
  match outline.entries with
  | [] => do
    let trigger ← Trigger.read .empty
    pure { trigger, steps := [] }
  | first :: rest => do
    let trigger ← Trigger.read first.line
    Campaign.reportNesting first
    let steps ← rest.mapM Step.read
    pure { trigger, steps }

/-- What a script says, as far as it is understood, and what is wrong with it. -/
structure Reading where
  campaign : Campaign
  problems : List Problem
deriving DecidableEq, Repr

namespace Reading

/-- Reads a script. -/
def ofText (source : Text) : Reading :=
  let layout := Layout.ofText source
  let (campaign, problems) := (Campaign.read layout.outline).run layout.problems
  { campaign, problems }

def isValid (reading : Reading) : Bool :=
  reading.problems.isEmpty

end Reading

end CampaignScript
