import CampaignScript.Outline.Line

/-! Problems found in a script. They are collected while a script is read, so that one reading
tells all of them. -/
namespace CampaignScript

/-- What is wrong with a line, with the words at fault where they are only part of it. -/
inductive Cause where
  /-- The line is indented further than any line may be at its place. -/
  | indentation
  /-- The line is nested under a trigger. -/
  | nesting
  | trigger
  | day (item : Text)
  | time (item : Text)
  | step
  | waitAmount (amount : Text)
  | waitUnit (unit : Text)
  | customField
deriving DecidableEq, Repr

/-- The part of the language that a problem belongs to. -/
inductive Reason where
  | indentation
  | nesting
  | trigger
  | triggerField
  | step
  | stepField
  | customField
deriving DecidableEq, Repr

def Reason.name : Reason → Text
  | indentation => "indentation".toList
  | nesting => "nesting".toList
  | trigger => "trigger".toList
  | triggerField => "trigger-field".toList
  | step => "step".toList
  | stepField => "step-field".toList
  | customField => "custom-field".toList

def Cause.reason : Cause → Reason
  | indentation => .indentation
  | nesting => .nesting
  | trigger => .trigger
  | day _ | time _ => .triggerField
  | step => .step
  | waitAmount _ | waitUnit _ => .stepField
  | customField => .customField

/-- A line and what is wrong with it. -/
structure Problem where
  line : Line
  cause : Cause
deriving DecidableEq, Repr

namespace Problem

/-- The words at fault and what they were taken for, unless the fault is the place of the line. -/
def fault? (problem : Problem) : Option (Text × Text) :=
  match problem.cause with
  | .indentation | .nesting => none
  | .trigger => some (problem.line.text, "campaign trigger".toList)
  | .day item => some (item, "day".toList)
  | .time item => some (item, "time".toList)
  | .step => some (problem.line.text, "campaign step".toList)
  | .waitAmount amount => some (amount, "wait amount".toList)
  | .waitUnit unit => some (unit, "wait unit".toList)
  | .customField => some (problem.line.text, "custom field".toList)

def message (problem : Problem) : Text :=
  match problem.fault? with
  | none => "Indentation is not allowed here.".toList
  | some (words, role) => '"' :: words ++ "\" is not a valid ".toList ++ role ++ ['.']

def reason (problem : Problem) : Reason :=
  problem.cause.reason

/-- Whether reading stopped at the problem. -/
def isFatal (problem : Problem) : Bool :=
  problem.cause == .indentation

end Problem

end CampaignScript
