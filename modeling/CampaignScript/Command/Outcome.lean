import CampaignScript.Command.Arguments
import CampaignScript.Diagnostic.Form
import CampaignScript.Reading.Document
import CampaignScript.Source.LoadError

/-! What the program writes, and the code it ends with. -/
namespace CampaignScript

/-- The texts that are not the program's own, but those of what it is built on: the help on the
arguments and what is wrong with them, the log of a reading, and what is said of a program that
breaks off. -/
structure Wording where
  help : Level → Text
  refusal : UsageError → Text
  log : Reading → Text
  breakOff : Text

/-- What a run of the program leaves behind. -/
structure Outcome where
  code : Nat
  output : Text
  errors : Text
deriving DecidableEq, Repr

namespace Outcome
variable (wording : Wording)

/-- The code that tells whether a script is valid. -/
def validityCode (reading : Reading) : Nat :=
  if reading.isValid then 0 else 1

/-- The report on one problem, if it has one. A diagnostic that shows the line is set off by an
empty line. -/
def reportOn? (palette : Palette) (concise : Bool) (file : Text) (problem : Problem) :
    Option Text :=
  if concise then some (problem.diagnostic.concise palette file ++ ['\n'])
  else (problem.diagnostic.form? palette file).map fun report => report ++ ['\n', '\n']

/-- The reports on problems one after the other, up to a problem that has none, and whether all
problems have one. -/
def reportOnAll (palette : Palette) (concise : Bool) (file : Text) : List Problem → Text × Bool
  | [] => ([], true)
  | problem :: problems =>
    match reportOn? palette concise file problem with
    | none => ([], false)
    | some report =>
      let (reports, complete) := reportOnAll palette concise file problems
      (report ++ reports, complete)

/-- The code of a program that breaks off. -/
def breakCode : Nat := 101

def logOf (debug : Bool) (reading : Reading) : Text :=
  if debug then wording.log reading else []

/-- The outcome of checking a script: a report on each of its problems. At a problem that has none
the program breaks off. -/
def ofCheck (palette : Palette) (concise debug : Bool) (file source : Text) : Outcome :=
  let reading := Reading.ofText source
  let log := logOf wording debug reading
  let (output, complete) := reportOnAll palette concise file reading.problems
  if complete then { code := validityCode reading, output, errors := log }
  else { code := breakCode, output, errors := log ++ wording.breakOff }

/-- The outcome of parsing a script: its document. -/
def ofParse (style : Json.Style) (debug : Bool) (source : Text) : Outcome :=
  let reading := Reading.ofText source
  { code := validityCode reading
    output := reading.toJson.toText style ++ ['\n']
    errors := logOf wording debug reading }

/-- The outcome where the script cannot be loaded. -/
def ofLoadError (palette : Palette) (file : Text) (error : LoadError) : Outcome :=
  { code := 1, output := [], errors := error.concise palette file ++ ['\n'] }

end Outcome

namespace Level

/-- The name under which the program, or a command of it, gives its version. -/
def displayName : Level → Text
  | program => "erv".toList
  | check => "erv-check".toList
  | parse => "erv-parse".toList

end Level

def version : Text := "v0.1.0".toList

namespace Invocation

/-- The invocation as it is on a terminal, where diagnostics have colour without being asked for
it. -/
def onTerminal : Invocation → Invocation
  | check file concise _ debug => check file concise true debug
  | invocation => invocation

/-- The outcome of an invocation, where scripts are loaded by the given action. -/
def outcome {m : Type → Type} [Monad m] (wording : Wording)
    (load : Text → m (Except LoadError Text)) : Invocation → m Outcome
  | check file concise colour debug => do
    let palette : Palette := if colour then .ansi else .plain
    match ← load file with
    | .ok source => pure (.ofCheck wording palette concise debug file source)
    | .error error => pure (.ofLoadError palette file error)
  | parse file style debug => do
    match ← load file with
    | .ok source => pure (.ofParse wording style debug source)
    | .error error => pure (.ofLoadError .plain file error)
  | help level => pure { code := 0, output := wording.help level, errors := [] }
  | version level =>
    pure
      { code := 0
        output := level.displayName ++ ' ' :: CampaignScript.version ++ ['\n']
        errors := [] }
  | nothing =>
    pure
      { code := 2
        output := "usage: erv [COMMAND] ...\nTry '--help' for more information.\n".toList
        errors := [] }
  | misuse error =>
    pure { code := 2, output := [], errors := wording.refusal error }

end Invocation

end CampaignScript
