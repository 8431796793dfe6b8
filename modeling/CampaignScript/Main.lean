import CampaignScript.Command.Outcome
import CampaignScript.Source.Basic

/-! The command line program. -/
namespace CampaignScript

/-- The fault that an error of the file system stands for. An error that carries a path was met on
the way to the file, and one that carries none at what the path leads to. -/
def ReadFault.ofIOError : IO.Error → ReadFault
  | .noFileOrDirectory .. => .notFound
  | .inappropriateType (some _) .. => .notDirectory
  | .inappropriateType none .. => .isDirectory
  | .invalidArgument (some _) .. => .invalidName
  | .permissionDenied .. => .denied
  | _ => .other

/-- Reads a file. No path holds the character that ends strings for the system. -/
def readFile (name : Text) : IO (Except ReadFault ByteArray) := do
  if '\x00' ∈ name then return .error .invalidPath
  try
    return .ok (← IO.FS.readBinFile (String.ofList name))
  catch error =>
    return .error (ReadFault.ofIOError error)

def readInput : IO (Except ReadFault ByteArray) := do
  let input ← IO.getStdin
  try
    return .ok (← input.readBinToEnd)
  catch error =>
    return .error (ReadFault.ofIOError error)

/-- The texts that this program has in place of a library's. They say the same, each in its own
words. -/
def Wording.own : Wording where
  help
    | .program => "usage: erv [COMMAND] ...\n".toList
    | .check => "usage: erv check [--concise] [-R] FILE\n".toList
    | .parse => "usage: erv parse [--compact] FILE\n".toList
  refusal
    | .unknownOption text => "error: unknown option ".toList ++ text ++ ['\n']
    | .repeatedOption flag => "error: option given twice: --".toList ++ flag.long ++ ['\n']
    | .unknownCommand word => "error: unknown command ".toList ++ word ++ ['\n']
    | .extraArgument text => "error: argument not expected: ".toList ++ text ++ ['\n']
    | .missingFile => "error: no file given\n".toList
  log reading := "problems: ".toList ++ Text.numeral reading.problems.length ++ ['\n']
  breakOff := "column out of range\n".toList

/-- Runs the program and gives the code it ends with. -/
def run (arguments : List Text) : IO UInt32 := do
  let asked := Invocation.ofArguments arguments
  let invocation := if ← (← IO.getStdout).isTty then asked.onTerminal else asked
  let outcome ← invocation.outcome .own (Source.load readFile readInput)
  IO.print (String.ofList outcome.output)
  IO.eprint (String.ofList outcome.errors)
  return outcome.code.toUInt32

end CampaignScript

def main (arguments : List String) : IO UInt32 :=
  CampaignScript.run (arguments.map String.toList)
