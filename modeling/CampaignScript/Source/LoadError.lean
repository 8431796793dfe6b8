import CampaignScript.Diagnostic.Palette

/-! What keeps a script from being loaded. -/
namespace CampaignScript

/-- Why the bytes of a file or their text are not to be had. -/
inductive ReadFault where
  | notFound
  | isDirectory
  /-- A name on the way to the file is that of another file. -/
  | notDirectory
  /-- A name on the way is too long. -/
  | invalidName
  /-- The path has a character that no path may have. -/
  | invalidPath
  /-- The bytes are no text. -/
  | invalidText
  | denied
  | other
deriving DecidableEq, Repr

def ReadFault.description : ReadFault → Text
  | notFound => "entity not found".toList
  | isDirectory => "is a directory".toList
  | notDirectory => "not a directory".toList
  | invalidName => "invalid filename".toList
  | invalidPath => "invalid input parameter".toList
  | invalidText => "invalid data".toList
  | denied => "permission denied".toList
  | other => "other error".toList

/-- A script that was not loaded: the problem, and details unless the problem says all. -/
structure LoadError where
  problem : Text
  details : Text
deriving DecidableEq, Repr

namespace LoadError

def ofFile : ReadFault → LoadError
  | .notFound => { problem := "File not found".toList, details := [] }
  | fault => { problem := "Failed reading".toList, details := fault.description }

def ofStandardInput (fault : ReadFault) : LoadError :=
  { problem := "Failed reading standard input".toList, details := fault.description }

def message (error : LoadError) : Text :=
  if error.details.isEmpty then error.problem else error.problem ++ ": ".toList ++ error.details

/-- The error on one line, with the name of the file. -/
def concise (palette : Palette) (file : Text) (error : LoadError) : Text :=
  palette.paint .label "error".toList ++ ": ".toList ++ file ++ ": ".toList ++
    palette.paint .problem error.message

end LoadError

end CampaignScript
