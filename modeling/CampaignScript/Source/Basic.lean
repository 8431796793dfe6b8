import CampaignScript.Source.LoadError

/-! Loading the text of a script from a file or from standard input. -/
namespace CampaignScript.Source

/-- The text that the bytes encode in UTF-8. A byte order mark at the start is part of it. -/
def decode (bytes : ByteArray) : Except ReadFault Text :=
  match String.fromUTF8? bytes with
  | some text => .ok text.toList
  | none => .error .invalidText

/-- The name that asks for standard input. -/
def standardInput : Text := ['-']

def ofFile (bytes : Except ReadFault ByteArray) : Except LoadError Text :=
  (bytes.bind decode).mapError .ofFile

def ofStandardInput (bytes : Except ReadFault ByteArray) : Except LoadError Text :=
  (bytes.bind decode).mapError .ofStandardInput

/-- Loads a script in a world where files and standard input are read by the given actions. -/
def load {m : Type → Type} [Monad m] (file : Text → m (Except ReadFault ByteArray))
    (input : m (Except ReadFault ByteArray)) (name : Text) : m (Except LoadError Text) := do
  if name = standardInput then
    let bytes ← input
    pure (ofStandardInput bytes)
  else
    let bytes ← file name
    pure (ofFile bytes)

end CampaignScript.Source
