import CampaignScript.Json.Basic
import CampaignScript.Text.Basic

/-! The command line: which arguments there are, and what a list of arguments asks for. The program
has two commands. Options may stand before and after the name of a file. -/
namespace CampaignScript

/-- The options of the program and of its commands. -/
inductive Flag where
  | debug
  | help
  | version
  | concise
  | rawControlChars
  | compact
deriving DecidableEq, Repr

namespace Flag

/-- The name that follows two dashes. -/
def long : Flag → Text
  | debug => "debug".toList
  | help => "help".toList
  | version => "version".toList
  | concise => "concise".toList
  | rawControlChars => "raw-control-chars".toList
  | compact => "compact".toList

/-- The letter that follows a single dash. -/
def short? : Flag → Option Char
  | help => some 'h'
  | version => some 'V'
  | rawControlChars => some 'R'
  | debug | concise | compact => none

end Flag

/-- The commands, and the program on its own. -/
inductive Level where
  | program
  | check
  | parse
deriving DecidableEq, Repr

namespace Level

/-- The options that are understood at a level. -/
def flags : Level → List Flag
  | program => [.debug, .help, .version]
  | check => [.debug, .help, .version, .concise, .rawControlChars]
  | parse => [.debug, .help, .version, .compact]

/-- The word that names a command. -/
def word? : Level → Option Text
  | program => none
  | check => some "check".toList
  | parse => some "parse".toList

/-- The command that a word names. -/
def ofWord? (word : Text) : Option Level :=
  [check, parse].find? fun command => command.word? == some word

def longFlag? (level : Level) (name : Text) : Option Flag :=
  level.flags.find? fun flag => flag.long == name

def shortFlag? (level : Level) (letter : Char) : Option Flag :=
  level.flags.find? fun flag => flag.short? == some letter

end Level

/-- What an argument stands for, or each letter of an argument of several letters. -/
inductive Token where
  | flag (flag : Flag)
  /-- Something that has the form of an option and is none, or has a value that it does not
  take. -/
  | unknown (text : Text)
  | value (text : Text)
deriving DecidableEq, Repr

/-- The tokens of one argument. A single dash is a value. -/
def Level.tokens (level : Level) (argument : Text) : List Token :=
  match argument with
  | '-' :: '-' :: name => [(level.longFlag? name).elim (.unknown argument) .flag]
  | '-' :: letter :: letters =>
    (letter :: letters).map fun c => (level.shortFlag? c).elim (.unknown ['-', c]) .flag
  | _ => [.value argument]

/-- Two dashes, after which every argument is a value. -/
def endOfOptions : Text := ['-', '-']

/-- The tokens of the arguments of a command. -/
def Level.tokenize (level : Level) (arguments : List Text) : List Token :=
  let isOption := fun argument => argument != endOfOptions
  (arguments.takeWhile isOption).flatMap level.tokens ++
    ((arguments.dropWhile isOption).drop 1).map .value

/-- Why a list of arguments is refused. -/
inductive UsageError where
  | unknownOption (text : Text)
  | repeatedOption (flag : Flag)
  | unknownCommand (word : Text)
  | extraArgument (text : Text)
  | missingFile
deriving DecidableEq, Repr

/-- What a list of arguments asks for. -/
inductive Invocation where
  | check (file : Text) (concise colour debug : Bool)
  | parse (file : Text) (style : Json.Style) (debug : Bool)
  | help (level : Level)
  | version (level : Level)
  /-- No command is named. -/
  | nothing
  | misuse (error : UsageError)
deriving DecidableEq, Repr

/-- The options met so far at a level, and the name of the file. -/
structure Settings where
  flags : List Flag
  file : Option Text
deriving DecidableEq, Repr

namespace Settings

/-- Nothing is set before the first argument. -/
def initial : Settings :=
  { flags := [], file := none }

/-- Takes in one more token, or answers without looking at those that follow: help, the version and
the first misuse are answered where they are met. -/
def take (level : Level) (settings : Settings) : Token → Except Invocation Settings
  | .unknown text => .error (.misuse (.unknownOption text))
  | .flag .help => .error (.help level)
  | .flag .version => .error (.version level)
  | .flag flag =>
    if flag ∈ settings.flags then .error (.misuse (.repeatedOption flag))
    else .ok { settings with flags := flag :: settings.flags }
  | .value text =>
    match level, settings.file with
    | .program, _ => .error (.misuse (.unknownCommand text))
    | _, some _ => .error (.misuse (.extraArgument text))
    | _, none => .ok { settings with file := some text }

end Settings

namespace Invocation

/-- What the settings of a level ask for, where the option `debug` may be set already. -/
def ofSettings (level : Level) (debug : Bool) (settings : Settings) : Invocation :=
  let isSet := settings.flags.contains
  let debug := debug || isSet .debug
  match level, settings.file with
  | .program, _ => .nothing
  | _, none => .misuse .missingFile
  | .check, some file => .check file (isSet .concise) (isSet .rawControlChars) debug
  | .parse, some file => .parse file (if isSet .compact then .compact else .pretty) debug

/-- What the tokens of a level ask for, after the given settings. -/
def ofTokens (level : Level) (debug : Bool) (settings : Settings) (tokens : List Token) :
    Invocation :=
  match tokens.foldlM (Settings.take level) settings with
  | .ok settings => ofSettings level debug settings
  | .error answer => answer

/-- What the arguments ask for, after the given settings of the program. The arguments up to the
word that names a command are options of the program, and those after it are the command's. -/
def ofRest (settings : Settings) : List Text → Invocation
  | [] => .nothing
  | argument :: arguments =>
    match Level.ofWord? argument with
    | some command =>
      ofTokens command (settings.flags.contains .debug) .initial (command.tokenize arguments)
    | none =>
      if argument = endOfOptions then ofTokens .program false settings (arguments.map .value)
      else
        match (Level.program.tokens argument).foldlM (Settings.take .program) settings with
        | .ok settings => ofRest settings arguments
        | .error answer => answer

/-- What the arguments of the program ask for. -/
def ofArguments (arguments : List Text) : Invocation :=
  ofRest .initial arguments

end Invocation

end CampaignScript
