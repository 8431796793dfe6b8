import CampaignScript.Text.Phrase

/-! Patterns, and the ways in which they match a text from its start. The ways are tried in an
order: the first of two alternatives before the second, and few characters before many or many
before few. The first way that is found is the match. -/
namespace CampaignScript

/-- A pattern for the start of a text. -/
inductive Pattern where
  | nothing
  /-- The end of the text. -/
  | stop
  /-- One character of a class. -/
  | one (accepts : Char → Bool)
  /-- Any number of characters of a class, as few as will do. -/
  | fewest (accepts : Char → Bool)
  /-- Any number of characters of a class, as many as will do. -/
  | most (accepts : Char → Bool)
  | both (first second : Pattern)
  | either (first second : Pattern)
  /-- A pattern of which it is kept what it takes. -/
  | group (inner : Pattern)

namespace Pattern

/-- A way to match the start of a text: what the pattern takes, what each of its groups takes, and
what is left. -/
structure Match where
  taken : Text
  groups : List Text
  rest : Text
deriving DecidableEq, Repr

/-- A match and then another one of what it left. -/
def Match.andThen (first second : Match) : Match :=
  { taken := first.taken ++ second.taken
    groups := first.groups ++ second.groups
    rest := second.rest }

/-- The ways to take characters of a class, the shortest first. -/
def leads (accepts : Char → Bool) : Text → List Match
  | [] => [⟨[], [], []⟩]
  | c :: text =>
    let longer := (leads accepts text).map fun lead => { lead with taken := c :: lead.taken }
    ⟨[], [], c :: text⟩ :: if accepts c then longer else []

/-- The ways to match a text, in the order in which they are tried. -/
def run : Pattern → Text → List Match
  | nothing, text => [⟨[], [], text⟩]
  | stop, text => if text = [] then [⟨[], [], []⟩] else []
  | one accepts, text =>
    match text with
    | [] => []
    | c :: rest => if accepts c then [⟨[c], [], rest⟩] else []
  | fewest accepts, text => leads accepts text
  | most accepts, text => (leads accepts text).reverse
  | both first second, text =>
    (first.run text).flatMap fun start => (second.run start.rest).map start.andThen
  | either first second, text => first.run text ++ second.run text
  | group inner, text =>
    (inner.run text).map fun way => { way with groups := way.taken :: way.groups }

/-- What the groups of a pattern take, in the first way to match. -/
def captures? (pattern : Pattern) (text : Text) : Option (List Text) :=
  (pattern.run text).head?.map Match.groups

/-- The first place in a text at which a pattern matches: what stands before it, and the match. -/
def find? (pattern : Pattern) : Text → Option (Text × Match)
  | [] => (pattern.run []).head?.map fun way => ([], way)
  | c :: text =>
    match (pattern.run (c :: text)).head? with
    | some way => some ([], way)
    | none => (find? pattern text).map fun (before, way) => (c :: before, way)

/-- The text between the matches of a pattern. They are taken from the left and do not overlap, and
one that takes nothing divides nothing. -/
def split (pattern : Pattern) (text : Text) : List Text :=
  match pattern.find? text with
  | none => [text]
  | some (before, way) =>
    if way.rest.length < text.length then before :: pattern.split way.rest else [text]
termination_by text.length

/-- Patterns one after the other. -/
def seq : List Pattern → Pattern
  | [] => nothing
  | pattern :: patterns => both pattern (seq patterns)

/-- A phrase of small letters, in either letter case. -/
def phrase (text : Text) : Pattern :=
  seq (text.map fun p => one fun c => Text.foldCase c = p)

/-- A text as it stands. -/
def exactly (text : Text) : Pattern :=
  seq (text.map fun p => one fun c => c = p)

def optional (pattern : Pattern) : Pattern :=
  either pattern nothing

/-- The characters that a line can hold. -/
def onLine (c : Char) : Bool :=
  c ≠ '\n'

/-- What the first sequence of a table that matches makes of its groups. -/
def first? {α : Type} (table : List (List Pattern × (List Text → α))) (text : Text) : Option α :=
  table.findSome? fun (patterns, make) => ((seq patterns).captures? text).map make

/-- What the group at a position takes. -/
def groupAt (groups : List Text) (position : Nat) : Text :=
  groups.getD position []

end Pattern

end CampaignScript
