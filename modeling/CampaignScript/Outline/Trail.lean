import CampaignScript.Outline.Layout

/-! The layout of a script made by positions. In place of the depth of the next line the way down to
it is kept: the position of an entry for each level that is gone through. Where a position is not
there, or one is asked for before the first, nothing is laid out. -/
namespace CampaignScript

namespace Outline

/-- The outline that a path of positions leads down to. -/
def follow? : (path : List Nat) → Outline → Option Outline
  | [], outline => some outline
  | i :: path, outline => do
    let entry ← outline.entries[i]?
    entry.nested.follow? path

/-- Adds a line behind the entries of the outline that a path of positions leads down to. -/
def appendAt? (line : Line) : (path : List Nat) → Outline → Option Outline
  | [], outline => some (ofEntries (outline.entries ++ [⟨line, empty⟩]))
  | i :: path, outline => do
    let entry ← outline.entries[i]?
    let nested ← entry.nested.appendAt? line path
    some (ofEntries (outline.entries.set i { entry with nested }))

end Outline

/-- The lines laid out so far, and the way down to the outline that holds the last of them. -/
structure Trail where
  outline : Outline
  path : List Nat
  /-- The indentation of the last line. -/
  previous : Nat
  /-- The line at which reading stopped, if one was out of place. -/
  misplaced : Option Line
deriving DecidableEq, Repr

namespace Trail

def start : Trail :=
  { outline := .empty, path := [], previous := 0, misplaced := none }

/-- Lays out a line at the end of the given path. -/
def place? (trail : Trail) (line : Line) (path : List Nat) : Option Trail := do
  let outline ← trail.outline.appendAt? line path
  some { trail with outline, path, previous := line.indent }

/-- The position of the last of some entries. -/
def lastPosition? (entries : List Entry) : Option Nat :=
  if entries.length < 1 then none else some (entries.length - 1)

/-- Lays out one more line, unless it is blank. A line indented as the one before it goes to the
same outline, and one indented less to an outline further up. One that is indented more goes under
the line before it, if there is one and no level is left out. -/
def add? (trail : Trail) (line : Line) : Option Trail :=
  if line.isBlank then some trail
  else if line.indent < trail.previous then trail.place? line (trail.path.take line.indent)
  else if line.indent > trail.previous then do
    let siblings ← trail.outline.follow? trail.path
    if line.indent > trail.previous + 1 ∨ siblings = .empty then
      let outline ← trail.outline.appendAt? line trail.path
      some { trail with outline, misplaced := some line }
    else
      let last ← lastPosition? siblings.entries
      trail.place? line (trail.path ++ [last])
  else trail.place? line trail.path

/-- Lays out lines one after the other, up to one that is out of place. -/
def addAll? (trail : Trail) : List Line → Option Trail
  | [] => some trail
  | line :: lines => do
    let next ← trail.add? line
    if next.misplaced.isSome then some next else next.addAll? lines

/-- All lines of a script, numbered from 1. -/
def numberedLines (source : Text) : List Line :=
  (source.lines.zipIdx 1).map fun (text, number) => Line.ofSource text number

/-- The outline of a script, and what is wrong with its layout. -/
def ofText? (source : Text) : Option (Outline × List Problem) := do
  let trail ← start.addAll? (numberedLines source)
  let outline := if trail.outline = .empty then .entry .empty .empty .empty else trail.outline
  some (outline, trail.misplaced.toList.map fun line => { line, cause := .indentation })

end Trail

end CampaignScript
