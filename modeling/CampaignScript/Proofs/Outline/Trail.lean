import CampaignScript.Outline.Trail
import CampaignScript.Proofs.Outline.Joining
import CampaignScript.Proofs.Outline.Layout

/-! Positions that are always there. The path of positions that leads to the last line of a layout
goes through the last entry of each level, down to the outline that ends with that line. Each way of
laying out one more line keeps this: a part of such a path is one too, the last line may be gone
through itself, and a line at the end of such a path is a line pushed at its depth. -/
namespace CampaignScript

namespace Outline

/-- Whether a path leads through the last entry of each level of an outline, down to `level`. -/
inductive LeadsLast : List Nat → Outline → Outline → Prop
  | here (outline : Outline) : LeadsLast [] outline outline
  | down {path : List Nat} {nested level : Outline} (front : Outline) (line : Line)
    (h : LeadsLast path nested level) :
    LeadsLast (front.entries.length :: path) (front ++ entry line nested empty) level

theorem getElem?_entries_append (front : Outline) (line : Line) (nested rest : Outline) :
    (front ++ entry line nested rest).entries[front.entries.length]? = some ⟨line, nested⟩ := by
  rw [entries_append, entries, List.getElem?_append_right (Nat.le_refl _), Nat.sub_self,
    List.getElem?_cons_zero]

theorem push_succ_append (front : Outline) (line last : Line) (nested : Outline) (depth : Nat) :
    (front ++ entry last nested empty).push line (depth + 1) =
      front ++ entry last (nested.push line depth) empty := by
  rw [push_append line (depth + 1) front Outline.noConfusion, push]

namespace LeadsLast
variable {path : List Nat} {outline level : Outline}

theorem follow?_eq (h : LeadsLast path outline level) : outline.follow? path = some level := by
  induction h with
  | here outline => rfl
  | down front line h ih => rw [follow?, getElem?_entries_append, Option.bind_eq_bind,
      Option.bind_some, ih]

/-- A line behind the entries of the level is one pushed as deep as the path is long. -/
theorem appendAt?_eq (h : LeadsLast path outline level) (line : Line) :
    outline.appendAt? line path = some (outline.push line path.length) := by
  induction h with
  | here outline =>
    rw [List.length_nil, push_zero, appendAt?, ← ofEntries_entries (outline ++ _), entries_append]
    rfl
  | @down path nested level front last h ih =>
    have hset : (front ++ entry last nested empty).entries.set front.entries.length
          ⟨last, nested.push line path.length⟩ =
        (front ++ entry last (nested.push line path.length) empty).entries := by
      simp [entries_append, entries]
    rw [List.length_cons, push_succ_append, appendAt?, getElem?_entries_append, Option.bind_eq_bind,
      Option.bind_some, ih, Option.bind_eq_bind, Option.bind_some, hset, ofEntries_entries]

theorem push (h : LeadsLast path outline level) (line : Line) :
    LeadsLast path (outline.push line path.length) (level ++ entry line empty empty) := by
  induction h with
  | here outline =>
    rw [List.length_nil, push_zero]
    exact .here _
  | down front last h ih =>
    rw [List.length_cons, push_succ_append]
    exact .down front last ih

theorem take (h : LeadsLast path outline level) (depth : Nat) :
    ∃ upper, LeadsLast (path.take depth) outline upper := by
  induction h generalizing depth with
  | here outline =>
    rw [List.take_nil]
    exact ⟨outline, .here outline⟩
  | down front line h ih =>
    cases depth with
    | zero => exact ⟨_, .here _⟩
    | succ depth =>
      obtain ⟨upper, hupper⟩ := ih depth
      exact ⟨upper, .down front line hupper⟩

/-- The path may go on through the last entry of the level. -/
theorem concat {front nested : Outline} {line : Line}
    (h : LeadsLast path outline (front ++ entry line nested empty)) :
    LeadsLast (path ++ [front.entries.length]) outline nested := by
  generalize hlevel : front ++ entry line nested empty = level at h
  induction h with
  | here outline =>
    rw [← hlevel]
    exact .down front line (.here nested)
  | down upper last h ih => exact .down upper last (ih hlevel)

/-- Each position of the path is the last of the level that the path before it leads to. -/
theorem position (h : LeadsLast path outline level) {i position : Nat}
    (hi : path[i]? = some position) :
    ∃ upper, outline.follow? (path.take i) = some upper ∧ position + 1 = upper.entries.length := by
  induction h generalizing i with
  | here outline => simp at hi
  | down front line h ih =>
    cases i with
    | zero =>
      rw [List.getElem?_cons_zero, Option.some.injEq] at hi
      refine ⟨_, rfl, ?_⟩
      rw [entries_append, List.length_append, hi]
      rfl
    | succ i =>
      obtain ⟨upper, hupper, hposition⟩ := ih hi
      refine ⟨upper, ?_, hposition⟩
      rw [List.take_succ_cons, follow?, getElem?_entries_append, Option.bind_eq_bind,
        Option.bind_some, hupper]

end LeadsLast

end Outline

namespace Trail

theorem lastPosition?_append (front : Outline) (line : Line) (nested : Outline) :
    lastPosition? (front ++ .entry line nested .empty).entries = some front.entries.length := by
  simp [lastPosition?, Outline.entries_append, Outline.entries]

/-- Where the laying out of lines stands when all of `laid` are in their places. -/
structure Stands (laid : List Line) (trail : Trail) : Prop where
  wellPlaced : Layout.WellPlaced laid
  outline : trail.outline = (Layout.ofLines laid).outline
  misplaced : trail.misplaced = none
  length_path : trail.path.length = trail.previous
  level : ∃ level, Outline.LeadsLast trail.path trail.outline level ∧
    ((laid = [] ∧ level = .empty ∧ trail.previous = 0) ∨
      ∃ before line front, laid = before ++ [line] ∧ level = front ++ .entry line .empty .empty ∧
        line.indent = trail.previous)

theorem Stands.start : Stands [] start where
  wellPlaced := fun k hk => absurd hk.lt_length (Nat.not_lt_zero k)
  outline := rfl
  misplaced := rfl
  length_path := rfl
  level := ⟨.empty, .here .empty, .inl ⟨rfl, rfl, rfl⟩⟩

section Add
variable {laid : List Line} {trail : Trail} {line : Line}

/-- A line at the end of a path that leads through last entries stands where its layout has it. -/
theorem Stands.place (h : Stands laid trail) (hline : line.indent ≤ Layout.roomAfter laid)
    {path : List Nat} {level : Outline} (hpath : Outline.LeadsLast path trail.outline level)
    (hlength : path.length = line.indent) :
    ∃ next, trail.place? line path = some next ∧ Stands (laid ++ [line]) next := by
  have hlayout : Layout.ofLines (laid ++ [line]) = (Layout.ofLines laid).add line := by
    rw [Layout.ofLines, List.foldl_append]
    rfl
  have houtline : trail.outline.push line path.length =
      (Layout.ofLines (laid ++ [line])).outline := by
    rw [hlayout, (Layout.Follows.ofLines h.wellPlaced).add_eq hline, h.outline, hlength]
  refine ⟨_, by rw [place?, hpath.appendAt?_eq]; rfl, ?_⟩
  exact {
    wellPlaced := Layout.wellPlaced_concat_iff.mpr ⟨h.wellPlaced, hline⟩
    outline := houtline
    misplaced := h.misplaced
    length_path := hlength
    level := ⟨_, hpath.push line, .inr ⟨laid, line, level, rfl, rfl, rfl⟩⟩ }

theorem Stands.previous_eq (h : Stands laid trail) :
    trail.previous = Layout.roomAfter laid - 1 := by
  obtain ⟨level, -, ⟨rfl, -, hprevious⟩ | ⟨before, last, front, rfl, -, hprevious⟩⟩ := h.level
  · exact hprevious
  · simp [Layout.roomAfter, hprevious]

/-- A line that is in its place is laid out, whichever way its indentation leads. -/
theorem Stands.add (h : Stands laid trail) (hcontent : line.isBlank = false)
    (hline : line.indent ≤ Layout.roomAfter laid) :
    ∃ next, trail.add? line = some next ∧ Stands (laid ++ [line]) next := by
  have hprevious := h.previous_eq
  have hlength := h.length_path
  obtain ⟨level, hpath, hlevel⟩ := h.level
  rw [add?, if_neg (by simp [hcontent])]
  rcases Nat.lt_trichotomy line.indent trail.previous with hless | hsame | hmore
  · obtain ⟨upper, hupper⟩ := hpath.take line.indent
    rw [if_pos hless]
    exact h.place hline hupper (by rw [List.length_take]; omega)
  · rw [if_neg (by omega), if_neg (by omega)]
    exact h.place hline hpath (by omega)
  · rcases hlevel with ⟨rfl, -, -⟩ | ⟨before, last, front, -, rfl, -⟩
    · -- Before the first line there is no room but at the top.
      have hroom : Layout.roomAfter [] = 0 := rfl
      omega
    · have hnext : ¬ (line.indent > trail.previous + 1 ∨
          front ++ .entry last .empty .empty = .empty) := by
        rw [not_or]
        exact ⟨by omega, Outline.append_ne_empty front Outline.noConfusion⟩
      rw [if_neg (by omega), if_pos hmore, hpath.follow?_eq, Option.bind_eq_bind, Option.bind_some,
        if_neg hnext, lastPosition?_append, Option.bind_eq_bind, Option.bind_some]
      exact h.place hline hpath.concat (by rw [List.length_append, List.length_singleton]; omega)

/-- A line out of place is kept where the line before it is. -/
theorem Stands.add_misplaced (h : Stands laid trail) (hcontent : line.isBlank = false)
    (hline : Layout.roomAfter laid < line.indent) :
    ∃ next, trail.add? line = some next ∧ next.misplaced = some line ∧
      next.outline = (Layout.ofLines (laid ++ [line])).outline := by
  have hprevious := h.previous_eq
  obtain ⟨level, hpath, hlevel⟩ := h.level
  have hstop : line.indent > trail.previous + 1 ∨ level = .empty := by
    rcases hlevel with ⟨-, hempty, -⟩ | ⟨before, last, front, rfl, -, -⟩
    · exact .inr hempty
    · have hroom : 0 < Layout.roomAfter (before ++ [last]) := by simp [Layout.roomAfter]
      exact .inl (by omega)
  have houtline : trail.outline.push line trail.path.length =
      (Layout.ofLines (laid ++ [line])).outline := by
    rw [Layout.ofLines_append_of_misplaced h.wellPlaced hline, h.outline, h.length_path, hprevious]
  refine ⟨{ trail with outline := _, misplaced := some line }, ?_, rfl, houtline⟩
  rw [add?, if_neg (by simp [hcontent]), if_neg (by omega), if_pos (by omega), hpath.follow?_eq,
    Option.bind_eq_bind, Option.bind_some, if_pos hstop, hpath.appendAt?_eq]
  rfl

end Add

/-- The lines that have content. -/
def content (lines : List Line) : List Line :=
  lines.filter fun line => !line.isBlank

/-- No line is laid out that is not there to be, and the outcome is that of the layout. -/
theorem Stands.addAll {laid : List Line} {trail : Trail} (h : Stands laid trail)
    (lines : List Line) :
    ∃ last, trail.addAll? lines = some last ∧
      last.outline = (Layout.ofLines (laid ++ content lines)).outline ∧
      last.misplaced = (Layout.ofLines (laid ++ content lines)).misplaced ∧
      (last.misplaced = none → Stands (laid ++ content lines) last) := by
  induction lines generalizing laid trail with
  | nil =>
    have hlayout := Layout.Follows.ofLines h.wellPlaced
    simp only [content, List.filter_nil, List.append_nil]
    exact ⟨trail, rfl, h.outline, h.misplaced.trans hlayout.misplaced.symm, fun _ => h⟩
  | cons line lines ih =>
    rw [addAll?]
    cases hblank : line.isBlank with
    | true =>
      have hadd : trail.add? line = some trail := if_pos hblank
      have hcontent : content (line :: lines) = content lines := by simp [content, hblank]
      rw [hadd, Option.bind_eq_bind, Option.bind_some, if_neg (by simp [h.misplaced]), hcontent]
      exact ih h
    | false =>
      have hcontent : content (line :: lines) = line :: content lines := by simp [content, hblank]
      rcases Nat.lt_or_ge (Layout.roomAfter laid) line.indent with hline | hline
      · obtain ⟨next, hadd, hmisplaced, houtline⟩ := h.add_misplaced hblank hline
        have hrest : Layout.ofLines (laid ++ line :: content lines) =
            Layout.ofLines (laid ++ [line]) := by
          rw [Layout.ofLines_append_of_misplaced h.wellPlaced hline,
            Layout.ofLines_append_of_misplaced h.wellPlaced hline]
        rw [hadd, Option.bind_eq_bind, Option.bind_some, if_pos (by simp [hmisplaced]), hcontent,
          hrest]
        refine ⟨next, rfl, houtline, ?_, ?_⟩
        · rw [hmisplaced, (Layout.ofLines_of_misplaced h.wellPlaced hline []).2]
        · rw [hmisplaced]
          exact fun hnone => absurd hnone (Option.some_ne_none line)
      · obtain ⟨next, hadd, hnext⟩ := h.add hblank hline
        rw [hadd, Option.bind_eq_bind, Option.bind_some, if_neg (by simp [hnext.misplaced]),
          hcontent, List.append_cons]
        exact ih hnext

/-- What holds at the start of each pass over the lines of a script: the path is as long as the last
line is deep, each of its positions is the last of the level it stands for, and it leads to a level
that is empty before the first line only and ends with the last line otherwise. -/
structure InBounds (laid : List Line) (trail : Trail) : Prop where
  outline : trail.outline = (Layout.ofLines laid).outline
  length_path : trail.path.length = trail.previous
  position : ∀ i position, trail.path[i]? = some position →
    ∃ level, trail.outline.follow? (trail.path.take i) = some level ∧
      position + 1 = level.entries.length
  level : ∃ level, trail.outline.follow? trail.path = some level ∧ (level = .empty ↔ laid = []) ∧
    ∀ line, laid.getLast? = some line →
      line.indent = trail.previous ∧ level.entries.getLast? = some ⟨line, .empty⟩

theorem Stands.inBounds {laid : List Line} {trail : Trail} (h : Stands laid trail) :
    InBounds laid trail := by
  obtain ⟨level, hpath, hlevel⟩ := h.level
  refine ⟨h.outline, h.length_path, fun i position hi => hpath.position hi,
    level, hpath.follow?_eq, ?_⟩
  rcases hlevel with ⟨rfl, rfl, -⟩ | ⟨before, last, front, rfl, rfl, hindent⟩
  · simp
  · have hlevel : front ++ .entry last .empty .empty ≠ .empty :=
      Outline.append_ne_empty front Outline.noConfusion
    refine ⟨iff_of_false hlevel (by simp), fun line hline => ?_⟩
    rw [List.getLast?_concat, Option.some.injEq] at hline
    subst hline
    refine ⟨hindent, ?_⟩
    rw [Outline.entries_append]
    exact List.getLast?_concat

theorem Stands.exists_add {laid : List Line} {trail : Trail} (h : Stands laid trail) (line : Line) :
    ∃ next, trail.add? line = some next := by
  cases hblank : line.isBlank with
  | true => exact ⟨trail, if_pos hblank⟩
  | false =>
    rcases Nat.lt_or_ge (Layout.roomAfter laid) line.indent with hline | hline
    · obtain ⟨next, hadd, -⟩ := h.add_misplaced hblank hline
      exact ⟨next, hadd⟩
    · obtain ⟨next, hadd, -⟩ := h.add hblank hline
      exact ⟨next, hadd⟩

theorem ofText?_eq (source : Text) :
    ofText? source = some ((Layout.ofText source).outline, (Layout.ofText source).problems) := by
  obtain ⟨last, hrun, houtline, hmisplaced, -⟩ := Stands.start.addAll (numberedLines source)
  have hlines : [] ++ content (numberedLines source) = Layout.contentLines source := rfl
  rw [hlines] at houtline hmisplaced
  rw [ofText?, hrun, Option.bind_eq_bind, Option.bind_some, houtline, hmisplaced]
  by_cases hnil : Layout.contentLines source = []
  · rw [Layout.ofText_of_eq_nil hnil, hnil]
    rfl
  · have hne := Layout.outline_ofText_ne_empty source
    rw [Layout.ofText_of_ne_nil hnil] at hne ⊢
    rw [if_neg hne]
    rfl

/-- The outline of a script by positions, and what is wrong with it, in one of three cases: a single
empty line where no line has content, all lines with content where none of them is out of place, and
otherwise those up to the first that is out of place, which is kept beside the line before it and
reported. Every other line stands at the depth of its indentation, with the number that it has in
the script and its tabs spread out, and no other outline has the same listing. -/
theorem ofText?_listing (source : Text) :
    let written := (source.lines.zipIdx 1).filter fun (text, _) => ¬ text.IsBlank
    let lines : List Line := written.map fun (text, number) =>
      ⟨number, text.flatMap fun c => if c = '\t' then List.replicate 4 ' ' else [c]⟩
    ∃ outline problems, ofText? source = some (outline, problems) ∧
      (∀ other : Outline, other.listing 0 = outline.listing 0 → other = outline) ∧
      ((lines = [] ∧ outline.listing 0 = [(0, ⟨0, []⟩)] ∧ problems = []) ∨
        (lines ≠ [] ∧ (∀ k, ¬ Layout.IsMisplaced lines k) ∧
          outline.listing 0 = (lines.map fun line => (line.indent, line)) ∧ problems = []) ∨
        ∃ k line, lines[k]? = some line ∧ Layout.IsMisplaced lines k ∧
          (∀ j < k, ¬ Layout.IsMisplaced lines j) ∧
          outline.listing 0 = ((lines.take k).map fun line => (line.indent, line)) ++
            [((lines.take k).getLast?.elim 0 Line.indent, line)] ∧
          problems = [{ line, cause := .indentation }]) := by
  intro written lines
  have hlines : Layout.contentLines source = lines := Layout.contentLines_eq source
  obtain ⟨hunique, hcases⟩ := Layout.ofText_listing source
  rw [hlines] at hcases
  exact ⟨_, _, ofText?_eq source, hunique, hcases⟩

/-- Lines are laid out by positions that are always there. At the start of each pass that is reached
the path is in bounds, and the pass, whatever its line, asks for no position outside. So a script
has a layout by positions, and it is the one made by depths. -/
theorem ofText?_inBounds (source : Text) :
    (∀ before line after, numberedLines source = before ++ line :: after →
      ∃ trail, start.addAll? before = some trail ∧
        trail.misplaced = (Layout.ofLines (content before)).misplaced ∧
        (trail.misplaced = none →
          InBounds (content before) trail ∧ ∃ next, trail.add? line = some next)) ∧
    ofText? source = some ((Layout.ofText source).outline, (Layout.ofText source).problems) := by
  refine ⟨fun before line after _ => ?_, ofText?_eq source⟩
  obtain ⟨trail, hrun, -, hmisplaced, hstands⟩ := Stands.start.addAll before
  refine ⟨trail, hrun, hmisplaced, fun hnone => ?_⟩
  have h := hstands hnone
  exact ⟨h.inBounds, h.exists_add line⟩

/-- A line two levels further up than the one before it, which a blank line divides it from. -/
theorem ofText?_inBounds_dedent :
    let before : List Line :=
      [⟨1, "a".toList⟩, ⟨2, "    b".toList⟩, ⟨3, "        c".toList⟩, ⟨4, []⟩]
    let line : Line := ⟨5, "d".toList⟩
    ∃ trail next, start.addAll? before = some trail ∧ trail.path = [0, 0] ∧
      InBounds (content before) trail ∧ trail.add? line = some next := by
  intro before line
  have hlines : numberedLines "a\n    b\n        c\n\nd\n".toList = before ++ line :: [] := by
    decide +kernel
  have hpath : (start.addAll? before).map (fun trail => (trail.path, trail.misplaced)) =
      some ([0, 0], none) := by
    decide +kernel
  obtain ⟨hpasses, -⟩ := ofText?_inBounds "a\n    b\n        c\n\nd\n".toList
  obtain ⟨trail, hrun, -, hreached⟩ := hpasses before line [] hlines
  rw [hrun, Option.map_some, Option.some.injEq, Prod.mk.injEq] at hpath
  obtain ⟨hbounds, next, hnext⟩ := hreached hpath.2
  exact ⟨trail, next, hrun, hpath.1, hbounds, hnext⟩

end Trail

end CampaignScript
