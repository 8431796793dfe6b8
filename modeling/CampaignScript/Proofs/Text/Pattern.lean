import CampaignScript.Proofs.Text.Phrase
import CampaignScript.Text.Pattern

/-! How patterns match. A way to match takes a part of the text from its start, so what a pattern of
a whole text does not accept is nowhere in the text. A sequence matches as its first part does in
the first way that leaves the others a match, and for a group of few characters this can be told
from one character to the next. -/
namespace CampaignScript

namespace Text

theorem afterPhrase?_append_phrase (phrase more text : Text) :
    afterPhrase? (phrase ++ more) text = (afterPhrase? phrase text).bind (afterPhrase? more) := by
  fun_induction afterPhrase? phrase text with
  | case1 => rfl
  | case2 => rfl
  | case3 phrase c text ih => rw [List.cons_append, afterPhrase?, if_pos rfl, ih]
  | case4 p phrase c text hc => rw [List.cons_append, afterPhrase?, if_neg hc]; rfl

theorem beforePhrase?_cons (phrase : Text) (c : Char) (text : Text) :
    beforePhrase? phrase (c :: text) =
      if afterPhrase? phrase (c :: text) = some [] then some []
      else (beforePhrase? phrase text).map (c :: ·) := by
  split_ifs with hwhole
  · obtain ⟨opening, htext, hopening⟩ := afterPhrase?_eq_some_iff.mp hwhole
    rw [List.append_nil] at htext
    exact beforePhrase?_eq_some_iff.mpr ⟨opening, htext, hopening⟩
  · apply Option.ext
    intro before
    rw [Option.map_eq_some_iff]
    simp only [beforePhrase?_eq_some_iff]
    constructor
    · rintro ⟨closing, htext, hclosing⟩
      cases before with
      | nil =>
        refine absurd (afterPhrase?_eq_some_iff.mpr ⟨closing, ?_, hclosing⟩) hwhole
        rwa [List.append_nil]
      | cons d before =>
        rw [List.cons_append, List.cons.injEq] at htext
        obtain ⟨rfl, htext⟩ := htext
        exact ⟨before, ⟨closing, htext, hclosing⟩, rfl⟩
    · rintro ⟨before, ⟨closing, rfl, hclosing⟩, rfl⟩
      exact ⟨closing, rfl, hclosing⟩

theorem splitAtPhrase?_space (text : Text) :
    splitAtPhrase? " ".toList text = splitAtChar? ' ' text := by
  induction text with
  | nil => rfl
  | cons c text ih =>
    have hspace : afterPhrase? " ".toList (c :: text) = if c = ' ' then some text else none := by
      show (if foldCase c = ' ' then some text else none) = _
      simp only [foldCase_eq_space_iff]
    rw [splitAtPhrase?, splitAtChar?, hspace, ih]
    split_ifs <;> rfl

end Text

namespace Pattern

open Text

/-! ### What a way takes -/

theorem taken_append_of_mem_leads {accepts : Char → Bool} {text : Text} {way : Match}
    (h : way ∈ leads accepts text) : way.taken ++ way.rest = text := by
  induction text generalizing way with
  | nil => rw [List.mem_singleton.mp h]; rfl
  | cons c text ih =>
    rw [leads] at h
    rcases List.mem_cons.mp h with rfl | h
    · rfl
    · split at h
      · obtain ⟨lead, hlead, rfl⟩ := List.mem_map.mp h
        exact congrArg (c :: ·) (ih hlead)
      · exact absurd h List.not_mem_nil

/-- A way to match divides the text. -/
theorem taken_append_of_mem_run {pattern : Pattern} {text : Text} {way : Match}
    (h : way ∈ pattern.run text) : way.taken ++ way.rest = text := by
  induction pattern generalizing text way with
  | nothing => rw [List.mem_singleton.mp h]; rfl
  | stop =>
    rw [run] at h
    split at h
    · next htext => rw [List.mem_singleton.mp h, htext]; rfl
    · exact absurd h List.not_mem_nil
  | one accepts =>
    cases text with
    | nil => exact absurd h List.not_mem_nil
    | cons c text =>
      simp only [run] at h
      split at h
      · rw [List.mem_singleton.mp h]; rfl
      · exact absurd h List.not_mem_nil
  | fewest accepts => exact taken_append_of_mem_leads h
  | most accepts => exact taken_append_of_mem_leads (List.mem_reverse.mp h)
  | both first second ihFirst ihSecond =>
    obtain ⟨start, hstart, h⟩ := List.mem_flatMap.mp h
    obtain ⟨next, hnext, rfl⟩ := List.mem_map.mp h
    rw [Match.andThen, List.append_assoc, ihSecond hnext, ihFirst hstart]
  | either first second ihFirst ihSecond =>
    exact (List.mem_append.mp h).elim ihFirst ihSecond
  | group inner ih =>
    obtain ⟨inside, hinside, rfl⟩ := List.mem_map.mp h
    exact @ih text inside hinside

/-- Whether a character is in none of the classes of a pattern. -/
def Refuses (c : Char) : Pattern → Prop
  | nothing | stop => True
  | one accepts | fewest accepts | most accepts => accepts c = false
  | both first second | either first second => first.Refuses c ∧ second.Refuses c
  | group inner => inner.Refuses c

instance decidableRefuses (c : Char) : (pattern : Pattern) → Decidable (pattern.Refuses c)
  | nothing | stop => inferInstanceAs (Decidable True)
  | one accepts | fewest accepts | most accepts => inferInstanceAs (Decidable (accepts c = false))
  | both first second | either first second =>
    have := decidableRefuses c first
    have := decidableRefuses c second
    inferInstanceAs (Decidable (_ ∧ _))
  | group inner => decidableRefuses c inner

theorem notMem_taken_of_mem_leads {accepts : Char → Bool} {c : Char} (hc : accepts c = false)
    {text : Text} {way : Match} (h : way ∈ leads accepts text) : c ∉ way.taken := by
  induction text generalizing way with
  | nil => rw [List.mem_singleton.mp h]; exact List.not_mem_nil
  | cons d text ih =>
    rw [leads] at h
    rcases List.mem_cons.mp h with rfl | h
    · exact List.not_mem_nil
    · split at h
      · next hd =>
        obtain ⟨lead, hlead, rfl⟩ := List.mem_map.mp h
        rw [List.mem_cons, not_or]
        refine ⟨?_, ih hlead⟩
        rintro rfl
        rw [hc] at hd
        contradiction
      · exact absurd h List.not_mem_nil

theorem Refuses.notMem_taken {pattern : Pattern} {c : Char} (hc : pattern.Refuses c) {text : Text}
    {way : Match} (h : way ∈ pattern.run text) : c ∉ way.taken := by
  induction pattern generalizing text way with
  | nothing => rw [List.mem_singleton.mp h]; exact List.not_mem_nil
  | stop =>
    rw [run] at h
    split at h
    · rw [List.mem_singleton.mp h]; exact List.not_mem_nil
    · exact absurd h List.not_mem_nil
  | one accepts =>
    cases text with
    | nil => exact absurd h List.not_mem_nil
    | cons d text =>
      simp only [run] at h
      split at h
      · next hd =>
        rw [List.mem_singleton.mp h, List.mem_singleton]
        rintro rfl
        rw [Refuses, hd] at hc
        contradiction
      · exact absurd h List.not_mem_nil
  | fewest accepts => exact notMem_taken_of_mem_leads hc h
  | most accepts => exact notMem_taken_of_mem_leads hc (List.mem_reverse.mp h)
  | both first second ihFirst ihSecond =>
    obtain ⟨start, hstart, h⟩ := List.mem_flatMap.mp h
    obtain ⟨next, hnext, rfl⟩ := List.mem_map.mp h
    rw [Match.andThen, List.mem_append, not_or]
    exact ⟨ihFirst hc.1 hstart, ihSecond hc.2 hnext⟩
  | either first second ihFirst ihSecond =>
    exact (List.mem_append.mp h).elim (ihFirst hc.1) (ihSecond hc.2)
  | group inner ih =>
    obtain ⟨inside, hinside, rfl⟩ := List.mem_map.mp h
    exact @ih hc text inside hinside

theorem rest_eq_nil_of_mem_run {patterns : List Pattern} (hlast : patterns.getLast? = some stop)
    {text : Text} {way : Match} (h : way ∈ (seq patterns).run text) : way.rest = [] := by
  induction patterns generalizing text way with
  | nil => contradiction
  | cons pattern patterns ih =>
    obtain ⟨start, hstart, h⟩ := List.mem_flatMap.mp h
    obtain ⟨next, hnext, rfl⟩ := List.mem_map.mp h
    cases patterns with
    | nil =>
      obtain rfl : pattern = stop := by simpa using hlast
      rw [run] at hstart
      split at hstart
      · rw [List.mem_singleton.mp hstart] at hnext
        rw [List.mem_singleton.mp hnext]
        rfl
      · exact absurd hstart List.not_mem_nil
    | cons second patterns =>
      rw [List.getLast?_cons_cons] at hlast
      exact @ih hlast start.rest next hnext

/-- A pattern for whole texts does not match one with a character that it refuses. -/
theorem captures?_eq_none {patterns : List Pattern} (hlast : patterns.getLast? = some stop)
    {c : Char} (hc : (seq patterns).Refuses c) {text : Text} (htext : c ∈ text) :
    (seq patterns).captures? text = none := by
  rw [captures?, Option.map_eq_none_iff, List.head?_eq_none_iff, List.eq_nil_iff_forall_not_mem]
  intro way hway
  have htaken := taken_append_of_mem_run hway
  rw [rest_eq_nil_of_mem_run hlast hway, List.append_nil] at htaken
  exact hc.notMem_taken hway (htaken ▸ htext)

/-! ### The first way of a sequence -/

theorem captures?_seq_cons (pattern : Pattern) (patterns : List Pattern) (text : Text) :
    (seq (pattern :: patterns)).captures? text =
      (pattern.run text).findSome? fun way =>
        ((seq patterns).captures? way.rest).map (way.groups ++ ·) := by
  rw [captures?, seq, run, List.head?_flatMap, List.map_findSome?]
  congr 1
  funext way
  simp only [Function.comp_apply, List.head?_map, captures?, Option.map_map]
  rfl

theorem run_phrase (words text : Text) :
    (phrase words).run text =
      (afterPhrase? words text).toList.map fun rest => ⟨text.take words.length, [], rest⟩ := by
  rw [phrase]
  fun_induction afterPhrase? words text with
  | case1 => rfl
  | case2 => rfl
  | case3 words c text ih =>
    simp only [List.map_cons, seq, run, decide_true, if_true, List.flatMap_cons, ih, List.map_map,
      List.flatMap_nil, List.append_nil]
    rfl
  | case4 p words c text hc =>
    simp only [List.map_cons, seq, run, hc, decide_false, Bool.false_eq_true, if_false]
    rfl

variable (patterns : List Pattern)

theorem captures?_phrase (words text : Text) :
    (seq (phrase words :: patterns)).captures? text =
      (afterPhrase? words text).bind (seq patterns).captures? := by
  rw [captures?_seq_cons, run_phrase]
  cases afterPhrase? words text with
  | none => rfl
  | some rest =>
    rw [Option.toList_some, List.map_singleton, List.findSome?_singleton]
    exact Option.map_id'

theorem captures?_optional (pattern : Pattern) (text : Text) :
    (seq (optional pattern :: patterns)).captures? text =
      ((seq (pattern :: patterns)).captures? text).or ((seq patterns).captures? text) := by
  rw [captures?_seq_cons, captures?_seq_cons, optional, run, List.findSome?_append, run,
    List.findSome?_singleton]
  exact congrArg _ Option.map_id'

theorem captures?_stop (text : Text) :
    (seq [stop]).captures? text = if text = [] then some [] else none := by
  rw [captures?_seq_cons, run]
  split <;> rfl

/-- What the groups take where the first one takes what a way takes, and the others match behind
it. -/
def Match.captures? (way : Match) : Option (List Text) :=
  ((seq patterns).captures? way.rest).map (way.taken :: way.groups ++ ·)

theorem Match.captures?_mk (taken rest : Text) :
    Match.captures? patterns ⟨taken, [], rest⟩ =
      ((seq patterns).captures? rest).map (taken :: ·) := rfl

theorem captures?_group (pattern : Pattern) (text : Text) :
    (seq (group pattern :: patterns)).captures? text =
      (pattern.run text).findSome? (Match.captures? patterns) := by
  rw [captures?_seq_cons, run, List.findSome?_map]
  rfl

/-- A character more in front of what a group takes. -/
theorem findSome?_map_taken (c : Char) (ways : List Match) :
    (ways.map fun way => { way with taken := c :: way.taken }).findSome?
        (Match.captures? patterns) =
      (ways.findSome? (Match.captures? patterns)).map (extendFirst c) := by
  rw [List.findSome?_map, List.map_findSome?]
  congr 1
  funext way
  simp only [Function.comp_apply, Match.captures?, Option.map_map]
  rfl

theorem captures?_group_fewest_nil (accepts : Char → Bool) :
    (seq (group (fewest accepts) :: patterns)).captures? [] =
      ((seq patterns).captures? []).map ([] :: ·) := by
  rw [captures?_group, run, leads, List.findSome?_singleton, Match.captures?_mk]

/-- A group of few characters takes none where the others match, and else one more. -/
theorem captures?_group_fewest_cons (accepts : Char → Bool) (c : Char) (text : Text) :
    (seq (group (fewest accepts) :: patterns)).captures? (c :: text) =
      (((seq patterns).captures? (c :: text)).map ([] :: ·)).or
        (if accepts c then
          ((seq (group (fewest accepts) :: patterns)).captures? text).map (extendFirst c)
        else none) := by
  rw [captures?_group, captures?_group, run, run, leads, List.findSome?_cons, Match.captures?_mk]
  rcases (seq patterns).captures? (c :: text) with _ | groups
  · split_ifs
    · exact findSome?_map_taken patterns c _
    · rfl
  · rfl

/-- A group that begins with a character of its own. -/
theorem captures?_group_one_cons (accepts : Char → Bool) (pattern : Pattern) (c : Char)
    (text : Text) :
    (seq (group (both (one accepts) pattern) :: patterns)).captures? (c :: text) =
      if accepts c then ((seq (group pattern :: patterns)).captures? text).map (extendFirst c)
      else none := by
  rw [captures?_group, captures?_group, run, run]
  split_ifs
  · rw [List.flatMap_singleton]
    exact findSome?_map_taken patterns c _
  · rfl

/-- A group for one character or none takes it where the others match behind it. -/
theorem captures?_group_optional_cons (accepts : Char → Bool) (c : Char) (text : Text) :
    (seq (group (optional (one accepts)) :: patterns)).captures? (c :: text) =
      (if accepts c then ((seq patterns).captures? text).map ([c] :: ·) else none).or
        (((seq patterns).captures? (c :: text)).map ([] :: ·)) := by
  rw [captures?_group, optional, run, List.findSome?_append, run, run, List.findSome?_singleton,
    Match.captures?_mk]
  split_ifs
  · rw [List.findSome?_singleton, Match.captures?_mk]
  · rfl

variable {patterns}

theorem onLine_eq_true {c : Char} (h : '\n' ≠ c) : onLine c = true := by
  simpa [onLine] using h.symm

/-- What is left of a text is taken whole. -/
theorem captures?_rest {text : Text} (h : '\n' ∉ text) :
    (seq [group (fewest onLine), stop]).captures? text = some [text] := by
  induction text with
  | nil => rfl
  | cons c text ih =>
    rw [List.mem_cons, not_or] at h
    rw [captures?_group_fewest_cons, captures?_stop, if_neg (List.cons_ne_nil c text),
      if_pos (onLine_eq_true h.1), ih h.2]
    rfl

/-- A phrase behind a group of few characters divides the text where it is met first, if what
follows matches there. -/
theorem captures?_divided {words : Text} {value : Text → List Text} {text : Text} (h : '\n' ∉ text)
    (hrest : ∀ before rest after, text = before ++ rest → afterPhrase? words rest = some after →
      (seq patterns).captures? after = some (value after)) :
    (seq (group (fewest onLine) :: phrase words :: patterns)).captures? text =
      (splitAtPhrase? words text).map fun (before, after) => before :: value after := by
  induction text with
  | nil =>
    rw [captures?_group_fewest_nil, captures?_phrase, splitAtPhrase?]
    rcases hafter : afterPhrase? words [] with _ | after
    · rfl
    · rw [Option.bind_some, hrest [] [] after rfl hafter]
      rfl
  | cons c text ih =>
    rw [List.mem_cons, not_or] at h
    rw [captures?_group_fewest_cons, captures?_phrase, splitAtPhrase?,
      if_pos (onLine_eq_true h.1)]
    rcases hafter : afterPhrase? words (c :: text) with _ | after
    · have htext := ih h.2 fun before rest after htext =>
        hrest (c :: before) rest after (congrArg (c :: ·) htext)
      rw [htext, Option.bind_none, Option.map_none, Option.none_or, Option.map_map, Option.map_map]
      rfl
    · rw [Option.bind_some, hrest [] (c :: text) after rfl hafter]
      rfl

/-- The longest lead is tried first, and all others leave a character of the class. -/
theorem exists_reverse_leads (accepts : Char → Bool) (text : Text) :
    ∃ others, (leads accepts text).reverse =
        ⟨text.takeWhile accepts, [], text.dropWhile accepts⟩ :: others ∧
      ∀ way ∈ others, ∃ c rest, way.rest = c :: rest ∧ accepts c := by
  induction text with
  | nil => exact ⟨[], rfl, List.forall_mem_nil _⟩
  | cons c text ih =>
    obtain ⟨others, hleads, hothers⟩ := ih
    rw [leads]
    by_cases hc : accepts c
    · refine ⟨(others.map fun way => { way with taken := c :: way.taken }) ++
        [⟨[], [], c :: text⟩], ?_, ?_⟩
      · rw [if_pos hc, List.reverse_cons, ← List.map_reverse, hleads,
          List.takeWhile_cons_of_pos hc, List.dropWhile_cons_of_pos hc]
        rfl
      · intro way hway
        rcases List.mem_append.mp hway with hway | hway
        · obtain ⟨other, hother, rfl⟩ := List.mem_map.mp hway
          exact @hothers other hother
        · rw [List.mem_singleton.mp hway]
          exact ⟨c, text, rfl, hc⟩
    · rw [if_neg hc, List.takeWhile_cons_of_neg hc, List.dropWhile_cons_of_neg hc]
      exact ⟨[], rfl, List.forall_mem_nil _⟩

/-- A group of many characters takes all that it can, where nothing matches at fewer. -/
theorem captures?_group_most {accepts : Char → Bool} {text : Text}
    (h : ((seq patterns).captures? (text.dropWhile accepts)).isSome ∨
      ∀ c rest, accepts c → (seq patterns).captures? (c :: rest) = none) :
    (seq (group (most accepts) :: patterns)).captures? text =
      ((seq patterns).captures? (text.dropWhile accepts)).map (text.takeWhile accepts :: ·) := by
  obtain ⟨others, hleads, hothers⟩ := exists_reverse_leads accepts text
  rw [captures?_group, run, hleads, List.findSome?_cons, Match.captures?_mk]
  rcases hrest : (seq patterns).captures? (text.dropWhile accepts) with _ | groups
  · rw [hrest] at h
    refine List.findSome?_eq_none_iff.mpr fun way hway => ?_
    obtain ⟨c, rest, hrest, hc⟩ := hothers way hway
    rw [Match.captures?, hrest, h.resolve_left Bool.false_ne_true c rest hc, Option.map_none]
  · rfl

/-- The same for a group that takes one character at least. -/
theorem captures?_group_one_most {accepts : Char → Bool} {text : Text}
    (h : ((seq patterns).captures? (text.dropWhile accepts)).isSome ∨
      ∀ c rest, accepts c → (seq patterns).captures? (c :: rest) = none) :
    (seq (group (both (one accepts) (most accepts)) :: patterns)).captures? text =
      if text.takeWhile accepts = [] then none
      else ((seq patterns).captures? (text.dropWhile accepts)).map
        (text.takeWhile accepts :: ·) := by
  cases text with
  | nil => rfl
  | cons c text =>
    rw [captures?_group_one_cons]
    by_cases hc : accepts c
    · rw [List.dropWhile_cons_of_pos hc] at h ⊢
      rw [if_pos hc, List.takeWhile_cons_of_pos hc, if_neg (List.cons_ne_nil c _),
        captures?_group_most h, Option.map_map]
      rfl
    · rw [if_neg hc, List.takeWhile_cons_of_neg hc, if_pos rfl]

/-! ### The first place of a match -/

theorem exists_of_find?_eq_some {pattern : Pattern} {text before : Text} {way : Match}
    (h : pattern.find? text = some (before, way)) :
    ∃ back, text = before ++ back ∧ way ∈ pattern.run back := by
  induction text generalizing before with
  | nil =>
    rw [find?, Option.map_eq_some_iff] at h
    obtain ⟨first, hfirst, heq⟩ := h
    cases heq
    exact ⟨[], rfl, List.mem_of_mem_head? hfirst⟩
  | cons c text ih =>
    rw [find?] at h
    split at h
    · next first hfirst =>
      cases h
      exact ⟨c :: text, rfl, List.mem_of_mem_head? hfirst⟩
    · obtain ⟨⟨front, later⟩, hlater, heq⟩ := Option.map_eq_some_iff.mp h
      cases heq
      obtain ⟨back, rfl, hback⟩ := ih hlater
      exact ⟨back, rfl, hback⟩

theorem run_exactly (words text : Text) :
    (exactly words).run text =
      if words <+: text then [⟨words, [], text.drop words.length⟩] else [] := by
  rw [exactly]
  induction words generalizing text with
  | nil => rw [if_pos List.nil_prefix]; rfl
  | cons p words ih =>
    cases text with
    | nil => rfl
    | cons c text =>
      by_cases hc : c = p
      · subst hc
        simp only [List.map_cons, seq, run, decide_true, if_true, List.flatMap_cons,
          List.flatMap_nil, List.append_nil, ih, List.cons_prefix_cons, true_and]
        split_ifs <;> rfl
      · simp only [List.map_cons, seq, run, hc, decide_false, Bool.false_eq_true, if_false,
          List.flatMap_nil, List.cons_prefix_cons, Ne.symm hc, false_and]

end Pattern

end CampaignScript
