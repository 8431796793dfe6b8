import CampaignScript.Campaign.Patterns
import CampaignScript.Outline.Line
import CampaignScript.Proofs.Text.Pattern
import CampaignScript.Proofs.Text.Separators
import CampaignScript.Proofs.Time.Clock
import CampaignScript.Proofs.Time.WaitTime

/-! The readers of sentences and of values read what the patterns match. The text of a line has no
white space at its end, so a pattern that asks for a character behind a space finds one. Of the two
endings of an email neither can be taken for the other, so the shortest template is the one in front
of the ending that is there. -/
namespace CampaignScript

open Text Pattern

namespace Text

theorem notMem_of_afterPhrase? {phrase text rest : Text} (h : afterPhrase? phrase text = some rest)
    {c : Char} (hc : c ∉ text) : c ∉ rest := by
  obtain ⟨opening, rfl, -⟩ := afterPhrase?_eq_some_iff.mp h
  exact fun hmem => hc (List.mem_append_right opening hmem)

/-- A phrase that ends with a space is not at the end of a text without white space there. -/
theorem ne_nil_of_afterPhrase? {phrase front text rest : Text} (hlast : phrase.getLast? = some ' ')
    (htrim : (front ++ text).trimEnd = front ++ text) (h : afterPhrase? phrase text = some rest) :
    rest ≠ [] := by
  rintro rfl
  obtain ⟨opening, rfl, rfl⟩ := afterPhrase?_eq_some_iff.mp h
  rw [List.append_nil] at htrim
  rw [List.getLast?_map, Option.map_eq_some_iff] at hlast
  obtain ⟨c, hc, hspace⟩ := hlast
  obtain rfl := foldCase_eq_space_iff.mp hspace
  have hshows := trimEnd_eq_self_iff.mp htrim ' ' (by rw [List.getLast?_append, hc]; rfl)
  exact absurd hshows (by decide)

theorem beforePhrase?_nil (phrase : Text) : beforePhrase? phrase [] = afterPhrase? phrase [] := by
  cases phrase with
  | nil => rfl
  | cons p phrase =>
    rw [afterPhrase?, Option.eq_none_iff_forall_ne_some]
    intro before hbefore
    obtain ⟨closing, htext, hclosing⟩ := beforePhrase?_eq_some_iff.mp hbefore
    rw [(List.append_eq_nil_iff.mp htext.symm).2] at hclosing
    contradiction

/-- Phrases with different last letters do not both end a text. -/
theorem beforePhrase?_eq_none {phrase other text before : Text} (hne : phrase ≠ [])
    (hlast : phrase.getLast? ≠ other.getLast?) (hother : other ≠ [])
    (h : beforePhrase? other text = some before) : beforePhrase? phrase text = none := by
  have hend {phrase before : Text} (hne : phrase ≠ [])
      (h : beforePhrase? phrase text = some before) :
      (text.map foldCase).getLast? = phrase.getLast? := by
    obtain ⟨closing, rfl, rfl⟩ := beforePhrase?_eq_some_iff.mp h
    rw [List.map_append, List.getLast?_append_of_ne_nil _ hne]
  rw [Option.eq_none_iff_forall_ne_some]
  intro front hfront
  exact hlast ((hend hne hfront).symm.trans (hend hother h))

end Text

namespace Pattern

/-- A sentence that is told by its opening words. -/
theorem captures?_opening {words text : Text} (h : '\n' ∉ text) :
    (seq [phrase words, group (fewest onLine), stop]).captures? text =
      (afterPhrase? words text).map fun rest => [rest] := by
  rw [captures?_phrase]
  rcases hrest : afterPhrase? words text with _ | rest
  · rfl
  · exact captures?_rest (notMem_of_afterPhrase? hrest h)

/-- A sentence with words inside it too, which are met first where it is divided. -/
theorem captures?_opening_divided {opening words text : Text} (h : '\n' ∉ text) :
    (seq [phrase opening, group (fewest onLine), phrase words, group (fewest onLine),
        stop]).captures? text =
      (afterPhrase? opening text).bind fun rest =>
        (splitAtPhrase? words rest).map fun (before, after) => [before, after] := by
  rw [captures?_phrase]
  rcases hrest : afterPhrase? opening text with _ | rest
  · rfl
  · have hfeed := notMem_of_afterPhrase? hrest h
    refine captures?_divided hfeed fun before back after hback hafter => captures?_rest ?_
    refine notMem_of_afterPhrase? hafter fun hmem => hfeed ?_
    rw [hback]
    exact List.mem_append_right before hmem

theorem captures?_rest_of_ne_nil {text : Text} (h : '\n' ∉ text) (hne : text ≠ []) :
    (seq [group (both (one onLine) (fewest onLine)), stop]).captures? text = some [text] := by
  obtain ⟨c, text, rfl⟩ := List.exists_cons_of_ne_nil hne
  rw [List.mem_cons, not_or] at h
  rw [captures?_group_one_cons, if_pos (onLine_eq_true h.1), captures?_rest h.2]
  rfl

theorem captures?_ending {words more : Text} (text : Text) :
    (seq [phrase words, optional (phrase more), stop]).captures? text =
      if afterPhrase? words text = some [] ∨ afterPhrase? (words ++ more) text = some []
      then some [] else none := by
  rw [captures?_phrase, afterPhrase?_append_phrase]
  rcases afterPhrase? words text with _ | rest
  · rfl
  · rw [Option.bind_some, Option.bind_some, captures?_optional, captures?_phrase, captures?_stop]
    rcases afterPhrase? more rest with _ | back
    · simp
    · rw [Option.bind_some, captures?_stop]
      by_cases hrest : rest = [] <;> by_cases hback : back = [] <;> simp [hrest, hback]

/-- A group of few characters in front of an ending, which may have more words to it. -/
theorem captures?_closed {words more : Text} (hne : words ≠ [])
    (hlast : words.getLast? ≠ (words ++ more).getLast?) {text : Text} (h : '\n' ∉ text) :
    (seq [group (fewest onLine), phrase words, optional (phrase more), stop]).captures? text =
      ((beforePhrase? words text).or (beforePhrase? (words ++ more) text)).map
        fun front => [front] := by
  induction text with
  | nil =>
    have hnil {phrase : Text} (hphrase : phrase ≠ []) : afterPhrase? phrase [] = none := by
      obtain ⟨p, phrase, rfl⟩ := List.exists_cons_of_ne_nil hphrase
      rfl
    rw [captures?_group_fewest_nil, captures?_ending, beforePhrase?_nil, beforePhrase?_nil,
      hnil hne, hnil (List.append_ne_nil_of_left_ne_nil hne more)]
    rfl
  | cons c text ih =>
    rw [List.mem_cons, not_or] at h
    have hshort := beforePhrase?_cons words c text
    have hlong := beforePhrase?_cons (words ++ more) c text
    rw [captures?_group_fewest_cons, captures?_ending, if_pos (onLine_eq_true h.1), ih h.2]
    by_cases hwords : afterPhrase? words (c :: text) = some []
    · rw [if_pos hwords] at hshort
      rw [if_pos (.inl hwords), hshort]
      rfl
    · rw [if_neg hwords] at hshort
      by_cases hmore : afterPhrase? (words ++ more) (c :: text) = some []
      · rw [if_pos hmore] at hlong
        rw [if_pos (.inr hmore), hlong,
          beforePhrase?_eq_none hne hlast (List.append_ne_nil_of_left_ne_nil hne more) hlong]
        rfl
      · rw [if_neg hmore] at hlong
        rw [if_neg (not_or.mpr ⟨hwords, hmore⟩), hshort, hlong, Option.map_none, Option.none_or,
          Option.map_map, ← Option.map_or, Option.map_map]
        rfl

section first?
variable {α : Type} {table : List (List Pattern × (List Text → α))}

theorem first?_cons (patterns : List Pattern) (make : List Text → α) (text : Text) :
    first? ((patterns, make) :: table) text =
      (((seq patterns).captures? text).map make).or (first? table text) := by
  rw [first?, List.findSome?_cons]
  dsimp only
  rcases (seq patterns).captures? text with _ | groups <;> rfl

theorem first?_eq_none {c : Char}
    (h : ∀ entry ∈ table, entry.1.getLast? = some stop ∧ (seq entry.1).Refuses c) {text : Text}
    (hc : c ∈ text) : first? table text = none := by
  rw [first?, List.findSome?_eq_none_iff]
  intro entry hentry
  obtain ⟨hlast, hrefuses⟩ := h entry hentry
  exact Option.map_eq_none_iff.mpr (captures?_eq_none hlast hrefuses hc)

/-- The readers of three kinds, one after the other. -/
theorem orElse_eq_or (first second third : Option α) :
    (first <|> second <|> third) = first.or (second.or (third.or none)) := by
  cases first <;> cases second <;> cases third <;> rfl

end first?

end Pattern

namespace TriggerSentence
variable {text : Text}

theorem event?_eq_captures? (h : '\n' ∉ text) :
    event? text =
      ((seq eventPattern).captures? text).map fun groups => event (groupAt groups 0) := by
  rw [event?, eventPattern, captures?_opening h, Option.map_map]
  rfl

theorem recurring?_eq_captures? (h : '\n' ∉ text) :
    recurring? text = ((seq recurringPattern).captures? text).map fun groups =>
      recurring (groupAt groups 0) (groupAt groups 1) := by
  rw [recurring?, recurringPattern, captures?_opening_divided h]
  rcases afterPhrase? "every ".toList text with _ | schedule
  · rfl
  · rw [Option.bind_eq_bind, Option.bind_some, Option.bind_some]
    rcases splitAtPhrase? " at ".toList schedule <;> rfl

theorem oneOff?_eq_captures? (h : '\n' ∉ text) (htrim : text.trimEnd = text) :
    oneOff? text = ((seq oneOffPattern).captures? text).map fun groups =>
      oneOff (groupAt groups 0) (groupAt groups 1) := by
  rw [oneOff?, oneOffPattern, captures?_phrase]
  rcases hrest : afterPhrase? "on ".toList text with _ | (_ | ⟨first, moment⟩)
  · rfl
  · rfl
  · have hfeed := notMem_of_afterPhrase? hrest h
    rw [List.mem_cons, not_or] at hfeed
    obtain ⟨opening, rfl, -⟩ := afterPhrase?_eq_some_iff.mp hrest
    -- The text ends with no space, so something stands behind the words that divide it.
    have hmoment : ∀ before back after, moment = before ++ back →
        afterPhrase? " at ".toList back = some after →
        (seq [group (both (one onLine) (fewest onLine)), stop]).captures? after = some [after] := by
      rintro before back after rfl hafter
      have hsplit : opening ++ first :: (before ++ back) =
          (opening ++ first :: before) ++ back := by simp
      rw [hsplit] at htrim
      refine captures?_rest_of_ne_nil ?_ (ne_nil_of_afterPhrase? rfl htrim hafter)
      exact notMem_of_afterPhrase? hafter fun hmem =>
        hfeed.2 (List.mem_append_right before hmem)
    rw [Option.bind_some, captures?_group_one_cons, if_pos (onLine_eq_true hfeed.1),
      captures?_divided hfeed.2 hmoment]
    dsimp only
    rcases splitAtPhrase? " at ".toList moment <;> rfl

/-- A sentence with white space taken from its end is read as the patterns match it. -/
theorem ofText?_eq_first? (htrim : text.trimEnd = text) : ofText? text = first? patterns text := by
  rw [ofText?]
  split_ifs with hfeed
  · refine (first?_eq_none ?_ hfeed).symm
    simp only [patterns, List.forall_mem_cons]
    exact ⟨⟨rfl, by decide⟩, ⟨rfl, by decide⟩, ⟨rfl, by decide⟩, List.forall_mem_nil _⟩
  · rw [patterns, first?_cons, first?_cons, first?_cons, ← event?_eq_captures? hfeed,
      ← recurring?_eq_captures? hfeed, ← oneOff?_eq_captures? hfeed htrim]
    exact orElse_eq_or _ _ _

theorem ofText?_text_eq_first? (line : Line) : ofText? line.text = first? patterns line.text :=
  ofText?_eq_first? (trimEnd_trim line.raw)

end TriggerSentence

namespace StepSentence
variable {text : Text}

theorem email?_eq_captures? (h : '\n' ∉ text) :
    email? text =
      ((seq emailPattern).captures? text).map fun groups => email (groupAt groups 0) := by
  rw [email?, emailPattern, captures?_phrase]
  rcases hrest : afterPhrase? "send the ".toList text with _ | rest
  · rfl
  · rw [Option.bind_eq_bind, Option.bind_some, Option.bind_some,
      captures?_closed (by decide) (by decide) (notMem_of_afterPhrase? hrest h)]
    show ((_ <|> beforePhrase? " email with custom fields".toList rest).bind _) =
      Option.map _ (Option.map _ (Option.or _
        (beforePhrase? " email with custom fields".toList rest)))
    rcases beforePhrase? " email".toList rest with _ | template
    · rcases beforePhrase? " email with custom fields".toList rest <;> rfl
    · rfl

theorem condition?_eq_captures? (h : '\n' ∉ text) :
    condition? text =
      ((seq conditionPattern).captures? text).map fun groups => condition (groupAt groups 0) := by
  rw [condition?, conditionPattern, captures?_opening h, Option.map_map]
  rfl

theorem wait?_eq_captures? (h : '\n' ∉ text) :
    wait? text = ((seq waitPattern).captures? text).map fun groups =>
      wait (groupAt groups 0) (groupAt groups 1) := by
  rw [wait?, waitPattern, captures?_opening_divided h]
  rcases afterPhrase? "wait for ".toList text with _ | duration
  · rfl
  · rw [Option.bind_eq_bind, Option.bind_some, Option.bind_some, splitAtPhrase?_space]
    rcases splitAtChar? ' ' duration <;> rfl

/-- A sentence is read as the patterns match it. -/
theorem ofText?_eq_first? (text : Text) : ofText? text = first? patterns text := by
  rw [ofText?]
  split_ifs with hfeed
  · refine (first?_eq_none ?_ hfeed).symm
    simp only [patterns, List.forall_mem_cons]
    exact ⟨⟨rfl, by decide⟩, ⟨rfl, by decide⟩, ⟨rfl, by decide⟩, List.forall_mem_nil _⟩
  · rw [patterns, first?_cons, first?_cons, first?_cons, ← email?_eq_captures? hfeed,
      ← condition?_eq_captures? hfeed, ← wait?_eq_captures? hfeed]
    exact orElse_eq_or _ _ _

end StepSentence

namespace WaitTime

theorem captures?_digits (text : Text) :
    (seq [digits]).captures? text =
      if text.takeWhile Char.isDigit = [] then none else some [text.takeWhile Char.isDigit] :=
  captures?_group_one_most (.inl rfl)

theorem amountByPattern?_eq {text sign number : Text}
    (h : amountPattern.captures? text = ((seq [digits]).captures? number).map (sign :: ·)) :
    amountByPattern? text =
      (leadingNumber? number).bind fun n => if sign = ['-'] ∧ n ≠ 0 then none else some n := by
  rw [amountByPattern?, h, captures?_digits, leadingNumber?]
  by_cases hnone : number.takeWhile Char.isDigit = []
  · rw [if_pos hnone, hnone]
    rfl
  · rw [if_neg hnone]
    rfl

/-- An amount is read as its pattern matches it. -/
theorem amount?_eq_amountByPattern? (text : Text) : amount? text = amountByPattern? text := by
  cases text with
  | nil => rfl
  | cons c text =>
    have hsign := captures?_group_optional_cons [digits] (fun c => c = '+' || c = '-') c text
    by_cases hplus : c = '+'
    · subst hplus
      have hrest : (seq [digits]).captures? ('+' :: text) = none := captures?_digits _
      rw [hrest, Option.map_none, Option.or_none] at hsign
      rw [amountByPattern?_eq hsign, amount?]
      rcases leadingNumber? text <;> rfl
    · by_cases hminus : c = '-'
      · subst hminus
        have hrest : (seq [digits]).captures? ('-' :: text) = none := captures?_digits _
        rw [hrest, Option.map_none, Option.or_none] at hsign
        rw [amountByPattern?_eq hsign, amount?]
        rcases leadingNumber? text with _ | n
        · rfl
        · by_cases hzero : n = 0 <;> simp [hzero]
      · have hother : (decide (c = '+') || decide (c = '-')) = false := by simp [hplus, hminus]
        rw [hother, if_neg Bool.false_ne_true, Option.none_or] at hsign
        rw [amountByPattern?_eq hsign, amount?]
        · simp
        · simp [hminus]
        · simp [hplus]

end WaitTime

namespace TimeOfDay

/-- Whether a number fits a byte does not matter where greater ones are refused anyway. -/
theorem byte?_bind {α : Type} {read : Nat → Option α} (h : ∀ n, 256 ≤ n → read n = none)
    (text : Text) : (byte? text).bind read = (number? text).bind read := by
  rw [byte?]
  rcases number? text with _ | n
  · rfl
  · by_cases hn : n < 256
    · simp [Option.filter_some, hn]
    · simp [Option.filter_some, hn, h n (Nat.le_of_not_lt hn)]

theorem faceOfParts?_singleton (hourText : Text) :
    faceOfParts? [hourText] =
      (number? hourText).bind fun hour => if hour ≤ 12 then some (hour, 0) else none := by
  rw [faceOfParts?, Option.bind_eq_bind, byte?_bind fun n hn => if_pos (by omega)]
  congr 1
  funext hour
  split_ifs <;> first | rfl | omega

theorem faceOfParts?_pair (hourText minuteText : Text) :
    faceOfParts? [hourText, minuteText] =
      (number? hourText).bind fun hour => (number? minuteText).bind fun minute =>
        if hour ≤ 12 ∧ minute ≤ 59 then some (hour, minute) else none := by
  rw [faceOfParts?, Option.bind_eq_bind, byte?_bind]
  · congr 1
    funext hour
    rw [byte?_bind fun n hn => if_pos (by omega)]
    congr 1
    funext minute
    split_ifs <;> first | rfl | omega
  · intro n hn
    rcases byte? minuteText with _ | minute
    · rfl
    · exact if_pos (.inl (by omega))

/-- The parts between points are those of a face, where there are not too many. -/
theorem faceOfParts?_splitOn (text : Text) : faceOfParts? (text.splitOn '.') = clockFace? text := by
  have hsplit {text : Text} (hpoint : '.' ∈ text) :
      ∃ before after, text = before ++ '.' :: after ∧ '.' ∉ before :=
    List.eq_append_cons_of_mem hpoint
  by_cases hpoint : '.' ∈ text
  · obtain ⟨hourText, minuteText, rfl, hhour⟩ := hsplit hpoint
    rw [clockFace?, splitAtChar?_eq_some_iff.mpr ⟨rfl, hhour⟩,
      List.splitOn_append_cons_self_of_not_mem hhour]
    by_cases hmore : '.' ∈ minuteText
    · have hnone : number? minuteText = none := by
        rw [Option.eq_none_iff_forall_ne_some]
        exact fun n hn => (number?_eq_some_iff.mp hn).notMem rfl hmore
      obtain ⟨before, after, rfl, hbefore⟩ := hsplit hmore
      obtain ⟨third, parts, hparts⟩ := List.exists_cons_of_ne_nil (List.splitOn_ne_nil '.' after)
      rw [List.splitOn_append_cons_self_of_not_mem hbefore, hparts]
      dsimp only
      rw [hnone]
      rcases number? hourText <;> rfl
    · rw [List.splitOn_eq_singleton hmore, faceOfParts?_pair]
      rfl
  · rw [clockFace?, splitAtChar?_of_notMem hpoint, List.splitOn_eq_singleton hpoint,
      faceOfParts?_singleton]
    rfl

theorem isFigure_eq_false {c : Char} (h : c.toLower = 'a' ∨ c.toLower = 'p') :
    isFigure c = false := by
  have hletter : 97 ≤ c.toLower.toNat := by
    rcases h with h | h <;> rw [h] <;> decide
  have hlow : 58 ≤ c.toNat := by
    rw [toNat_toLower] at hletter
    split_ifs at hletter <;> omega
  rw [isFigure, Bool.or_eq_false_iff, decide_eq_false_iff_not]
  constructor
  · rw [← Bool.not_eq_true]
    intro hdigit
    simp only [Char.isDigit, Bool.and_eq_true, decide_eq_true_eq] at hdigit
    have hhigh : c.toNat ≤ 57 := hdigit.2
    omega
  · rintro rfl
    exact absurd hlow (by decide)

/-- A phrase that has to be the whole of what is left. -/
theorem findSome?_phrase (words text : Text) :
    ((phrase words).run text).findSome? (Match.captures? [stop]) =
      if text.map foldCase = words then some [text] else none := by
  rw [run_phrase]
  rcases hrest : afterPhrase? words text with _ | rest
  · rw [if_neg]
    · rfl
    · rintro rfl
      rw [afterPhrase?_eq_some_iff.mpr ⟨text, (List.append_nil _).symm, rfl⟩] at hrest
      contradiction
  · obtain ⟨opening, rfl, rfl⟩ := afterPhrase?_eq_some_iff.mp hrest
    rw [Option.toList_some, List.map_singleton, List.findSome?_singleton, Match.captures?_mk,
      captures?_stop]
    by_cases hnil : rest = []
    · subst hnil
      simp
    · rw [if_neg hnil, if_neg]
      · rfl
      · intro hmap
        have hlength := congrArg List.length hmap
        rw [List.length_map, List.length_map, List.length_append] at hlength
        exact hnil (List.length_eq_zero_iff.mp (by omega))

/-- The two letters for the half of the day, and nothing behind them. -/
theorem captures?_half (text : Text) :
    (seq [group (either (phrase "am".toList) (phrase "pm".toList)), stop]).captures? text =
      if text.map Char.toLower = "am".toList ∨ text.map Char.toLower = "pm".toList
      then some [text] else none := by
  have ham : text.map foldCase = "am".toList ↔ text.map Char.toLower = "am".toList :=
    (map_foldCase_eq_iff (by decide)).trans (isWritten_iff_map_toLower (by decide))
  have hpm : text.map foldCase = "pm".toList ↔ text.map Char.toLower = "pm".toList :=
    (map_foldCase_eq_iff (by decide)).trans (isWritten_iff_map_toLower (by decide))
  rw [captures?_group, run, List.findSome?_append, findSome?_phrase, findSome?_phrase]
  simp only [ham, hpm]
  split_ifs <;> simp_all

theorem captures?_pattern (text : Text) :
    pattern.captures? text =
      if text.takeWhile isFigure = [] then none
      else if (text.dropWhile isFigure).map Char.toLower = "am".toList ∨
          (text.dropWhile isFigure).map Char.toLower = "pm".toList
        then some [text.takeWhile isFigure, text.dropWhile isFigure]
      else none := by
  rw [pattern, captures?_group_one_most, captures?_half]
  · split_ifs <;> rfl
  · refine .inr fun c rest hc => ?_
    rw [captures?_half, if_neg]
    rintro (h | h)
    · rw [isFigure_eq_false (.inl (List.cons.inj h).1)] at hc
      contradiction
    · rw [isFigure_eq_false (.inr (List.cons.inj h).1)] at hc
      contradiction

/-- The figures of a face and the letters behind it are told apart. -/
theorem captures?_append {face half : Text} (hne : face ≠ []) (hface : ∀ c ∈ face, isFigure c)
    (hhalf : half.map Char.toLower = "am".toList ∨ half.map Char.toLower = "pm".toList) :
    pattern.captures? (face ++ half) = some [face, half] := by
  obtain ⟨c, rest, rfl⟩ : ∃ c rest, half = c :: rest := by
    cases half with
    | nil => exact absurd hhalf (by decide)
    | cons c rest => exact ⟨c, rest, rfl⟩
  have hc : ¬ isFigure c = true := by
    rw [isFigure_eq_false (hhalf.imp (fun h => (List.cons.inj h).1) fun h => (List.cons.inj h).1)]
    exact Bool.false_ne_true
  rw [captures?_pattern, List.takeWhile_append_of_pos hface, List.dropWhile_append_of_pos hface,
    List.takeWhile_cons_of_neg hc, List.dropWhile_cons_of_neg hc, List.append_nil, if_neg hne,
    if_pos hhalf]

theorem IsFace.figures {face : Text} {hour minute : Nat} (h : IsFace face hour minute) :
    face ≠ [] ∧ ∀ c ∈ face, isFigure c := by
  have hdigits {digits : Text} {n : Nat} (h : IsNumeral digits n) : ∀ c ∈ digits, isFigure c := by
    intro c hc
    rw [isFigure, h.2.1 c hc, Bool.true_or]
  rcases h.1 with ⟨hhour, -⟩ | ⟨hourText, minuteText, rfl, hhour, hminute⟩
  · exact ⟨hhour.1, hdigits hhour⟩
  · refine ⟨by simp, List.forall_mem_append.mpr ⟨hdigits hhour, ?_⟩⟩
    exact List.forall_mem_cons.mpr ⟨rfl, hdigits hminute⟩

/-- A time of day is read as its pattern matches it. -/
theorem ofText?_eq_byPattern? (text : Text) : ofText? text = byPattern? text := by
  apply Option.ext
  intro time
  rw [ofText?_eq_some_iff]
  constructor
  · rintro ⟨face, half, hour, rfl, hface, hhalf⟩
    obtain ⟨hne, hfigures⟩ := hface.figures
    rw [byPattern?, captures?_append hne hfigures (hhalf.imp And.left And.left)]
    show ((faceOfParts? (face.splitOn '.')).bind fun face =>
      if half.map Char.toLower = "am".toList then some (beforeNoon face)
      else if half.map Char.toLower = "pm".toList then some (afterNoon face)
      else none) = some time
    rw [faceOfParts?_splitOn, clockFace?_eq_some_iff.mpr hface, Option.bind_some]
    rcases hhalf with ⟨ham, hhour⟩ | ⟨hpm, hhour⟩
    · rw [if_pos ham, beforeNoon, ← hhour]
    · rw [if_neg (by rw [hpm]; decide), if_pos hpm, afterNoon, ← hhour]
  · intro h
    simp only [byPattern?, bind, Option.bind_eq_some_iff, captures?_pattern] at h
    obtain ⟨groups, hgroups, ⟨hour, minute⟩, hface, htime⟩ := h
    split_ifs at hgroups with hnone hhalf
    cases hgroups
    rw [groupAt, List.getD_cons_zero, faceOfParts?_splitOn, clockFace?_eq_some_iff] at hface
    rw [groupAt, List.getD_cons_succ, List.getD_cons_zero] at htime
    refine ⟨text.takeWhile isFigure, text.dropWhile isFigure, hour,
      List.takeWhile_append_dropWhile.symm, ?_⟩
    split_ifs at htime with ham hpm <;> cases htime
    · exact ⟨hface, .inl ⟨ham, rfl⟩⟩
    · exact ⟨hface, .inr ⟨hpm, rfl⟩⟩

end TimeOfDay

namespace Enumeration

theorem run_separator (text : Text) :
    separator.run text =
      (if [','] <+: text then [⟨[','], [], text.drop 1⟩] else []) ++
        if conjunction <+: text then [⟨conjunction, [], text.drop 5⟩] else [] := by
  rw [separator, run, run_exactly, run_exactly]
  rfl

theorem taken_ne_nil_of_mem_run {text : Text} {way : Match} (h : way ∈ separator.run text) :
    way.taken ≠ [] := by
  rw [run_separator, List.mem_append] at h
  rcases h with h | h <;> split at h
  · rw [List.mem_singleton.mp h]
    exact List.cons_ne_nil _ _
  · exact absurd h List.not_mem_nil
  · rw [List.mem_singleton.mp h]
    exact List.cons_ne_nil _ _
  · exact absurd h List.not_mem_nil

/-- The first piece is what stands in front of the first separator. -/
theorem pieces_eq_find? (text : Text) :
    pieces text =
      match separator.find? text with
      | none => [text]
      | some (before, way) => before :: pieces way.rest := by
  fun_induction pieces text with
  | case1 => rfl
  | case2 rest ih =>
    have hcomma : [','] <+: ',' :: rest := List.prefix_append [','] rest
    rw [find?, run_separator, if_pos hcomma]
    rfl
  | case3 rest ih =>
    have hconjunction : conjunction <+: ' ' :: 'a' :: 'n' :: 'd' :: ' ' :: rest :=
      List.prefix_append conjunction rest
    rw [find?, run_separator, if_neg (by simp), if_pos hconjunction]
    rfl
  | case4 c rest hcomma hand ih =>
    have hconjunction : ¬ conjunction <+: c :: rest := by
      rintro ⟨back, hback⟩
      cases hback
      exact hand back rfl rfl
    have hcomma : ¬ [','] <+: c :: rest := by
      rintro ⟨back, hback⟩
      cases hback
      exact hcomma rfl
    rw [find?, run_separator, if_neg hcomma, if_neg hconjunction, ih]
    rcases separator.find? rest with _ | ⟨before, way⟩ <;> rfl

/-- The pieces of an enumeration are what its separators leave. -/
theorem pieces_eq_split (text : Text) : pieces text = separator.split text := by
  fun_induction Pattern.split separator text with
  | case1 text hnone => rw [pieces_eq_find?, hnone]
  | case2 text before way hfind hlt ih => rw [pieces_eq_find?, hfind, ← ih]
  | case3 text before way hfind hge =>
    obtain ⟨back, rfl, hway⟩ := exists_of_find?_eq_some hfind
    have htaken := List.length_pos_iff.mpr (taken_ne_nil_of_mem_run hway)
    rw [← taken_append_of_mem_run hway, List.length_append, List.length_append] at hge
    omega

end Enumeration

end CampaignScript
