import CampaignScript.Proofs.Text.LetterCase

/-! Texts whose ASCII capitals are made small. What is asked of a character in lower case, in white
space and in phrases has the same answer for a capital of ASCII and its small letter, so trimming,
taking apart and lower case go through the change. Of the final sigma, which looks at the letters
beside it, this needs that no ASCII letter is ignorable and that all have case. -/
namespace CampaignScript.Text

/-- What has the same value at each ASCII capital and its small letter does not tell letter case. -/
theorem apply_toLower {α : Type} {f : Char → α}
    (h : ∀ n < 26, f (Char.ofNat (97 + n)) = f (Char.ofNat (65 + n))) (c : Char) :
    f c.toLower = f c := by
  by_cases hc : 65 ≤ c.toNat ∧ c.toNat ≤ 90
  · obtain ⟨n, hn⟩ := Nat.exists_eq_add_of_le hc.1
    have hlt : n < 26 := by omega
    have hcapital : Char.ofNat (65 + n) = c := by
      apply Char.toNat_inj.mp
      rw [toNat_ofNat (Or.inl (by omega)), hn]
    have hsmall : Char.ofNat (97 + n) = c.toLower := by
      apply Char.toNat_inj.mp
      rw [toNat_ofNat (Or.inl (by omega)), toNat_toLower, if_pos hc]
      omega
    rw [← hsmall, ← hcapital]
    exact h n hlt
  · have hself : c.toLower = c := by
      apply Char.toNat_inj.mp
      rw [toNat_toLower, if_neg hc]
    rw [hself]

@[simp] theorem isSpace_toLower (c : Char) : isSpace c.toLower = isSpace c :=
  apply_toLower (by decide) c

@[simp] theorem isDigit_toLower (c : Char) : c.toLower.isDigit = c.isDigit :=
  apply_toLower (by decide) c

@[simp] theorem foldCase_toLower (c : Char) : foldCase c.toLower = foldCase c :=
  apply_toLower (by decide) c

@[simp] theorem lowerChar_toLower (c : Char) : lowerChar c.toLower = lowerChar c :=
  apply_toLower (by decide +kernel) c

@[simp] theorem ignorable_toLower (c : Char) :
    inRanges caseIgnorableRanges c.toLower = inRanges caseIgnorableRanges c :=
  apply_toLower (by decide +kernel) c

@[simp] theorem cased_toLower (c : Char) :
    inRanges casedRanges c.toLower = inRanges casedRanges c :=
  apply_toLower (by decide +kernel) c

/-- A character other than the ASCII letters comes from itself only. -/
theorem toLower_eq_iff {d : Char} (h : ∀ n < 26, Char.ofNat (97 + n) ≠ d ∧ Char.ofNat (65 + n) ≠ d)
    {c : Char} : c.toLower = d ↔ c = d := by
  have hsame := apply_toLower (f := fun c => decide (c = d))
    (fun n hn => by simp [h n hn]) c
  simpa using hsame

theorem toLower_of_isDigit {c : Char} (h : c.isDigit = true) : c.toLower = c := by
  apply Char.toNat_inj.mp
  rw [toNat_toLower, if_neg]
  rintro ⟨hlow, -⟩
  simp only [Char.isDigit, Bool.and_eq_true, decide_eq_true_eq] at h
  have hhigh : c.toNat ≤ 57 := h.2
  omega

section Map
variable (text : Text)

theorem dropWhile_map_toLower {p : Char → Bool} (h : ∀ c, p c.toLower = p c) :
    (text.map Char.toLower).dropWhile p = (text.dropWhile p).map Char.toLower := by
  rw [List.dropWhile_map]
  exact congrArg (fun q => (text.dropWhile q).map Char.toLower) (funext h)

theorem trim_map_toLower : Text.trim (text.map Char.toLower) = text.trim.map Char.toLower := by
  rw [trim, trimStart, dropWhile_map_toLower text isSpace_toLower, trimEnd, ← List.map_reverse,
    dropWhile_map_toLower _ isSpace_toLower, ← List.map_reverse]
  rfl

theorem afterPhrase?_map_toLower (phrase : Text) :
    afterPhrase? phrase (text.map Char.toLower) =
      (afterPhrase? phrase text).map (List.map Char.toLower) := by
  fun_induction afterPhrase? phrase text with
  | case1 => simp [afterPhrase?]
  | case2 => rfl
  | case3 phrase c text ih => simp [afterPhrase?, ih]
  | case4 p phrase c text hp => simp [afterPhrase?, hp]

theorem beforePhrase?_map_toLower (phrase : Text) :
    beforePhrase? phrase (text.map Char.toLower) =
      (beforePhrase? phrase text).map (List.map Char.toLower) := by
  rw [beforePhrase?, ← List.map_reverse, afterPhrase?_map_toLower, Option.map_map, beforePhrase?,
    Option.map_map]
  exact congrArg (Option.map · _) (funext fun rest => List.map_reverse.symm)

theorem splitAtSpace?_map_toLower :
    splitAtChar? ' ' (text.map Char.toLower) =
      (splitAtChar? ' ' text).map fun (before, after) =>
        (before.map Char.toLower, after.map Char.toLower) := by
  induction text with
  | nil => rfl
  | cons c text ih =>
    rw [List.map_cons, splitAtChar?, splitAtChar?, ih]
    by_cases hc : c = ' '
    · rw [if_pos hc, if_pos (toLower_eq_space_iff.mpr hc)]
      rfl
    · rw [if_neg hc, if_neg (mt toLower_eq_space_iff.mp hc), Option.map_map, Option.map_map]
      rfl

theorem meetsCased_map_toLower : meetsCased (text.map Char.toLower) = meetsCased text := by
  rw [meetsCased, meetsCased, dropWhile_map_toLower text ignorable_toLower]
  cases text.dropWhile (inRanges caseIgnorableRanges) with
  | nil => rfl
  | cons c rest => exact cased_toLower c

theorem lowerBetween_map_toLower (before after : Text) (c : Char) :
    lowerBetween (before.map Char.toLower) c.toLower (after.map Char.toLower) =
      lowerBetween before c after := by
  have hsigma : c.toLower = 'Σ' ↔ c = 'Σ' := toLower_eq_iff (by decide)
  have hdotted : c.toLower = 'İ' ↔ c = 'İ' := toLower_eq_iff (by decide)
  rw [lowerBetween, lowerBetween, if_congr hsigma rfl rfl, if_congr hdotted rfl rfl,
    meetsCased_map_toLower, meetsCased_map_toLower, lowerChar_toLower]

theorem lowercase_go_map_toLower (before : Text) :
    lowercase.go (before.map Char.toLower) (text.map Char.toLower) =
      lowercase.go before text := by
  induction text generalizing before with
  | nil => rfl
  | cons c text ih =>
    have hrest := ih (c :: before)
    rw [List.map_cons] at hrest
    rw [List.map_cons, lowercase.go, lowercase.go, lowerBetween_map_toLower, hrest]

/-- Lower case takes no notice of ASCII capitals, not even beside a sigma. -/
theorem lowercase_map_toLower : Text.lowercase (text.map Char.toLower) = text.lowercase :=
  lowercase_go_map_toLower text []

end Map

end CampaignScript.Text
