import CampaignScript.Proofs.Text.Numeral
import CampaignScript.Proofs.Text.Wording
import CampaignScript.Time.TimeOfDay

/-! Which texts tell a time of day, and which time that is. The numbers of a time may be written
with any many zeros in front. They are small enough for bytes and for one word of two bytes, and
that word tells times apart. -/
namespace CampaignScript

open Text

namespace TimeOfDay

/-- Whether a text is an hour up to 12, alone or with a point and a minute up to 59 behind it. An
hour alone is a full hour. -/
def IsFace (text : Text) (hour minute : Nat) : Prop :=
  (IsNumeral text hour ∧ minute = 0 ∨ ∃ hourText minuteText, text = hourText ++ '.' :: minuteText ∧
    IsNumeral hourText hour ∧ IsNumeral minuteText minute) ∧ hour ≤ 12 ∧ minute ≤ 59

/-- Whether a text tells a time: the face of a clock with the half of the day behind it, in either
letter case. The hour 12 before noon is midnight. -/
def Tells (text : Text) (time : TimeOfDay) : Prop :=
  ∃ face half hour, text = face ++ half ∧ IsFace face hour time.minute ∧
    (half.map Char.toLower = "am".toList ∧ time.hour = (if hour = 12 then 0 else hour) ∨
      half.map Char.toLower = "pm".toList ∧ time.hour = hour + 12)

theorem clockFace?_eq_some_iff {text : Text} {hour minute : Nat} :
    clockFace? text = some (hour, minute) ↔ IsFace text hour minute := by
  rw [clockFace?]
  constructor
  · intro h
    split at h
    · simp only [bind, Option.bind_eq_some_iff, number?_eq_some_iff] at h
      obtain ⟨_, hhour, h⟩ := h
      split_ifs at h with hle
      cases h
      exact ⟨.inl ⟨hhour, rfl⟩, hle, Nat.zero_le 59⟩
    · next hourText minuteText hsplit =>
      simp only [bind, Option.bind_eq_some_iff, number?_eq_some_iff] at h
      obtain ⟨_, hhour, _, hminute, h⟩ := h
      split_ifs at h with hle
      cases h
      exact ⟨.inr ⟨hourText, minuteText, (splitAtChar?_eq_some_iff.mp hsplit).1, hhour, hminute⟩,
        hle⟩
  · rintro ⟨⟨hhour, rfl⟩ | ⟨hourText, minuteText, rfl, hhour, hminute⟩, hle, hle'⟩
    · have hsplit : splitAtChar? '.' text = none := splitAtChar?_of_notMem (hhour.notMem rfl)
      simp [hsplit, number?_eq_some_iff.mpr hhour, hle]
    · have hsplit := splitAtChar?_eq_some_iff.mpr
        (And.intro (Eq.refl (hourText ++ '.' :: minuteText)) (hhour.notMem rfl))
      simp [hsplit, number?_eq_some_iff.mpr hhour, number?_eq_some_iff.mpr hminute, hle, hle']

/-- The two halves of the day are told apart by two letters at the end of a text. -/
theorem halves_unique {half other : Text} {face face' : Text} (htext : face ++ half = face' ++ other)
    (h : half.map Char.toLower = "am".toList ∨ half.map Char.toLower = "pm".toList)
    (h' : other.map Char.toLower = "am".toList ∨ other.map Char.toLower = "pm".toList) :
    face = face' ∧ half = other := by
  have hlength {text : Text}
      (h : text.map Char.toLower = "am".toList ∨ text.map Char.toLower = "pm".toList) :
      text.length = 2 := by
    rw [← List.length_map Char.toLower]
    rcases h with h | h <;> rw [h] <;> rfl
  exact List.append_inj' htext ((hlength h).trans (hlength h').symm)

theorem beforePhrase?_am_eq_some_iff {text face : Text} :
    beforePhrase? "am".toList text = some face ↔
      ∃ half, half.map Char.toLower = "am".toList ∧ text = face ++ half := by
  simp only [beforePhrase?_eq_some_iff_isWritten (by decide : IsFixed "am".toList),
    isWritten_iff_map_toLower (by decide : 's' ∉ "am".toList)]

theorem beforePhrase?_pm_eq_some_iff {text face : Text} :
    beforePhrase? "pm".toList text = some face ↔
      ∃ half, half.map Char.toLower = "pm".toList ∧ text = face ++ half := by
  simp only [beforePhrase?_eq_some_iff_isWritten (by decide : IsFixed "pm".toList),
    isWritten_iff_map_toLower (by decide : 's' ∉ "pm".toList)]

/-- A text is read as the time that it tells. -/
theorem ofText?_eq_some_iff {text : Text} {time : TimeOfDay} :
    ofText? text = some time ↔ Tells text time := by
  rw [ofText?]
  split
  · next face hbefore =>
    obtain ⟨half, hhalf, rfl⟩ := beforePhrase?_am_eq_some_iff.mp hbefore
    rw [Option.map_eq_some_iff]
    constructor
    · rintro ⟨⟨hour, minute⟩, hface, rfl⟩
      exact ⟨face, half, hour, rfl, clockFace?_eq_some_iff.mp hface, .inl ⟨hhalf, rfl⟩⟩
    · rintro ⟨face', half', hour, htext, hface, hhalf'⟩
      obtain ⟨rfl, rfl⟩ := halves_unique htext (.inl hhalf) (hhalf'.imp And.left And.left)
      rcases hhalf' with ⟨-, hhour⟩ | ⟨hpm, -⟩
      · refine ⟨(hour, time.minute), clockFace?_eq_some_iff.mpr hface, ?_⟩
        rw [beforeNoon, ← hhour]
      · exact absurd (hhalf.symm.trans hpm) (by decide)
  · next hbefore =>
    rw [Option.bind_eq_some_iff]
    constructor
    · rintro ⟨face, hpm, hread⟩
      obtain ⟨half, hhalf, rfl⟩ := beforePhrase?_pm_eq_some_iff.mp hpm
      obtain ⟨⟨hour, minute⟩, hface, rfl⟩ := Option.map_eq_some_iff.mp hread
      exact ⟨face, half, hour, rfl, clockFace?_eq_some_iff.mp hface, .inr ⟨hhalf, rfl⟩⟩
    · rintro ⟨face, half, hour, rfl, hface, ⟨ham, -⟩ | ⟨hpm, hhour⟩⟩
      · rw [beforePhrase?_am_eq_some_iff.mpr ⟨half, ham, rfl⟩] at hbefore
        contradiction
      · refine ⟨face, beforePhrase?_pm_eq_some_iff.mpr ⟨half, hpm, rfl⟩, ?_⟩
        rw [clockFace?_eq_some_iff.mpr hface, Option.map_some, afterNoon, ← hhour]

theorem bounds_of_ofText? {text : Text} {time : TimeOfDay} (h : ofText? text = some time) :
    time.hour ≤ 24 ∧ time.minute ≤ 59 := by
  obtain ⟨face, half, hour, -, ⟨-, hhour, hminute⟩, hhalf⟩ := ofText?_eq_some_iff.mp h
  refine ⟨?_, hminute⟩
  rcases hhalf with ⟨-, htime⟩ | ⟨-, htime⟩
  · rw [htime]
    split_ifs <;> omega
  · omega

/-- The two places for the minutes are enough. -/
theorem eq_of_encoded_eq {time other : TimeOfDay} (h : time.minute ≤ 59) (h' : other.minute ≤ 59)
    (hencoded : time.encoded = other.encoded) : time = other := by
  rw [encoded, encoded] at hencoded
  have hhour : time.hour = other.hour := by omega
  have hminute : time.minute = other.minute := by omega
  cases time
  cases other
  exact congrArg₂ _ hhour hminute

/-- A text is read as a time exactly if it tells that time, and then the hour is 24 at most and the
minute 59 at most. So the hour after noon can be counted in a byte and the time be encoded in a word
of two bytes without overflow, and two times with the same code are the same. -/
theorem ofText?_tells (text : Text) :
    (∀ time, ofText? text = some time ↔ Tells text time) ∧
    (∀ time, ofText? text = some time → time.hour ≤ 24 ∧ time.minute ≤ 59 ∧
      (UInt16.ofNat time.hour * 100 + UInt16.ofNat time.minute).toNat = time.encoded) ∧
    (∀ hour minute, clockFace? text = some (hour, minute) →
      (UInt8.ofNat hour + 12).toNat = (afterNoon (hour, minute)).hour) ∧
    ∀ other time time', ofText? text = some time → ofText? other = some time' →
      time.encoded = time'.encoded → time = time' := by
  refine ⟨fun _ => ofText?_eq_some_iff, fun time h => ?_, fun hour minute h => ?_, ?_⟩
  · obtain ⟨hhour, hminute⟩ := bounds_of_ofText? h
    refine ⟨hhour, hminute, ?_⟩
    rw [UInt16.toNat_add, UInt16.toNat_mul, UInt16.toNat_ofNat', UInt16.toNat_ofNat', encoded]
    show ((time.hour % 65536 * 100) % 65536 + time.minute % 65536) % 65536 = _
    omega
  · have hle := (clockFace?_eq_some_iff.mp h).2.1
    rw [UInt8.toNat_add, UInt8.toNat_ofNat']
    show (hour % 256 + 12) % 256 = hour + 12
    omega
  · intro other time time' h h'
    exact eq_of_encoded_eq (bounds_of_ofText? h).2 (bounds_of_ofText? h').2

/-- Midnight can be told in many ways, and noon has an hour of its own. -/
theorem ofText?_tells_midnight :
    let midnight : Text := "12AM".toList
    let again : Text := "000.0aM".toList
    let noon : Text := "012.0059Pm".toList
    Tells noon ⟨24, 59⟩ ∧ ¬ Tells "1.2.3pm".toList ⟨13, 2⟩ ∧
      (UInt16.ofNat 24 * 100 + UInt16.ofNat 59).toNat = encoded ⟨24, 59⟩ ∧
      (UInt8.ofNat 12 + 12).toNat = (afterNoon (12, 0)).hour ∧
      ∃ time time', ofText? midnight = some time ∧ ofText? again = some time' ∧
        time.encoded = time'.encoded ∧ time = time' := by
  intro midnight again noon
  have hmidnight : ofText? midnight = some ⟨0, 0⟩ := by decide +kernel
  have hagain : ofText? again = some ⟨0, 0⟩ := by decide +kernel
  have hnoon : ofText? noon = some ⟨24, 59⟩ := by decide +kernel
  have hpoints : ofText? "1.2.3pm".toList ≠ some ⟨13, 2⟩ := by decide +kernel
  have htwelve : clockFace? "12".toList = some (12, 0) := by decide +kernel
  refine ⟨((ofText?_tells noon).1 _).mp hnoon, mt ((ofText?_tells _).1 _).mpr hpoints,
    ((ofText?_tells noon).2.1 _ hnoon).2.2, (ofText?_tells _).2.2.1 12 0 htwelve,
    ⟨0, 0⟩, ⟨0, 0⟩, hmidnight, hagain, rfl, ?_⟩
  exact (ofText?_tells midnight).2.2.2 again _ _ hmidnight hagain rfl

end TimeOfDay

end CampaignScript
