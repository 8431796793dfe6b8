import CampaignScript.Proofs.Json.Legible
import CampaignScript.Proofs.Reading.Accounting
import CampaignScript.Proofs.Time.Spelling
import CampaignScript.Reading.Document

/-! The document of a reading tells the reading. What is absent shows by the member that is not
there, and a time shows in its number because its minutes take two places. The message of a problem
tells what is wrong with the line, the words at fault included. -/
namespace CampaignScript

theorem Weekday.toJson_injective : Function.Injective Weekday.toJson := by
  intro day other h
  rw [toJson, toJson, Json.number.injEq] at h
  cases day <;> cases other <;> first | rfl | contradiction

namespace TimeOfDay

theorem eq_of_toJson_eq {time other : TimeOfDay} (h : time.IsShown) (h' : other.IsShown)
    (hjson : time.toJson = other.toJson) : time = other := by
  rw [toJson, toJson, Json.number.injEq, encoded, encoded] at hjson
  obtain ⟨-, hminute⟩ := h
  obtain ⟨-, hminute'⟩ := h'
  rcases time with ⟨hour, minute⟩
  rcases other with ⟨hour', minute'⟩
  simp only at hminute hminute' hjson
  rw [mk.injEq]
  omega

theorem eq_of_map_toJson_eq {times others : List TimeOfDay} (h : ∀ time ∈ times, time.IsShown)
    (h' : ∀ time ∈ others, time.IsShown) (hjson : times.map toJson = others.map toJson) :
    times = others := by
  induction times generalizing others with
  | nil => exact (List.map_eq_nil_iff.mp hjson.symm).symm
  | cons time times ih =>
    obtain ⟨other, others, rfl, htime, htimes⟩ := List.map_eq_cons_iff.mp hjson.symm
    obtain ⟨hfirst, hrest⟩ := List.forall_mem_cons.mp h
    obtain ⟨hfirst', hrest'⟩ := List.forall_mem_cons.mp h'
    rw [eq_of_toJson_eq hfirst hfirst' htime.symm, ih hrest hrest' htimes.symm]

end TimeOfDay

/-- A member that may be absent is told by its key, where no later member has the same one. -/
theorem Json.optional_append_inj {α : Type} {key : Text} {write : α → Json} {a b : Option α}
    {more others : List (Text × Json)} (hmore : ∀ member ∈ more, member.1 ≠ key)
    (hothers : ∀ member ∈ others, member.1 ≠ key)
    (h : (a.toList.map fun value => (key, write value)) ++ more =
      (b.toList.map fun value => (key, write value)) ++ others) :
    a.map write = b.map write ∧ more = others := by
  cases a with
  | none =>
    cases b with
    | none => exact ⟨rfl, h⟩
    | some b =>
      have hmem : more = (key, write b) :: others := h
      exact absurd rfl (hmore (key, write b) (hmem ▸ List.mem_cons_self))
  | some a =>
    cases b with
    | none =>
      have hmem : (key, write a) :: more = others := h
      exact absurd rfl (hothers (key, write a) (hmem ▸ List.mem_cons_self))
    | some b =>
      obtain ⟨hmember, hrest⟩ := List.cons_eq_cons.mp h
      rw [Option.map_some, Option.map_some, (Prod.mk.inj hmember).2]
      exact ⟨rfl, hrest⟩

namespace Trigger

/-- Whether the times of a trigger are such as a clock shows. -/
def HasShownTimes : Trigger → Prop
  | recurring _ (some times) => ∀ time ∈ times, time.IsShown
  | _ => True

theorem eq_of_members_eq {trigger other : Trigger} (h : trigger.HasShownTimes)
    (h' : other.HasShownTimes) (hmembers : trigger.members = other.members) : trigger = other := by
  obtain ⟨hkind, hrest⟩ := List.cons_eq_cons.mp hmembers
  rw [Prod.mk.injEq, Json.string.injEq] at hkind
  have hkind := hkind.2
  cases trigger with
  | event type =>
    cases other with
    | event type' => simpa using hrest
    | _ => cases hkind
  | recurring days times =>
    cases other with
    | recurring days' times' =>
      have hhours (times : Option (List TimeOfDay)) : ∀ member ∈ times.toList.map fun times =>
          ("hours".toList, Json.array (times.map TimeOfDay.toJson)),
          member.1 ≠ "weekdays".toList := by
        intro member hmember
        obtain ⟨-, -, rfl⟩ := List.mem_map.mp hmember
        simp
      obtain ⟨hdays, hrest⟩ := Json.optional_append_inj (hhours times) (hhours times') hrest
      have hnone : ∀ member ∈ ([] : List (Text × Json)), member.1 ≠ "hours".toList :=
        List.forall_mem_nil _
      obtain ⟨htimes, -⟩ := Json.optional_append_inj hnone hnone (congrArg (· ++ []) hrest)
      have hdays : days = days' := by
        refine Option.map_injective (fun days days' h => ?_) hdays
        rw [Json.array.injEq] at h
        exact List.map_injective_iff.mpr Weekday.toJson_injective h
      have htimes : times = times' := by
        rcases times with _ | times <;> rcases times' with _ | times'
        · rfl
        · contradiction
        · contradiction
        · rw [Option.map_some, Option.map_some, Option.some.injEq, Json.array.injEq] at htimes
          rw [TimeOfDay.eq_of_map_toJson_eq h h' htimes]
      rw [hdays, htimes]
    | _ => cases hkind
  | oneOff moment =>
    cases other with
    | oneOff moment' => simpa using hrest
    | _ => cases hkind

/-- The times that are read are shown by a clock. -/
theorem hasShownTimes_of_read {line : Line} {trigger : Trigger}
    (h : (Trigger.read line).value = some trigger) : trigger.HasShownTimes := by
  rw [value_read] at h
  split at h
  · cases h
    trivial
  · next days times _ =>
    cases h
    rcases htimes : TimeOfDay.ofEnumeration times with words | hours
    · trivial
    · exact (TimeOfDay.isShown_of_ofEnumeration htimes).2
  · cases h
    trivial
  · contradiction

end Trigger

theorem CustomField.toJson_injective : Function.Injective CustomField.toJson := by
  rintro ⟨key, value⟩ ⟨key', value'⟩ h
  simpa [toJson] using h

theorem Step.toJson_injective : Function.Injective Step.toJson := by
  intro step other h
  cases step <;> cases other <;> simp only [toJson, Json.object.injEq] at h
  case email.email template fields template' fields' =>
    have hfields := List.map_injective_iff.mpr CustomField.toJson_injective
    simpa [hfields.eq_iff] using h
  case condition.condition predicate predicate' => simpa using h
  case wait.wait minutes minutes' =>
    have hnone : ∀ member ∈ ([] : List (Text × Json)), member.1 ≠ "waitMinutes".toList :=
      List.forall_mem_nil _
    have hminutes := (Json.optional_append_inj hnone hnone
      (congrArg (· ++ []) (List.tail_eq_of_cons_eq h))).1
    exact congrArg wait (Option.map_injective (fun n m => Json.number.inj) hminutes)
  case unrecognized.unrecognized => rfl
  -- The steps are of two kinds, and their documents begin differently.
  all_goals exact absurd h (by simp)

/-- Whether the times of a campaign are such as a clock shows. -/
def Campaign.HasShownTimes (campaign : Campaign) : Prop :=
  ∀ trigger ∈ campaign.trigger, trigger.HasShownTimes

theorem Campaign.eq_of_toJson_eq {campaign other : Campaign} (h : campaign.HasShownTimes)
    (h' : other.HasShownTimes) (hjson : campaign.toJson = other.toJson) : campaign = other := by
  rcases campaign with ⟨trigger, steps⟩
  rcases other with ⟨trigger', steps'⟩
  rw [toJson, toJson, Json.object.injEq] at hjson
  obtain ⟨hmembers, hsteps⟩ := List.append_inj' hjson rfl
  have hsteps : steps = steps' := by
    refine List.map_injective_iff.mpr Step.toJson_injective ?_
    simpa using hsteps
  have htrigger : trigger = trigger' := by
    rcases trigger with _ | trigger <;> rcases trigger' with _ | trigger'
    · rfl
    · simp [Trigger.members] at hmembers
    · simp [Trigger.members] at hmembers
    · simp only [Option.toList_some, List.flatMap_singleton] at hmembers
      rw [Trigger.eq_of_members_eq (h trigger rfl) (h' trigger' rfl) hmembers]
  rw [htrigger, hsteps]

theorem Reason.name_injective : Function.Injective Reason.name := by
  intro reason other h
  cases reason <;> cases other <;> first | rfl | exact absurd h (by decide)

namespace Problem

private theorem quoted_inj {words words' role role' : Text} (hrole : 2 ≤ role.length)
    (hrole' : 2 ≤ role'.length)
    (h : '"' :: words ++ "\" is not a valid ".toList ++ role ++ ['.'] =
      '"' :: words' ++ "\" is not a valid ".toList ++ role' ++ ['.']) :
    role.reverse.take 2 = role'.reverse.take 2 ∧ (role = role' → words = words') := by
  have hend (front : Text) {role : Text} (h : 2 ≤ role.length) :
      (front ++ role).reverse.take 2 = role.reverse.take 2 := by
    rw [List.reverse_append, List.take_append_of_le_length (by simpa using h)]
  have hquoted := List.append_cancel_right h
  constructor
  · rw [← hend _ hrole, hquoted, hend _ hrole']
  · rintro rfl
    exact List.tail_eq_of_cons_eq (List.append_cancel_right (List.append_cancel_right hquoted))

/-- Causes with one reason are told apart by the words at fault and by what these were taken for,
which ends differently for each of them. -/
theorem cause_eq_of_message_eq {problem other : Problem} (hreason : problem.reason = other.reason)
    (hmessage : problem.message = other.message) : problem.cause = other.cause := by
  rcases problem with ⟨line, cause⟩
  rcases other with ⟨line', cause'⟩
  cases cause <;> cases cause' <;> try first | rfl | cases hreason
  case day.day => exact congrArg Cause.day ((quoted_inj (by decide) (by decide) hmessage).2 rfl)
  case time.time => exact congrArg Cause.time ((quoted_inj (by decide) (by decide) hmessage).2 rfl)
  case waitAmount.waitAmount =>
    exact congrArg Cause.waitAmount ((quoted_inj (by decide) (by decide) hmessage).2 rfl)
  case waitUnit.waitUnit =>
    exact congrArg Cause.waitUnit ((quoted_inj (by decide) (by decide) hmessage).2 rfl)
  all_goals exact absurd (quoted_inj (by decide) (by decide) hmessage).1 (by decide)

theorem toJson_injective : Function.Injective Problem.toJson := by
  rintro ⟨⟨number, raw⟩, cause⟩ ⟨⟨number', raw'⟩, cause'⟩ h
  simp only [toJson, Line.toJson, Json.object.injEq, List.cons.injEq, Prod.mk.injEq, true_and,
    Json.number.injEq, Json.string.injEq, and_true] at h
  obtain ⟨⟨hnumber, hraw⟩, hmessage, hreason⟩ := h
  have hcause := cause_eq_of_message_eq (Reason.name_injective hreason) hmessage
  simp only at hcause
  rw [hnumber, hraw, hcause]

end Problem

namespace Reading

theorem hasShownTimes_ofText (source : Text) : (ofText source).campaign.HasShownTimes := by
  obtain ⟨line, nested, rest, -, hcampaign, -⟩ := ofText_eq source
  rw [hcampaign]
  exact fun trigger htrigger => Trigger.hasShownTimes_of_read htrigger

theorem eq_of_toJson_eq {reading other : Reading} (h : reading.campaign.HasShownTimes)
    (h' : other.campaign.HasShownTimes) (hjson : reading.toJson = other.toJson) :
    reading = other := by
  rcases reading with ⟨campaign, problems⟩
  rcases other with ⟨campaign', problems'⟩
  simp only [toJson, Json.object.injEq, List.cons.injEq, Prod.mk.injEq, true_and,
    Json.array.injEq, and_true] at hjson
  obtain ⟨hcampaign, hproblems⟩ := hjson
  have hcampaign : campaign = campaign' := Campaign.eq_of_toJson_eq h h' hcampaign
  rw [hcampaign, List.map_injective_iff.mpr Problem.toJson_injective hproblems]

/-- Nothing of a reading is lost in the text of its document. Where two scripts have the same
document, in either style, they are read as the same campaign and with the same problems. -/
theorem ofText_eq_of_toText {source other : Text}
    (h : (ofText source).toJson.toText .compact = (ofText other).toJson.toText .compact ∨
      (ofText source).toJson.toText .pretty = (ofText other).toJson.toText .pretty) :
    ofText source = ofText other := by
  have hjson : (ofText source).toJson = (ofText other).toJson := by
    rcases h with h | h
    · exact Json.toText_injective .compact h
    · exact Json.toText_injective .pretty h
  exact eq_of_toJson_eq (hasShownTimes_ofText source) (hasShownTimes_ofText other) hjson

/-- Two scripts with other line ends and other blank lines, both without days, a waiting time and
one of the steps. -/
theorem ofText_eq_of_toText_absent :
    let source : Text := "every Caturday at 12pm\nwait for 1 \"day\"\n\nsing".toList
    let other : Text := "every Caturday at 12pm\r\nwait for 1 \"day\"\r\n\t\r\nsing\r\n".toList
    (ofText source).campaign =
        ⟨some (.recurring none (some [⟨24, 0⟩])), [.wait none, .unrecognized]⟩ ∧
      (ofText source).toJson.toText .pretty = (ofText other).toJson.toText .pretty ∧
      ofText source = ofText other := by
  intro source other
  have hdocument :
      (ofText source).toJson.toText .pretty = (ofText other).toJson.toText .pretty := by
    decide +kernel
  exact ⟨by decide +kernel, hdocument, ofText_eq_of_toText (.inr hdocument)⟩

end Reading

end CampaignScript
