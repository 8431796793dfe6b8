import CampaignScript.Reading.Session

/-! Readers that add to the problems found before and take no notice of them. What such a reader
gives and what it adds are told apart, and both go through sequencing. -/
namespace CampaignScript.Session

variable {α β : Type}

/-- What a reader gives. -/
def value (reader : Session α) : α :=
  (reader.run []).1

/-- The problems that a reader reports. -/
def added (reader : Session α) : List Problem :=
  (reader.run []).2

/-- The reader puts its problems behind those found before, whatever they are. -/
def Appends (reader : Session α) : Prop :=
  ∀ found, reader.run found = (reader.value, found ++ reader.added)

@[simp] theorem value_pure (a : α) : (pure a : Session α).value = a := rfl

@[simp] theorem added_pure (a : α) : (pure a : Session α).added = [] := rfl

theorem appends_pure (a : α) : Appends (pure a) := by
  intro found
  rw [added_pure, List.append_nil]
  rfl

@[simp] theorem value_report (line : Line) (cause : Cause) : (report line cause).value = () := rfl

@[simp] theorem added_report (line : Line) (cause : Cause) :
    (report line cause).added = [{ line, cause }] := rfl

theorem appends_report (line : Line) (cause : Cause) : Appends (report line cause) :=
  fun _ => rfl

section Sequence
variable {reader : Session α} {next : α → Session β}

private theorem run_bind (hreader : Appends reader) (hnext : ∀ a, Appends (next a))
    (found : List Problem) :
    (reader >>= next).run found =
      ((next reader.value).value, found ++ (reader.added ++ (next reader.value).added)) := by
  rw [← List.append_assoc, ← hnext reader.value (found ++ reader.added)]
  have h := hreader found
  show (next (reader.run found).1).run (reader.run found).2 = _
  rw [h]

theorem value_bind (hreader : Appends reader) (hnext : ∀ a, Appends (next a)) :
    (reader >>= next).value = (next reader.value).value := by
  rw [value, run_bind hreader hnext]

theorem added_bind (hreader : Appends reader) (hnext : ∀ a, Appends (next a)) :
    (reader >>= next).added = reader.added ++ (next reader.value).added := by
  rw [added, run_bind hreader hnext, List.nil_append]

theorem Appends.bind (hreader : Appends reader) (hnext : ∀ a, Appends (next a)) :
    Appends (reader >>= next) := by
  intro found
  rw [run_bind hreader hnext, value_bind hreader hnext, added_bind hreader hnext]

@[simp] theorem value_bind_pure (reader : Session α) (f : α → β) :
    (reader >>= fun a => pure (f a)).value = f reader.value := rfl

@[simp] theorem added_bind_pure (reader : Session α) (f : α → β) :
    (reader >>= fun a => pure (f a)).added = reader.added := rfl

end Sequence

section Each
variable {read : α → Session β}

theorem appends_mapM (h : ∀ a, Appends (read a)) (list : List α) : Appends (list.mapM read) := by
  induction list with
  | nil => exact appends_pure []
  | cons a list ih =>
    rw [List.mapM_cons]
    exact (h a).bind fun b => ih.bind fun rest => appends_pure (b :: rest)

theorem value_mapM (h : ∀ a, Appends (read a)) (list : List α) :
    (list.mapM read).value = list.map fun a => (read a).value := by
  induction list with
  | nil => rfl
  | cons a list ih =>
    have hrest := appends_mapM h list
    rw [List.mapM_cons, value_bind (h a) fun b => hrest.bind fun rest => appends_pure (b :: rest),
      value_bind_pure, ih, List.map_cons]

theorem added_mapM (h : ∀ a, Appends (read a)) (list : List α) :
    (list.mapM read).added = list.flatMap fun a => (read a).added := by
  induction list with
  | nil => rfl
  | cons a list ih =>
    have hrest := appends_mapM h list
    rw [List.mapM_cons, added_bind (h a) fun b => hrest.bind fun rest => appends_pure (b :: rest),
      added_bind_pure, ih, List.flatMap_cons]

end Each

theorem appends_expect (line : Line) (cause : Cause) (option : Option α) :
    Appends (expect line cause option) := by
  cases option with
  | none => exact (appends_report line cause).bind fun _ => appends_pure none
  | some a => exact appends_pure (some a)

@[simp] theorem value_expect (line : Line) (cause : Cause) (option : Option α) :
    (expect line cause option).value = option := by
  cases option <;> rfl

theorem added_expect (line : Line) (cause : Cause) (option : Option α) :
    (expect line cause option).added = if option.isNone then [{ line, cause }] else [] := by
  cases option <;> rfl

theorem appends_accept (line : Line) (cause : Text → Cause) (result : Except Text α) :
    Appends (accept line cause result) := by
  cases result with
  | error words => exact appends_expect line (cause words) none
  | ok a => exact appends_pure (some a)

@[simp] theorem value_accept (line : Line) (cause : Text → Cause) (result : Except Text α) :
    (accept line cause result).value = result.toOption := by
  cases result <;> rfl

theorem added_accept (line : Line) (cause : Text → Cause) (result : Except Text α) :
    (accept line cause result).added =
      match result with
      | .ok _ => []
      | .error words => [{ line, cause := cause words }] := by
  cases result <;> rfl

theorem mem_added_accept {line : Line} {cause : Text → Cause} {result : Except Text α}
    {problem : Problem} (h : problem ∈ (accept line cause result).added) :
    ∃ words, result = .error words ∧ problem = { line, cause := cause words } := by
  cases result with
  | error words => exact ⟨words, rfl, List.mem_singleton.mp h⟩
  | ok a => exact absurd h List.not_mem_nil

end CampaignScript.Session
