import CampaignScript.Source.Basic
import CampaignScript.Source.Directory

/-! Loading a script from a directory. A path leads through the folders that it names to the file at
its end, and the text of a file is the one that its bytes encode. -/
namespace CampaignScript

namespace Directory

/-- Whether a part of a path is the name of a folder or file. -/
structure IsName (name : Text) : Prop where
  ne_nil : name ≠ []
  ne_dots : name ≠ ['.'] ∧ name ≠ ['.', '.']
  notMem : '/' ∉ name ∧ '\x00' ∉ name
  short : byteCount name ≤ nameLimit

/-- Whether a path leads to a file, with no other file on the way. -/
structure Holds (directory : Directory) (path : List Text) (bytes : ByteArray) : Prop where
  names : ∀ name ∈ path, IsName name
  ne_nil : path ≠ []
  short : byteCount (['/'].intercalate path) < pathLimit
  file : directory.files.lookup path = some bytes
  way : ∀ depth < path.length, directory.files.lookup (path.take depth) = none

variable {directory : Directory} {path : List Text} {bytes : ByteArray}

theorem enter_folder {name : Text} (h : IsName name) (folder : List Text) :
    directory.enter (.folder folder) name =
      match directory.files.lookup (folder ++ [name]) with
      | some bytes => .ok (.file bytes)
      | none =>
        if directory.isFolder (folder ++ [name]) then .ok (.folder (folder ++ [name]))
        else .error .notFound := by
  have hstay : ¬(name = [] ∨ name = ['.']) := not_or.mpr ⟨h.ne_nil, h.ne_dots.1⟩
  exact (if_neg hstay).trans <|
    (if_neg h.ne_dots.2).trans <| if_neg (Nat.not_lt.mpr h.short)

theorem Holds.isFolder (h : directory.Holds path bytes) {front : List Text}
    (hfront : front <+: path) (hne : front ≠ path) : directory.isFolder front := by
  obtain ⟨before, after, hfiles, -⟩ := List.lookup_eq_some_iff.mp h.file
  have hmem : (path, bytes) ∈ directory.files := by simp [hfiles]
  rw [Directory.isFolder, Bool.or_eq_true]
  refine .inr (List.any_eq_true.mpr ⟨_, hmem, ?_⟩)
  simpa [List.isPrefixOf_iff_prefix] using ⟨hfront, hne⟩

/-- Each name on the way leads one folder further, and the last one to the file. -/
theorem Holds.foldlM_enter (h : directory.Holds path bytes) {front rest : List Text}
    (hpath : path = front ++ rest) (hrest : rest ≠ []) :
    rest.foldlM directory.enter (.folder front) = .ok (.file bytes) := by
  induction rest generalizing front with
  | nil => exact absurd rfl hrest
  | cons name rest ih =>
    have hname : IsName name := h.names name (by simp [hpath])
    have hstep : path = (front ++ [name]) ++ rest := by simp [hpath]
    rw [List.foldlM_cons, enter_folder hname]
    by_cases hlast : rest = []
    · subst hlast
      rw [← List.append_nil (front ++ [name]), ← hstep, h.file]
      rfl
    · have hne : front ++ [name] ≠ path := by simpa [hstep] using hlast
      have hprefix : front ++ [name] <+: path := ⟨rest, hstep.symm⟩
      have hdepth : (front ++ [name]).length < path.length := by
        rw [hstep]
        simpa using List.length_pos_iff.mpr hlast
      have hway := h.way _ hdepth
      rw [← List.prefix_iff_eq_take.mp hprefix] at hway
      rw [hway]
      simp only [h.isFolder hprefix hne, if_true]
      exact ih hstep hlast

theorem exists_intercalate_cons (name : Text) (names : List Text) :
    ∃ more, ['/'].intercalate (name :: names) = name ++ more := by
  cases names with
  | nil => exact ⟨[], by simp⟩
  | cons next names => exact ⟨_, by rw [List.intercalate_cons_cons, List.append_assoc]⟩

theorem notMem_intercalate {c : Char} (hc : c ≠ '/') {names : List Text}
    (h : ∀ name ∈ names, c ∉ name) : c ∉ ['/'].intercalate names := by
  induction names with
  | nil => exact List.not_mem_nil
  | cons name names ih =>
    obtain ⟨hname, hnames⟩ := List.forall_mem_cons.mp h
    cases names with
    | nil => simpa using hname
    | cons next names =>
      rw [List.intercalate_cons_cons]
      simp only [List.mem_append, List.mem_singleton, hname, hc, ih hnames, or_self, not_false_iff]

/-- A path is read as far as its file. -/
theorem Holds.read_eq (h : directory.Holds path bytes) :
    directory.read (['/'].intercalate path) = .ok bytes := by
  have hsplit : (['/'].intercalate path).splitOn '/' = path :=
    List.splitOn_intercalate '/' (fun name hname => (h.names name hname).notMem.1) h.ne_nil
  have hzero : '\x00' ∉ ['/'].intercalate path :=
    notMem_intercalate (by decide) fun name hname => (h.names name hname).notMem.2
  obtain ⟨hne, hhead⟩ :
      ['/'].intercalate path ≠ [] ∧ (['/'].intercalate path).head? ≠ some '/' := by
    obtain ⟨name, names, rfl⟩ := List.exists_cons_of_ne_nil h.ne_nil
    obtain ⟨hfirst, -⟩ := List.forall_mem_cons.mp h.names
    obtain ⟨c, rest, rfl⟩ := List.exists_cons_of_ne_nil hfirst.ne_nil
    obtain ⟨more, hmore⟩ := exists_intercalate_cons (c :: rest) names
    have hc : c ≠ '/' := by
      rintro rfl
      exact hfirst.notMem.1 List.mem_cons_self
    rw [hmore]
    exact ⟨List.cons_ne_nil _ _, by simpa using hc⟩
  simp only [Directory.read, hzero, hne, Nat.not_le.mpr h.short, hhead, hsplit, if_false,
    h.foldlM_enter (List.nil_append path).symm h.ne_nil]
  rfl

end Directory

namespace Source

theorem decode_toUTF8 (text : Text) : decode (String.ofList text).toUTF8 = .ok text := by
  have hvalid : (String.ofList text).toUTF8.IsValidUTF8 := (String.ofList text).isValidUTF8
  rw [decode, String.fromUTF8?, dif_pos hvalid]
  exact congrArg Except.ok String.toList_ofList

/-- A script is loaded from a file as it is written there. -/
theorem load_of_holds {m : Type → Type} [Monad m] [LawfulMonad m] {directory : Directory}
    {path : List Text} {text : Text} (h : directory.Holds path (String.ofList text).toUTF8)
    (hpath : path ≠ [standardInput]) (input : m (Except ReadFault ByteArray)) :
    load (fun name => pure (directory.read name)) input (['/'].intercalate path) =
      pure (.ok text) := by
  have hname : ['/'].intercalate path ≠ standardInput := by
    intro hname
    have hsplit := List.splitOn_intercalate '/'
      (fun name hmem => (h.names name hmem).notMem.1) h.ne_nil
    rw [hname] at hsplit
    exact hpath hsplit.symm
  rw [load, if_neg hname, pure_bind, h.read_eq, ofFile, Except.bind, decode_toUTF8]
  rfl

end Source

end CampaignScript
