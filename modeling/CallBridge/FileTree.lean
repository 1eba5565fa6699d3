import CallBridge.Failure

/-! # File trees

The files and directories below a root, as a list of entries. Every entry has names that files can
have, stands in a directory of the tree, and no two stand in one place, so the tree is known by what
`get?` says of each location.

Paths are followed step by step, as an operating system does: `..` leaves the directory that has
been reached, and each step but the last one must reach a directory.
-/
namespace CallBridge

/-- The names that lead from the root to a file or a directory. -/
abbrev Location := List String

inductive Entry where
  | directory
  | file (bytes : ByteArray)

-- Names the decision for bytes, of which there is more than one.
instance : DecidableEq Entry
  | .directory, .directory => isTrue rfl
  | .directory, .file _ => isFalse nofun
  | .file _, .directory => isFalse nofun
  | .file a, .file b =>
    match ByteArray.decEq a b with
    | isTrue h => isTrue (congrArg Entry.file h)
    | isFalse h => isFalse fun he => h (Entry.file.inj he)

structure FileTree where
  entries : List (Location × Entry)
  distinct : (entries.map Prod.fst).Nodup
  named : ∀ e ∈ entries, ∀ n ∈ e.1, isFileName n = true
  rooted : ∀ e ∈ entries,
    e.1 ≠ [] ∧ (e.1.dropLast = [] ∨ (e.1.dropLast, Entry.directory) ∈ entries)

namespace FileTree

def empty : FileTree :=
  ⟨[], by simp, by simp, by simp⟩

instance : Inhabited FileTree :=
  ⟨empty⟩

/-- What stands at a location. The root is a directory. -/
def get? (t : FileTree) (l : Location) : Option Entry :=
  if l = [] then some .directory else (t.entries.find? fun e => decide (e.1 = l)).map Prod.snd

@[simp]
theorem get?_nil (t : FileTree) : t.get? [] = some .directory := by
  simp [get?]

private theorem find_of_mem {es : List (Location × Entry)} (h : (es.map Prod.fst).Nodup)
    {l : Location} {e : Entry} (hm : (l, e) ∈ es) :
    es.find? (fun x => decide (x.1 = l)) = some (l, e) := by
  induction es with
  | nil => simp at hm
  | cons x xs ih =>
    simp only [List.map_cons, List.nodup_cons] at h
    rcases List.mem_cons.mp hm with rfl | hm
    · simp
    · have hx : x.1 ≠ l := fun hx => h.1 (List.mem_map.mpr ⟨(l, e), hm, hx.symm⟩)
      simp [hx, ih h.2 hm]

theorem get?_eq_some_iff {t : FileTree} {l : Location} (hl : l ≠ []) {e : Entry} :
    t.get? l = some e ↔ (l, e) ∈ t.entries := by
  simp only [get?, hl, ↓reduceIte, Option.map_eq_some_iff]
  constructor
  · rintro ⟨⟨m, f⟩, hf, rfl⟩
    have := List.find?_some hf
    simp only [decide_eq_true_eq] at this
    exact this ▸ List.mem_of_find?_eq_some hf
  · exact fun h => ⟨(l, e), find_of_mem t.distinct h, rfl⟩

theorem get?_dropLast {t : FileTree} {l : Location} {e : Entry} (h : t.get? l = some e) :
    t.get? l.dropLast = some .directory := by
  by_cases hl : l = []
  · simp [hl]
  · rcases (t.rooted _ ((get?_eq_some_iff hl).mp h)).2 with hp | hp
    · simp only at hp
      simp [hp]
    · by_cases hd : l.dropLast = []
      · simp [hd]
      · exact (get?_eq_some_iff hd).mpr hp

/-- Put an entry in a directory, in the place of a file or where nothing is. -/
def place (t : FileTree) (l : Location) (e : Entry) (hl : l ≠ [])
    (hn : ∀ n ∈ l, isFileName n = true)
    (hd : t.get? l.dropLast = some .directory) (hf : t.get? l ≠ some .directory) :
    FileTree where
  entries := (l, e) :: t.entries.filter fun x => decide (x.1 ≠ l)
  distinct := by
    simp only [List.map_cons, List.nodup_cons]
    refine ⟨fun h => ?_, (t.distinct.sublist ((List.filter_sublist).map _))⟩
    obtain ⟨x, hx, h⟩ := List.mem_map.mp h
    simp only [List.mem_filter, ne_eq, decide_eq_true_eq] at hx
    exact hx.2 h
  named := by
    intro x hx
    rcases List.mem_cons.mp hx with rfl | hx
    · exact hn
    · exact t.named x (List.mem_filter.mp hx).1
  rooted := by
    intro x hx
    have key : ∀ m : Location, m ≠ l → (m = [] ∨ (m, Entry.directory) ∈ t.entries) →
        m = [] ∨ (m, Entry.directory) ∈ (l, e) :: t.entries.filter fun x => decide (x.1 ≠ l) := by
      intro m hm h
      rcases h with h | h
      · exact .inl h
      · exact .inr (List.mem_cons_of_mem _ (List.mem_filter.mpr ⟨h, by simpa using hm⟩))
    have hne : ∀ m : Location, m ≠ [] → m.dropLast ≠ m := by
      intro m hm h
      have := congrArg List.length h
      have := List.length_pos_iff.mpr hm
      simp only [List.length_dropLast] at *
      omega
    rcases List.mem_cons.mp hx with rfl | hx
    · refine ⟨hl, key _ (hne _ hl) ?_⟩
      by_cases h : l.dropLast = []
      · exact .inl h
      · exact .inr ((get?_eq_some_iff h).mp hd)
    · have hx := (List.mem_filter.mp hx).1
      have hr := t.rooted x hx
      refine ⟨hr.1, ?_⟩
      by_cases h : x.1.dropLast = l
      · rcases hr.2 with hr | hr
        · exact .inl hr
        · exact absurd ((get?_eq_some_iff hl).mpr (h ▸ hr)) hf
      · exact key _ h hr.2

@[simp]
theorem get?_place {t : FileTree} {l : Location} {e : Entry} (hl : l ≠ [])
    (hn : ∀ n ∈ l, isFileName n = true)
    (hd : t.get? l.dropLast = some .directory) (hf : t.get? l ≠ some .directory)
    (m : Location) :
    (t.place l e hl hn hd hf).get? m = if m = l then some e else t.get? m := by
  by_cases hm : m = []
  · subst hm
    simp [Ne.symm hl]
  · apply Option.ext
    intro f
    rw [get?_eq_some_iff hm]
    by_cases h : m = l
    · subst h
      simp [place, eq_comm]
    · rw [if_neg h, get?_eq_some_iff hm]
      simp [place, h]

def remove (t : FileTree) (l : Location) : FileTree where
  entries := t.entries.filter fun x => !l.isPrefixOf x.1
  distinct := t.distinct.sublist ((List.filter_sublist).map _)
  named := fun x hx => t.named x (List.mem_filter.mp hx).1
  rooted := by
    intro x hx
    obtain ⟨hm, hx⟩ := List.mem_filter.mp hx
    have hr := t.rooted x hm
    refine ⟨hr.1, hr.2.imp_right fun h => List.mem_filter.mpr ⟨h, ?_⟩⟩
    simp only [Bool.not_eq_true', Bool.eq_false_iff, ne_eq, List.isPrefixOf_iff_prefix] at hx ⊢
    exact fun hp => hx (hp.trans (List.dropLast_prefix _))

def writeFile (t : FileTree) (l : Location) (bytes : ByteArray) : Except FileFault FileTree :=
  if hl : l = [] then .error .isDirectory
  else if hn : ∀ n ∈ l, isFileName n = true then
    match hd : t.get? l.dropLast with
    | none => .error .missing
    | some (.file _) => .error .notDirectory
    | some .directory =>
      if hf : t.get? l = some .directory then .error .isDirectory
      else .ok (t.place l (.file bytes) hl hn hd hf)
  else .error .missing

def makeDirectory (t : FileTree) (l : Location) : Except FileFault FileTree :=
  if hl : l = [] then .error .alreadyExists
  else if hn : ∀ n ∈ l, isFileName n = true then
    match hd : t.get? l.dropLast with
    | none => .error .missing
    | some (.file _) => .error .notDirectory
    | some .directory =>
      match hf : t.get? l with
      | some _ => .error .alreadyExists
      | none => .ok (t.place l .directory hl hn hd (by simp [hf]))
  else .error .missing

/-- Take a file out of its place and put it in another one, in the place of a file or where nothing
is. -/
def moveFile (t : FileTree) (source target : Location) : Except FileFault FileTree :=
  match t.get? source with
  | some (.file bytes) => (t.remove source).writeFile target bytes
  | _ => .error .missing

/-- A place in a directory where nothing stands: the first free one of `.tmp0`, `.tmp1` and so on. -/
def freePlace (t : FileTree) (directory : Location) : Location :=
  let places := (List.range (t.entries.length + 1)).map fun i => directory ++ [".tmp" ++ toString i]
  (places.find? fun l => (t.get? l).isNone).getD directory

def files (t : FileTree) : List (Location × ByteArray) :=
  t.entries.filterMap fun (l, e) =>
    match e with
    | .file bytes => some (l, bytes)
    | .directory => none

def follow (t : FileTree) (here : Location) (c : Component) : Except FileFault Location :=
  match t.get? here with
  | none => .error .missing
  | some (.file _) => .error .notDirectory
  | some .directory =>
    .ok <|
      match c with
      | .root => []
      | .current => here
      | .parent => here.dropLast
      | .normal name => here ++ [name]

/-- The location that a path leads to from a directory. Nothing needs to stand there. -/
def locate (t : FileTree) (here : Location) (p : Path) : Except FileFault Location :=
  if p.text.isEmpty then .error .missing else p.components.foldlM t.follow here

def read (t : FileTree) (here : Location) (p : Path) : Except FileFault ByteArray := do
  let l ← t.locate here p
  match t.get? l with
  | none => throw .missing
  | some .directory => throw .isDirectory
  | some (.file bytes) => if p.namesDirectory then throw .notDirectory else return bytes

def write (t : FileTree) (here : Location) (p : Path) (bytes : ByteArray) :
    Except FileFault FileTree := do
  let l ← t.locate here p
  if p.namesDirectory then throw .isDirectory else t.writeFile l bytes

def isDirectory (t : FileTree) (here : Location) (p : Path) : Bool :=
  match t.locate here p with
  | .ok l => t.get? l == some .directory
  | .error _ => false

def holds (t : FileTree) (here : Location) (p : Path) : Bool :=
  t.isDirectory here p ||
    match t.read here p with
    | .ok _ => true
    | .error _ => false

end FileTree

end CallBridge
