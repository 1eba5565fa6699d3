import CallBridge.Proofs.Basic
import CallBridge.Proofs.Path.Location
import CallBridge.Text.Name
import Mathlib.Data.List.Infix

/-! # What operations leave of a file tree

An operation that changes a tree changes the files of some places, and all other files stay. The
relation between the tree in front of it and the tree behind it keeps the list of the other files,
with their order, and every directory.

The path of a location leads to the location, and reads the file that stands there.
-/
namespace CallBridge.FileTree

variable {t t' t'' : FileTree} {l m : Location} {bytes : ByteArray}

theorem isFileName_of_get? {e : Entry} (h : t.get? l = some e) :
    ∀ n ∈ l, isFileName n = true := by
  by_cases hl : l = []
  · simp [hl]
  · exact t.named _ ((get?_eq_some_iff hl).mp h)

theorem get?_of_append {e : Entry} (hm : m ≠ []) (h : t.get? (l ++ m) = some e) :
    t.get? l = some .directory := by
  induction m using List.reverseRecOn generalizing e with
  | nil => exact absurd rfl hm
  | append_singleton m n ih =>
    have hd := get?_dropLast h
    rw [← List.append_assoc, List.dropLast_concat] at hd
    by_cases hnil : m = []
    · simpa [hnil] using hd
    · exact ih hnil hd

theorem mem_files_iff : (l, bytes) ∈ t.files ↔ t.get? l = some (.file bytes) := by
  have hmem : (l, bytes) ∈ t.files ↔ (l, Entry.file bytes) ∈ t.entries := by
    rw [files, List.mem_filterMap]
    constructor
    · rintro ⟨⟨m, e⟩, he, h⟩
      cases e with
      | directory => cases h
      | file b =>
        obtain ⟨rfl, rfl⟩ := Prod.mk.inj (Option.some.inj h)
        exact he
    · exact fun h => ⟨_, h, rfl⟩
  by_cases hl : l = []
  · subst hl
    rw [hmem, get?_nil]
    constructor
    · exact fun h => absurd rfl (t.rooted _ h).1
    · intro h
      cases h
  · rw [hmem, get?_eq_some_iff hl]

structure Changed (ls : List Location) (t t' : FileTree) : Prop where
  files : t'.files.filter (fun e => e.1 ∉ ls) = t.files.filter (fun e => e.1 ∉ ls)
  directories : ∀ m, t.get? m = some .directory → t'.get? m = some .directory

namespace Changed

variable {ls ks : List Location}

theorem refl (ls : List Location) (t : FileTree) : Changed ls t t :=
  ⟨rfl, fun _ h => h⟩

theorem trans (h : Changed ls t t') (h' : Changed ls t' t'') : Changed ls t t'' :=
  ⟨h'.files.trans h.files, fun m hm => h'.directories m (h.directories m hm)⟩

theorem mono (h : Changed ls t t') (hls : ls ⊆ ks) : Changed ks t t' := by
  refine ⟨?_, h.directories⟩
  have hfilter : ∀ u : FileTree, u.files.filter (fun e => e.1 ∉ ks) =
      (u.files.filter fun e => e.1 ∉ ls).filter fun e => e.1 ∉ ks := by
    intro u
    rw [List.filter_filter]
    refine List.filter_congr fun e _ => ?_
    by_cases hk : e.1 ∈ ks
    · simp [hk]
    · have hl : e.1 ∉ ls := fun hl => hk (hls hl)
      simp [hk, hl]
  rw [hfilter t', hfilter t, h.files]

theorem get?_eq_file_iff (h : Changed ls t t') (hl : l ∉ ls) :
    t'.get? l = some (.file bytes) ↔ t.get? l = some (.file bytes) := by
  have hmem : ∀ u : FileTree, (l, bytes) ∈ u.files.filter (fun e => e.1 ∉ ls) ↔
      u.get? l = some (.file bytes) := by
    intro u
    rw [List.mem_filter, mem_files_iff]
    simp [hl]
  rw [← hmem t', ← hmem t, h.files]

/-- A location where no file stands before and after may be left out. -/
theorem of_cons (h : Changed (l :: ls) t t') (hl : ∀ b, t.get? l ≠ some (.file b))
    (hl' : ∀ b, t'.get? l ≠ some (.file b)) : Changed ls t t' := by
  refine ⟨?_, h.directories⟩
  have hfilter : ∀ u : FileTree, (∀ b, u.get? l ≠ some (.file b)) →
      u.files.filter (fun e => e.1 ∉ ls) = u.files.filter fun e => e.1 ∉ l :: ls := by
    intro u hu
    refine List.filter_congr fun e he => ?_
    have hne : e.1 ≠ l := by
      intro hel
      have hfile := mem_files_iff.mp he
      rw [hel] at hfile
      exact hu _ hfile
    simp [hne]
  rw [hfilter t' hl', hfilter t hl, h.files]

end Changed

/-- What is made of entries keeps their locations, so it may be filtered by them before or after. -/
theorem filter_filterMap_of_fst {α β : Type} {f : Location × α → Option (Location × β)}
    (hf : ∀ x y, f x = some y → y.1 = x.1) (ls : List Location) (es : List (Location × α)) :
    (es.filterMap f).filter (fun e => e.1 ∉ ls) = (es.filter fun e => e.1 ∉ ls).filterMap f := by
  rw [List.filter_filterMap, List.filterMap_filter]
  refine List.filterMap_congr fun x _ => ?_
  cases hx : f x with
  | none => simp
  | some y => by_cases hl : x.1 ∈ ls <;> simp [hf x y hx, hl, Option.filter]

theorem changed_of_entries {ls : List Location}
    (h : t'.entries.filter (fun e => e.1 ∉ ls) = t.entries.filter fun e => e.1 ∉ ls)
    (hd : ∀ m, t.get? m = some .directory → t'.get? m = some .directory) : Changed ls t t' := by
  refine ⟨?_, hd⟩
  unfold files
  rw [filter_filterMap_of_fst ?kept, filter_filterMap_of_fst ?kept, h]
  rintro ⟨l, e⟩ y hy
  cases e with
  | directory => cases hy
  | file bytes =>
    obtain rfl := Option.some.inj hy
    rfl

theorem writeFile_eq_ok (h : t.writeFile l bytes = .ok t') :
    ∃ hl hn hd hf, t' = t.place l (.file bytes) hl hn hd hf := by
  unfold writeFile at h
  by_cases hl : l = []
  · rw [dif_pos hl] at h
    cases h
  rw [dif_neg hl] at h
  by_cases hn : ∀ n ∈ l, isFileName n = true
  · rw [dif_pos hn] at h
    split at h
    · cases h
    · cases h
    · next hd =>
      split_ifs at h with hf
      exact ⟨hl, hn, hd, hf, (Except.ok.inj h).symm⟩
  · rw [dif_neg hn] at h
    cases h

theorem makeDirectory_eq_ok (h : t.makeDirectory l = .ok t') :
    t.get? l = none ∧ ∃ hl hn hd hf, t' = t.place l .directory hl hn hd hf := by
  unfold makeDirectory at h
  by_cases hl : l = []
  · rw [dif_pos hl] at h
    cases h
  rw [dif_neg hl] at h
  by_cases hn : ∀ n ∈ l, isFileName n = true
  · rw [dif_pos hn] at h
    split at h
    · cases h
    · cases h
    · next hd =>
      split at h
      · cases h
      · next hf => exact ⟨hf, hl, hn, hd, by simp [hf], (Except.ok.inj h).symm⟩
  · rw [dif_neg hn] at h
    cases h

/-- Putting something in a place keeps all other files in their order. -/
theorem changed_place {e : Entry} (hl : l ≠ []) (hn : ∀ n ∈ l, isFileName n = true)
    (hd : t.get? l.dropLast = some .directory) (hf : t.get? l ≠ some .directory) :
    Changed [l] t (t.place l e hl hn hd hf) := by
  refine changed_of_entries ?_ fun m hm => ?_
  · simp [place, List.filter_filter]
  · rw [get?_place]
    split_ifs with h
    · exact absurd (h ▸ hm) hf
    · exact hm

theorem changed_writeFile (h : t.writeFile l bytes = .ok t') :
    Changed [l] t t' ∧ t'.get? l = some (.file bytes) := by
  obtain ⟨hl, hn, hd, hf, rfl⟩ := writeFile_eq_ok h
  refine ⟨changed_place hl hn hd hf, ?_⟩
  rw [get?_place, if_pos rfl]

theorem changed_makeDirectory (h : t.makeDirectory l = .ok t') : Changed [] t t' := by
  obtain ⟨hnone, hl, hn, hd, hf, rfl⟩ := makeDirectory_eq_ok h
  refine (changed_place hl hn hd hf).of_cons (fun b hb => ?_) fun b hb => ?_
  · rw [hnone] at hb
    cases hb
  · rw [get?_place, if_pos rfl] at hb
    cases hb

theorem prefix_iff_of_file (h : t.get? l = some (.file bytes)) {e : Location × Entry}
    (he : e ∈ t.entries) : l.isPrefixOf e.1 = true ↔ e.1 = l := by
  rw [List.isPrefixOf_iff_prefix]
  constructor
  · rintro ⟨rest, hrest⟩
    by_cases hnil : rest = []
    · simpa [hnil] using hrest.symm
    · have hstands : t.get? (l ++ rest) = some e.2 := by
        rw [hrest]
        exact (get?_eq_some_iff (t.rooted e he).1).mpr he
      have hdirectory := get?_of_append hnil hstands
      rw [h] at hdirectory
      cases hdirectory
  · rintro rfl
    exact List.prefix_rfl

theorem entries_remove (h : t.get? l = some (.file bytes)) :
    (t.remove l).entries = t.entries.filter fun e => e.1 ≠ l := by
  refine List.filter_congr fun e he => ?_
  have hiff := prefix_iff_of_file h he
  by_cases hel : e.1 = l
  · simp [hel]
  · simp [hel, mt hiff.mp hel]

theorem get?_remove (h : t.get? l = some (.file bytes)) (m : Location) :
    (t.remove l).get? m = if m = l then none else t.get? m := by
  have hl : l ≠ [] := by
    rintro rfl
    cases h
  by_cases hm : m = []
  · subst hm
    rw [get?_nil, get?_nil, if_neg (Ne.symm hl)]
  · apply Option.ext
    intro e
    rw [get?_eq_some_iff hm, entries_remove h, List.mem_filter]
    split_ifs with hml
    · simp [hml]
    · simp [hml, get?_eq_some_iff hm]

theorem changed_remove (h : t.get? l = some (.file bytes)) : Changed [l] t (t.remove l) := by
  refine changed_of_entries ?_ fun m hm => ?_
  · simp [entries_remove h, List.filter_filter]
  · rw [get?_remove h, if_neg]
    · exact hm
    · rintro rfl
      rw [h] at hm
      cases hm

theorem changed_moveFile (h : t.moveFile l m = .ok t') :
    ∃ b, t.get? l = some (.file b) ∧ Changed [l, m] t t' ∧ t'.get? m = some (.file b) ∧
      (l ≠ m → t'.get? l = none) := by
  unfold moveFile at h
  split at h
  · next b hb =>
    obtain ⟨hchanged, hm⟩ := changed_writeFile h
    refine ⟨b, hb, ?_, hm, fun hne => ?_⟩
    · exact ((changed_remove hb).mono (by simp)).trans (hchanged.mono (by simp))
    · obtain ⟨_, _, _, _, rfl⟩ := writeFile_eq_ok h
      rw [get?_place, if_neg hne, get?_remove hb, if_pos rfl]
  · cases h

theorem isFileName_temporary (i : ℕ) : isFileName (".tmp" ++ toString i) = true := by
  have hdigit : ∀ c ∈ (toString i).toList, c.isDigit = true := by
    intro c hc
    rw [Nat.toString_eq_ofList_toDigits, String.toList_ofList] at hc
    exact Nat.isDigit_of_mem_toDigits (by decide) (by decide) hc
  have hslash : '/' ∉ (toString i).toList := fun h => absurd (hdigit _ h) (by decide)
  have hlist : (".tmp" ++ toString i).toList = '.' :: 't' :: 'm' :: 'p' :: (toString i).toList := by
    rw [String.toList_append]
    rfl
  refine isFileName_iff.mpr ⟨?_, ?_, ?_, fun h => ?_⟩
  · exact fun h => by simpa [hlist] using congrArg String.toList h
  · exact fun h => by simpa [hlist] using congrArg String.toList h
  · exact fun h => by simpa [hlist] using congrArg String.toList h
  · rw [hlist] at h
    simp only [List.mem_cons, hslash, or_false] at h
    revert h
    decide

/-- A free place is one more name in the directory, and nothing stands there. -/
theorem freePlace_eq (t : FileTree) (directory : Location) :
    ∃ n, isFileName n = true ∧ t.freePlace directory = directory ++ [n] ∧
      t.get? (directory ++ [n]) = none := by
  let places := (List.range (t.entries.length + 1)).map fun i => directory ++ [".tmp" ++ toString i]
  have hplace : ∀ l ∈ places, ∃ n, isFileName n = true ∧ l = directory ++ [n] := by
    intro l hl
    obtain ⟨i, -, rfl⟩ := List.mem_map.mp hl
    exact ⟨_, isFileName_temporary i, rfl⟩
  have hnodup : places.Nodup := by
    refine List.nodup_range.map fun i j h => ?_
    have hname := congrArg String.toList (List.singleton_inj.mp (List.append_cancel_left h))
    simp only [String.toList_append] at hname
    exact Text.toString_injective (String.toList_inj.mp (List.append_cancel_left hname))
  have hfree : ∃ l ∈ places, t.get? l = none := by
    obtain ⟨l, hl, hfree⟩ := exists_mem_notMem hnodup
      (by simp [places] : (t.entries.map Prod.fst).length < places.length)
    refine ⟨l, hl, ?_⟩
    obtain ⟨n, -, rfl⟩ := hplace l hl
    cases hstands : t.get? (directory ++ [n]) with
    | none => rfl
    | some e =>
      have hmem := (get?_eq_some_iff (by simp)).mp hstands
      exact absurd (List.mem_map.mpr ⟨_, hmem, rfl⟩) hfree
  unfold freePlace
  change ∃ n, isFileName n = true ∧
    (places.find? fun l => (t.get? l).isNone).getD directory = directory ++ [n] ∧ _
  cases hfind : places.find? fun l => (t.get? l).isNone with
  | none =>
    obtain ⟨l, hl, hnone⟩ := hfree
    exact absurd (List.find?_eq_none.mp hfind l hl) (by simp [hnone])
  | some l =>
    obtain ⟨n, hn, rfl⟩ := hplace l (List.mem_of_find?_eq_some hfind)
    exact ⟨n, hn, rfl, by simpa using List.find?_some hfind⟩

theorem follow_normal (h : t.get? l = some .directory) (n : String) :
    t.follow l (.normal n) = .ok (l ++ [n]) := by
  simp [follow, h]

theorem follow_eq_ok {n : String} (h : t.follow l (.normal n) = .ok m) :
    t.get? l = some .directory ∧ m = l ++ [n] := by
  unfold follow at h
  split at h
  · cases h
  · cases h
  · next hd => exact ⟨hd, (Except.ok.inj h).symm⟩

theorem foldlM_follow_eq_ok {ns : List String} (h : (ns.map .normal).foldlM t.follow l = .ok m) :
    m = l ++ ns := by
  induction ns generalizing l with
  | nil => simpa using (pure_eq_ok_iff.mp h).symm
  | cons n ns ih =>
    rw [List.map_cons, List.foldlM_cons, bind_eq_ok_iff] at h
    obtain ⟨k, hk, h⟩ := h
    obtain ⟨-, rfl⟩ := follow_eq_ok hk
    simpa using ih h

theorem foldlM_follow {ns : List String} (hns : ns ≠ [])
    (h : t.get? (l ++ ns.dropLast) = some .directory) :
    (ns.map .normal).foldlM t.follow l = .ok (l ++ ns) := by
  induction ns generalizing l with
  | nil => exact absurd rfl hns
  | cons n ns ih =>
    by_cases hnil : ns = []
    · subst hnil
      have hl : t.get? l = some .directory := by simpa using h
      rw [List.map_cons, List.foldlM_cons, follow_normal hl]
      rfl
    · rw [List.dropLast_cons_of_ne_nil hnil] at h
      have hl : t.get? l = some .directory := get?_of_append (List.cons_ne_nil _ _) h
      have hrest : t.get? (l ++ [n] ++ ns.dropLast) = some .directory := by simpa using h
      rw [List.map_cons, List.foldlM_cons, follow_normal hl]
      change (ns.map .normal).foldlM t.follow (l ++ [n]) = _
      rw [ih hnil hrest]
      simp

theorem locate_ofLocation_eq (t : FileTree) (hl : ∀ n ∈ l, isFileName n = true) :
    t.locate [] (.ofLocation l) = (l.map .normal).foldlM t.follow [] := by
  rw [locate, if_neg (by simpa using Path.text_ofLocation_ne hl), Path.components_ofLocation hl,
    List.foldlM_cons]
  have hroot : t.follow [] .root = .ok [] := by simp [follow]
  rw [hroot]
  rfl

theorem locate_ofLocation_eq_ok (hl : ∀ n ∈ l, isFileName n = true)
    (h : t.locate [] (.ofLocation l) = .ok m) : m = l := by
  rw [locate_ofLocation_eq t hl] at h
  exact foldlM_follow_eq_ok h

theorem locate_ofLocation (hl : ∀ n ∈ l, isFileName n = true)
    (h : t.get? l.dropLast = some .directory) : t.locate [] (.ofLocation l) = .ok l := by
  rw [locate_ofLocation_eq t hl]
  by_cases hnil : l = []
  · subst hnil
    rfl
  · exact foldlM_follow hnil h

theorem read_ofLocation_eq_ok_iff (hl : ∀ n ∈ l, isFileName n = true) :
    t.read [] (.ofLocation l) = .ok bytes ↔ t.get? l = some (.file bytes) := by
  rw [read, bind_eq_ok_iff]
  constructor
  · rintro ⟨m, hm, h⟩
    obtain rfl := locate_ofLocation_eq_ok hl hm
    split at h
    · cases h
    · cases h
    · next b hb =>
      split_ifs at h
      rw [hb, pure_eq_ok_iff.mp h]
  · intro h
    refine ⟨l, locate_ofLocation hl (get?_dropLast h), ?_⟩
    have hnil : l ≠ [] := by
      rintro rfl
      cases h
    simp only [h, Path.namesDirectory_ofLocation hl hnil]
    rfl

end CallBridge.FileTree
