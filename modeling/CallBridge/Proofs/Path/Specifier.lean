import CallBridge.Path.Specifier
import CallBridge.Proofs.Path.Lexical
import CallBridge.Proofs.Text.Pieces
import CallBridge.SourceFile
import Mathlib.Data.List.TakeWhile

/-! # Specifiers of source files

A specifier leaves out the extension of a source file and keeps everything else: how far it climbs
from the directory of the output, and each name on the way to the file. So it tells apart any two
source files, unless they stand in one directory and their names differ in the extension only.
-/
namespace CallBridge

def stemOf (name : String) : String :=
  String.ofList ((name.toList.reverse.dropWhile (· ≠ '.')).drop 1).reverse

/-- The location of a file, its name without the extension. -/
def Path.unextended (p : Path) : Location :=
  p.location.dropLast ++ (p.location.getLast?.map stemOf).toList

structure SourceName (name : String) (stem ext : List Char) : Prop where
  eq : name.toList = stem ++ '.' :: ext
  stem_ne : stem ≠ []
  dotless : '.' ∉ ext
  stripped : String.ofList ('.' :: ext) ∈ strippedExtensions
  strips : ∀ e ∈ strippedExtensions, ∀ front, name.toList = front ++ e.toList → front = stem

theorem SourceName.stemOf_eq {name : String} {stem ext : List Char} (h : SourceName name stem ext) :
    stemOf name = String.ofList stem := by
  have hdrop : (name.toList.reverse.dropWhile (· ≠ '.')) = '.' :: stem.reverse := by
    rw [h.eq, List.reverse_append, List.reverse_cons, List.append_assoc, List.dropWhile_append_of_pos]
    · simp
    · intro c hc
      simpa using fun hdot : c = '.' => h.dotless (hdot ▸ List.mem_reverse.mp hc)
  rw [stemOf, hdrop]
  simp

namespace Path
variable {p q : Path}

theorem fileName?_of_located (hp : p.Located) : p.fileName? = p.location.getLast? := by
  unfold fileName?
  rw [hp.components_eq]
  rcases List.eq_nil_or_concat' p.location with h | ⟨dir, name, h⟩
  · simp [h]
  · have hlast : (Component.root :: (dir ++ [name]).map .normal).getLast? = some (.normal name) := by
      rw [List.map_append, ← List.cons_append]
      exact List.getLast?_concat
    rw [h, hlast]
    simp

theorem extension?_eq_some {ext : String} (hp : p.Located) (h : p.extension? = some ext) :
    ∃ dir name stem, p.location = dir ++ [name] ∧ stem ≠ [] ∧ '.' ∉ ext.toList ∧
      name.toList = stem ++ '.' :: ext.toList := by
  unfold extension? at h
  rw [fileName?_of_located hp] at h
  obtain ⟨name, hname, h⟩ := Option.bind_eq_some_iff.mp h
  obtain ⟨dir, hdir⟩ := List.getLast?_eq_some_iff.mp hname
  have hcut := List.takeWhile_append_dropWhile (p := (· ≠ '.')) (l := name.toList.reverse)
  have hhead := List.head?_dropWhile_not (fun c => decide (c ≠ '.')) name.toList.reverse
  dsimp only at h
  split at h
  · next dot c cs hrest =>
    obtain rfl := Option.some.inj h
    rw [hrest] at hcut hhead
    obtain rfl : dot = '.' := by simpa using hhead
    refine ⟨dir, name, (c :: cs).reverse, hdir, by simp, ?_, ?_⟩
    · rw [String.toList_ofList, List.mem_reverse]
      exact fun hdot => by simpa using List.mem_takeWhile_imp hdot
    · simpa using (congrArg List.reverse hcut).symm
  · cases h

theorem strippedExtensions_cases : ∀ e ∈ strippedExtensions,
    e ∈ [".d.ts", ".d.mts", ".d.cts"] ∨ e.toList.head? = some '.' ∧ '.' ∉ e.toList.tail := by
  decide

theorem exists_sourceName (hp : p.Located) (hsource : p.isSource = true) :
    ∃ dir name stem ext, p.location = dir ++ [name] ∧ SourceName name stem ext := by
  obtain ⟨hdeclares, hdialect⟩ := (Bool.and_eq_true _ _).mp hsource
  have hext : ∃ ext ∈ ["ts", "mts", "cts", "tsx"], p.extension? = some ext := by
    unfold Syntax.Dialect.ofPath? at hdialect
    split at hdialect <;> simp_all
  obtain ⟨ext, hmem, hext⟩ := hext
  obtain ⟨dir, name, stem, hdir, hstem, hdotless, hname⟩ := extension?_eq_some hp hext
  have hstripped : ∀ ext ∈ ["ts", "mts", "cts", "tsx"],
      String.ofList ('.' :: ext.toList) ∈ strippedExtensions := by decide
  refine ⟨dir, name, stem, ext.toList, hdir, hname, hstem, hdotless, hstripped ext hmem,
    fun e he front h => ?_⟩
  rcases strippedExtensions_cases e he with hdeclared | ⟨hdot, htail⟩
  · have hends : name.endsWith e = true := endsWith_iff.mpr ⟨front, h⟩
    rw [fileName?_of_located hp, hdir, List.getLast?_concat] at hdeclares
    simp only [Bool.not_eq_true', Option.getD_some, List.any_eq_false] at hdeclares
    exact absurd hends (hdeclares e hdeclared)
  · rw [← List.cons_head?_tail hdot, hname] at h
    exact (Text.cut_last_inj hdotless htail h).1.symm

end Path

/-- An extension is stripped off a text that ends in it, and nothing off one that ends in none. -/
theorem stripExtension_cases (text : String) :
    (∃ e ∈ strippedExtensions, text.toList = (stripExtension text).toList ++ e.toList) ∨
      stripExtension text = text ∧
        ∀ e ∈ strippedExtensions, ∀ front, text.toList ≠ front ++ e.toList := by
  unfold stripExtension
  split
  · next stem hstem =>
    obtain ⟨e, he, hbefore⟩ := List.exists_of_findSome?_eq_some hstem
    exact .inl ⟨e, he, by simpa using Text.before?_eq_some_iff.mp hbefore⟩
  · next hnone =>
    refine .inr ⟨rfl, fun e he front h => ?_⟩
    have hbefore := List.findSome?_eq_none_iff.mp hnone e he
    rw [Text.before?_eq_some_iff.mpr h] at hbefore
    cases hbefore

theorem findSome?_congr {α β : Type} {f g : α → Option β} {l : List α} (h : ∀ a ∈ l, f a = g a) :
    l.findSome? f = l.findSome? g := by
  induction l with
  | nil => rfl
  | cons a l ih =>
    rw [List.findSome?_cons, List.findSome?_cons, h a List.mem_cons_self,
      ih fun b hb => h b (List.mem_cons_of_mem _ hb)]

/-- Only the last name of a text can lose an extension, since no extension has a separator. -/
theorem stripExtension_append {name text : String} {front : List Char}
    (hfront : front = [] ∨ ∃ init, front = init ++ ['/'])
    (htext : text.toList = front ++ name.toList) :
    (stripExtension text).toList = front ++ (stripExtension name).toList := by
  have hslash : ∀ e ∈ strippedExtensions, '/' ∉ e.toList := by decide
  have hbefore : ∀ e ∈ strippedExtensions, Text.before? e.toList text.toList =
      (Text.before? e.toList name.toList).map (front ++ ·) := by
    intro e he
    refine Option.ext fun stem => ?_
    simp only [Option.map_eq_some_iff, Text.before?_eq_some_iff, htext]
    constructor
    · intro h
      rcases List.append_eq_append_iff.mp h with ⟨inner, rfl, hname⟩ | ⟨spill, rfl, hspill⟩
      · exact ⟨inner, hname, rfl⟩
      · -- An extension that is longer than the name would hold the separator in front of the name.
        rcases List.eq_nil_or_concat' spill with rfl | ⟨spill, last, rfl⟩
        · exact ⟨[], hspill.symm, by simp⟩
        · rcases hfront with hnil | ⟨init, hinit⟩
          · simp at hnil
          · obtain rfl : last = '/' := by
              rw [← List.append_assoc] at hinit
              simpa using congrArg List.getLast? hinit
            exact absurd (by simp [hspill]) (hslash e he)
    · rintro ⟨inner, hname, rfl⟩
      rw [hname, List.append_assoc]
  have hfind : (strippedExtensions.findSome? fun e => Text.before? e.toList text.toList) =
      (strippedExtensions.findSome? fun e => Text.before? e.toList name.toList).map (front ++ ·) := by
    rw [List.map_findSome?]
    exact findSome?_congr hbefore
  unfold stripExtension
  rw [hfind]
  cases strippedExtensions.findSome? fun e => Text.before? e.toList name.toList with
  | none => exact htext
  | some stem => simp

theorem SourceName.stripExtension_eq {name : String} {stem ext : List Char}
    (h : SourceName name stem ext) : (stripExtension name).toList = stem := by
  rcases stripExtension_cases name with ⟨e, he, hstrip⟩ | ⟨-, hnone⟩
  · exact h.strips e he _ hstrip
  · refine absurd ?_ (hnone _ h.stripped stem)
    rw [h.eq, String.toList_ofList]

theorem stripExtension_intercalate (pieces : List String) (name : String) :
    stripExtension ("/".intercalate (pieces ++ [name])) =
      "/".intercalate (pieces ++ [stripExtension name]) := by
  obtain ⟨front, hfront, hjoin⟩ := Text.exists_intercalate_append '/' (pieces.map String.toList)
  have htext : ∀ last : String,
      ("/".intercalate (pieces ++ [last])).toList = front ++ last.toList := by
    intro last
    rw [String.toList_intercalate, List.map_append]
    exact hjoin _
  rw [← String.toList_inj, stripExtension_append hfront (htext name), htext]

theorem SourceName.stripExtension_intercalate {name : String} {stem ext : List Char}
    (h : SourceName name stem ext) (pieces : List String) :
    (stripExtension ("/".intercalate (pieces ++ [name]))).toList =
      ['/'].intercalate ((pieces ++ [String.ofList stem]).map String.toList) := by
  have hstem : stripExtension name = String.ofList stem := by
    rw [← h.stripExtension_eq, String.ofList_toList]
  rw [CallBridge.stripExtension_intercalate, hstem, String.toList_intercalate]
  rfl

theorem stripExtension_eq_self {text : String}
    (h : text.toList.getLast? = none ∨ text.toList.getLast? = some '.') :
    stripExtension text = text := by
  have hletter : ∀ e ∈ strippedExtensions, e.toList.getLast? = some 's' ∨
      e.toList.getLast? = some 'x' := by decide
  rcases stripExtension_cases text with ⟨e, he, hstrip⟩ | ⟨hself, -⟩
  · rw [hstrip, List.getLast?_append] at h
    rcases hletter e he with hlast | hlast <;> simp [hlast] at h
  · exact hself

theorem stripExtension_climb (k : ℕ) :
    stripExtension ("/".intercalate (List.replicate k "..")) =
      "/".intercalate (List.replicate k "..") := by
  refine stripExtension_eq_self ?_
  rw [String.toList_intercalate]
  cases k with
  | zero => exact .inl rfl
  | succ k =>
    obtain ⟨front, -, hjoin⟩ :=
      Text.exists_intercalate_append '/' ((List.replicate k "..").map String.toList)
    have hclimb := hjoin "..".toList
    rw [List.replicate_succ', List.map_append]
    refine .inr (.trans (congrArg List.getLast? hclimb) ?_)
    simp

namespace Path
variable {p q : Path}

def stripped (p : Path) : String :=
  stripExtension ("/".intercalate (p.components.map Component.text))

theorem toSpecifier_eq_iff : p.toSpecifier = q.toSpecifier ↔ p.stripped = q.stripped := by
  have hspecifier : ∀ p : Path, p.toSpecifier =
      if p.stripped.startsWith "../" || p.stripped == ".." then p.stripped
      else "./" ++ p.stripped := fun _ => rfl
  refine ⟨fun h => ?_, fun h => by rw [hspecifier, hspecifier, h]⟩
  rw [hspecifier, hspecifier] at h
  generalize p.stripped = s at h ⊢
  generalize q.stripped = t at h ⊢
  have hclimbs : ∀ s t : String, (s.startsWith "../" || s == "..") = true → s ≠ "./" ++ t := by
    rintro s t hs rfl
    rcases (Bool.or_eq_true _ _).mp hs with hs | hs
    · simpa using String.startsWith_string_iff.mp hs
    · simpa using congrArg String.toList (beq_iff_eq.mp hs)
  split_ifs at h with hs ht ht
  · exact h
  · exact absurd h (hclimbs s t hs)
  · exact absurd h.symm (hclimbs t s ht)
  · simpa using h

theorem specifier_file_eq_iff {output : Path} :
    (ModuleRef.file p).specifier output = (ModuleRef.file q).specifier output ↔
      (relative (importDirectory output) p).stripped =
        (relative (importDirectory output) q).stripped := by
  simp only [ModuleRef.specifier]
  exact toSpecifier_eq_iff

theorem ofComponents_append_root (before after : List Component) :
    ofComponents (before ++ .root :: after) = ofComponents (.root :: after) := by
  have hroot : ∀ p : Path, p.push .root = ⟨"/"⟩ := fun _ => rfl
  simp only [ofComponents, List.foldl_append, List.foldl_cons, hroot]

/-- The last step of a path that does not lead to `as` is not common. -/
theorem commonLength_append_singleton {as bs : List Component} {b : Component}
    (h : ¬ bs ++ [b] <+: as) : commonLength as (bs ++ [b]) = commonLength as bs := by
  induction bs generalizing as with
  | nil =>
    cases as with
    | nil => rfl
    | cons a as =>
      have hab : a ≠ b := fun he => h (by simp [he])
      simp [commonLength, hab]
  | cons c bs ih =>
    cases as with
    | nil => rfl
    | cons a as =>
      rw [List.cons_append]
      by_cases hac : a = c
      · subst hac
        have hrest : ¬ bs ++ [b] <+: as := fun hp => h (by simpa using hp)
        simp [commonLength, ih hrest]
      · simp [commonLength, hac]

/-- What is written of a file without its extension, from a directory that shares `shared` steps with
the way to it. A directory that is not absolute shares none, and the whole way is written. -/
def wayText (directory : List Component) (shared : ℕ) (l : Location) : List Char :=
  if shared = 0 then '/' :: '/' :: ['/'].intercalate (l.map String.toList)
  else
    ['/'].intercalate
      ((List.replicate (directory.length - shared) ".." ++ l.drop (shared - 1)).map String.toList)

theorem unextended_eq {dir : Location} {name : String} {stem ext : List Char}
    (hdir : p.location = dir ++ [name]) (hname : SourceName name stem ext) :
    p.unextended = dir ++ [String.ofList stem] := by
  rw [unextended, hdir, List.dropLast_concat, List.getLast?_concat, Option.map_some, hname.stemOf_eq]
  rfl

theorem stripped_relative (hp : p.Located) (hsource : p.isSource = true) (directory : Path) :
    (relative directory p).stripped.toList =
      wayText directory.components (commonLength directory.components p.components)
        p.unextended := by
  obtain ⟨dir, name, stem, ext, hdir, hname⟩ := exists_sourceName hp hsource
  have hcomponents := hp.components_eq
  have hnames : (p.location.map Component.normal).map Component.text = dir ++ [name] := by
    rw [hdir, List.map_map]
    exact List.map_id _
  rw [unextended_eq hdir hname, wayText, relative, relativeComponents, hcomponents]
  cases hshared : commonLength directory.components (.root :: p.location.map .normal) with
  | zero =>
    -- The directory is not absolute, and the way begins at the root again.
    rw [if_pos rfl, List.drop_zero, ofComponents_append_root, stripped]
    change (stripExtension ("/".intercalate ((ofLocation p.location).components.map _))).toList = _
    rw [components_ofLocation hp.named, List.map_cons, hnames]
    exact (hname.stripExtension_intercalate ("/" :: dir)).trans
      (List.intercalate_cons_of_ne_nil (by simp))
  | succ shared =>
    have hsteps : ((List.replicate (directory.components.length - (shared + 1)) Component.parent ++
        (p.location.drop shared).map Component.normal).map Component.text) =
          List.replicate (directory.components.length - (shared + 1)) ".." ++
            (dir ++ [name]).drop shared := by
      rw [List.map_append, List.map_replicate, List.map_drop, List.map_drop, hnames]
      rfl
    rw [if_neg (Nat.succ_ne_zero _), List.drop_succ_cons, Nat.add_sub_cancel, stripped,
      ← List.map_drop, components_ofComponents, hsteps]
    · by_cases hshort : shared ≤ dir.length
      · rw [List.drop_append_of_le_length hshort, List.drop_append_of_le_length hshort,
          ← List.append_assoc, ← List.append_assoc]
        exact hname.stripExtension_intercalate _
      · -- The directory is not above the file, and nothing but steps up is written.
        rw [List.drop_eq_nil_of_le (by simp; omega), List.drop_eq_nil_of_le (by simp; omega),
          List.append_nil, stripExtension_climb, String.toList_intercalate]
        rfl
    · exact fun _ => Component.Written.of_mem_way fun n hn => hp.named n (List.mem_of_mem_drop hn)

section Apart
variable {directory : Path} (hp : p.Located) (hq : q.Located) (hps : p.isSource = true)
  (hqs : q.isSource = true)

include hp hps in
theorem length_unextended : p.unextended.length = p.location.length := by
  obtain ⟨dir, name, stem, ext, hdir, hname⟩ := exists_sourceName hp hps
  simp [unextended_eq hdir hname, hdir]

include hp hps in
theorem take_unextended {i : ℕ} (hi : i < p.location.length) :
    p.unextended.take i = p.location.take i := by
  obtain ⟨dir, name, stem, ext, hdir, hname⟩ := exists_sourceName hp hps
  have hshort : i ≤ dir.length := by
    rw [hdir, List.length_append, List.length_singleton] at hi
    omega
  rw [unextended_eq hdir hname, hdir, List.take_append_of_le_length hshort,
    List.take_append_of_le_length hshort]

include hp hps in
theorem of_mem_unextended {u : String} (hu : u ∈ p.unextended) : u ≠ "" ∧ '/' ∉ u.toList := by
  obtain ⟨dir, name, stem, ext, hdir, hname⟩ := exists_sourceName hp hps
  have hnamed := hp.named
  rw [hdir] at hnamed
  rw [unextended_eq hdir hname] at hu
  rcases List.mem_append.mp hu with hu | hu
  · obtain ⟨hempty, -, -, hslash⟩ := isFileName_iff.mp (hnamed u (List.mem_append_left _ hu))
    exact ⟨hempty, hslash⟩
  · obtain rfl := List.mem_singleton.mp hu
    obtain ⟨-, -, -, hslash⟩ := isFileName_iff.mp (hnamed name (by simp))
    rw [hname.eq] at hslash
    exact ⟨by simpa using hname.stem_ne, by simpa using fun h => hslash (by simp [h])⟩

include hp hps in
theorem length_of_drop_unextended {i : ℕ} {rest : List String}
    (h : p.unextended.drop i = ".." :: rest) : rest = [] ∧ p.location.length = i + 1 := by
  obtain ⟨dir, name, stem, ext, hdir, hname⟩ := exists_sourceName hp hps
  have hnamed := hp.named
  rw [hdir] at hnamed ⊢
  rw [unextended_eq hdir hname] at h
  rcases Nat.lt_trichotomy i dir.length with hi | rfl | hi
  · rw [List.drop_append_of_le_length hi.le, List.drop_eq_getElem_cons hi, List.cons_append] at h
    have hdots := hnamed ".." (List.mem_append_left _ ((List.cons.inj h).1 ▸ List.getElem_mem hi))
    exact absurd hdots (by decide)
  · rw [List.drop_left] at h
    exact ⟨(List.cons.inj h).2.symm, by simp⟩
  · rw [List.drop_eq_nil_of_le (by simp; omega)] at h
    cases h

include hp hq in
/-- Two ways from one directory agree as far as both are shared with it. -/
theorem take_location_eq {i j : ℕ} (hij : i ≤ j)
    (hi : commonLength directory.components p.components = i + 1)
    (hj : commonLength directory.components q.components = j + 1) :
    p.location.take i = q.location.take i := by
  have hpi := take_commonLength directory.components p.components
  have hqj := take_commonLength directory.components q.components
  rw [hi, hp.components_eq, List.take_succ_cons] at hpi
  rw [hj, hq.components_eq, List.take_succ_cons] at hqj
  have hqi := congrArg (List.take (i + 1)) hqj
  rw [List.take_take, min_eq_left (by omega), hpi, List.take_succ_cons, List.take_take,
    min_eq_left hij, List.cons.injEq, ← List.map_take, ← List.map_take] at hqi
  exact List.map_injective_iff.mpr (fun _ _ h => Component.normal.inj h) hqi.2

include hp hq hps hqs in
/-- What is written of two ways tells them apart if the first one shares no more with the directory
than the second one, unless the second one leads through the first file. -/
theorem unextended_eq_of_le {i j : ℕ} (hij : i ≤ j)
    (hi : commonLength directory.components p.components = i + 1)
    (hj : commonLength directory.components q.components = j + 1)
    (hpq : p.location <+: q.location → p.location = q.location)
    (h : List.replicate (directory.components.length - (i + 1)) ".." ++ p.unextended.drop i =
      List.replicate (directory.components.length - (j + 1)) ".." ++ q.unextended.drop j) :
    p.unextended = q.unextended := by
  have htake := take_location_eq hp hq hij hi hj
  have hpi : i ≤ p.location.length := by
    have hle := (commonLength_le directory.components p.components).2
    rw [hi, hp.components_eq, List.length_cons, List.length_map] at hle
    omega
  have hL := hj ▸ (commonLength_le directory.components q.components).1
  have hclimb : directory.components.length - (i + 1) =
      directory.components.length - (j + 1) + (j - i) := by omega
  rw [hclimb, List.replicate_add, List.append_assoc] at h
  replace h := List.append_cancel_left h
  -- If the first way ends where it leaves the directory, its file is on the other way.
  have hends : p.location.length ≤ i → p.location = q.location := fun hlength => by
    refine hpq ?_
    rw [← List.take_of_length_le hlength, htake]
    exact List.take_prefix _ _
  rcases Nat.eq_zero_or_pos (j - i) with hzero | hpos
  · obtain rfl : i = j := by omega
    rw [hzero, List.replicate_zero, List.nil_append] at h
    by_cases hlt : i < p.location.length
    · have hlt' : i < q.location.length := by
        have hlength := congrArg List.length h
        simp only [List.length_drop, length_unextended hp hps, length_unextended hq hqs] at hlength
        omega
      rw [← List.take_append_drop i p.unextended, ← List.take_append_drop i q.unextended, h,
        take_unextended hp hps hlt, take_unextended hq hqs hlt', htake]
    · rw [unextended, unextended, hends (by omega)]
  · -- The second way would go on with a name that is two dots without its extension.
    rw [show j - i = j - i - 1 + 1 by omega, List.replicate_succ, List.cons_append] at h
    obtain ⟨hrest, hlength⟩ := length_of_drop_unextended hq hqs h.symm
    have hshort := List.drop_eq_nil_iff.mp (List.append_eq_nil_iff.mp hrest).2
    rw [length_unextended hp hps] at hshort
    rw [← hends hshort] at hlength
    omega

include hp hq in
/-- Either both ways share the root with a directory, or neither shares anything. -/
theorem commonLength_eq_zero_iff (directory : Path) :
    commonLength directory.components p.components = 0 ↔
      commonLength directory.components q.components = 0 := by
  rw [hp.components_eq, hq.components_eq]
  cases directory.components with
  | nil => exact Iff.rfl
  | cons c cs => by_cases hc : c = .root <;> simp [commonLength, hc]

include hp hps in
theorem of_mem_climb {k i : ℕ} {piece : List Char}
    (h : piece ∈ (List.replicate k ".." ++ p.unextended.drop i).map String.toList) :
    piece ≠ [] ∧ '/' ∉ piece := by
  obtain ⟨u, hu, rfl⟩ := List.mem_map.mp h
  rcases List.mem_append.mp hu with hu | hu
  · rw [List.eq_of_mem_replicate hu]
    decide
  · obtain ⟨hempty, hslash⟩ := of_mem_unextended hp hps (List.mem_of_mem_drop hu)
    exact ⟨fun hnil => hempty (String.toList_eq_nil_iff.mp hnil), hslash⟩

include hp hq hps hqs in
theorem unextended_eq_of_specifier_eq (hpq : p.location <+: q.location → p.location = q.location)
    (hqp : q.location <+: p.location → q.location = p.location) {output : Path}
    (h : (ModuleRef.file p).specifier output = (ModuleRef.file q).specifier output) :
    p.unextended = q.unextended := by
  have hwritten := congrArg String.toList (specifier_file_eq_iff.mp h)
  rw [stripped_relative hp hps, stripped_relative hq hqs] at hwritten
  generalize importDirectory output = directory at hwritten
  have hzero := commonLength_eq_zero_iff hp hq directory
  have hstrings : Function.Injective (List.map String.toList) :=
    List.map_injective_iff.mpr fun _ _ h => String.toList_inj.mp h
  unfold wayText at hwritten
  cases hi : commonLength directory.components p.components with
  | zero =>
    rw [if_pos hi, if_pos (hzero.mp hi)] at hwritten
    simp only [List.cons.injEq, true_and] at hwritten
    exact hstrings (Text.intercalate_inj (fun _ => of_mem_climb hp hps (k := 0) (i := 0))
      (fun _ => of_mem_climb hq hqs (k := 0) (i := 0)) hwritten)
  | succ i =>
    cases hj : commonLength directory.components q.components with
    | zero => exact absurd (hzero.mpr hj) (by simp [hi])
    | succ j =>
      rw [hi, hj, if_neg (Nat.succ_ne_zero _), if_neg (Nat.succ_ne_zero _)] at hwritten
      have hpieces := hstrings (Text.intercalate_inj (fun _ => of_mem_climb hp hps)
        (fun _ => of_mem_climb hq hqs) hwritten)
      rcases Nat.le_total i j with hij | hji
      · exact unextended_eq_of_le hp hq hps hqs hij hi hj hpq hpieces
      · exact (unextended_eq_of_le hq hp hqs hps hji hj hi hqp hpieces.symm).symm

include hp hq hps hqs in
/-- Source files that differ in the extension only have one specifier, wherever they do not stand on
the way to the output. -/
theorem specifier_eq_of_unextended_eq {output : Path} (h : p.unextended = q.unextended)
    (hpo : ¬ p.components <+: (importDirectory output).components)
    (hqo : ¬ q.components <+: (importDirectory output).components) :
    (ModuleRef.file p).specifier output = (ModuleRef.file q).specifier output := by
  refine specifier_file_eq_iff.mpr (String.toList_inj.mp ?_)
  have hshared : ∀ {r : Path}, r.Located → r.isSource = true →
      ¬ r.components <+: (importDirectory output).components →
      commonLength (importDirectory output).components r.components =
        commonLength (importDirectory output).components
          (.root :: r.unextended.dropLast.map .normal) := by
    intro r hr hrs hro
    obtain ⟨dir, name, stem, ext, hdir, hname⟩ := exists_sourceName hr hrs
    rw [hr.components_eq, hdir, List.map_append, ← List.cons_append] at hro ⊢
    rw [unextended_eq hdir hname, List.dropLast_concat]
    exact commonLength_append_singleton hro
  rw [stripped_relative hp hps, stripped_relative hq hqs, hshared hp hps hpo, hshared hq hqs hqo, h]

end Apart

end Path

theorem Text.mem_of_mem_splitAt {c x : Char} {piece cs : List Char} (h : piece ∈ splitAt c cs)
    (hx : x ∈ piece) : x ∈ cs := by
  induction cs generalizing piece with
  | nil =>
    obtain rfl := List.mem_singleton.mp h
    exact hx
  | cons d ds ih =>
    unfold splitAt at h
    split_ifs at h with hd
    · rcases List.mem_cons.mp h with rfl | h
      · cases hx
      · exact .tail _ (ih h hx)
    · cases hds : splitAt c ds with
      | nil => exact absurd hds (splitAt_ne_nil c ds)
      | cons p ps =>
        simp only [hds] at h ih
        rcases List.mem_cons.mp h with rfl | h
        · rcases List.mem_cons.mp hx with rfl | hx
          · exact List.mem_cons_self
          · exact .tail _ (ih List.mem_cons_self hx)
        · exact .tail _ (ih (List.mem_cons_of_mem _ h) hx)

namespace Path

section Characters
variable {P : Char → Prop} (hslash : P '/') (hdot : P '.')
include hslash hdot

omit hslash in
theorem component_chars {first : Bool} {piece : List Char} {c : Component}
    (hpiece : ∀ x ∈ piece, P x) (h : component? first piece = some c) :
    ∀ x ∈ c.text.toList, P x := by
  unfold component? at h
  split at h
  · cases h
  · split_ifs at h
    obtain rfl := Option.some.inj h
    simpa [Component.text] using hdot
  · obtain rfl := Option.some.inj h
    simpa [Component.text] using hdot
  · obtain rfl := Option.some.inj h
    simpa [Component.text] using hpiece

theorem components_chars {p : Path} (hp : ∀ x ∈ p.text.toList, P x) :
    ∀ c ∈ p.components, ∀ x ∈ c.text.toList, P x := by
  have hpieces : ∀ piece ∈ Text.splitAt '/' p.text.toList, ∀ x ∈ piece, P x :=
    fun piece hpiece x hx => hp x (Text.mem_of_mem_splitAt hpiece hx)
  rw [components_eq_steps]
  cases hsplit : Text.splitAt '/' p.text.toList with
  | nil => simp [steps]
  | cons first rest =>
    rw [hsplit] at hpieces
    have htail : ∀ c ∈ rest.filterMap (component? false), ∀ x ∈ c.text.toList, P x := by
      intro c hc
      obtain ⟨piece, hpiece, hread⟩ := List.mem_filterMap.mp hc
      exact component_chars hdot (hpieces piece (.tail _ hpiece)) hread
    unfold steps
    split_ifs
    · refine List.forall_mem_cons.mpr ⟨?_, htail⟩
      simpa [Component.text] using hslash
    · intro c hc
      rcases List.mem_append.mp hc with hc | hc
      · exact component_chars hdot (hpieces first List.mem_cons_self)
          (Option.mem_toList.mp hc)
      · exact htail c hc

omit hdot in
theorem ofComponents_chars {cs : List Component} (hcs : ∀ c ∈ cs, ∀ x ∈ c.text.toList, P x) :
    ∀ x ∈ (ofComponents cs).text.toList, P x := by
  induction cs using List.reverseRecOn with
  | nil => simp [ofComponents]
  | append_singleton cs c ih =>
    have hbase := ih fun d hd => hcs d (by simp [hd])
    have hlast := hcs c (by simp)
    rw [ofComponents_append_singleton]
    intro x hx
    unfold push join at hx
    split_ifs at hx
    · exact hlast x hx
    · rw [String.toList_append] at hx
      exact (List.mem_append.mp hx).elim (hbase x) (hlast x)
    · simp only [String.toList_append, List.mem_append] at hx
      rcases hx with (hx | hx) | hx
      · exact hbase x hx
      · have hx : x = '/' := by simpa using hx
        exact hx ▸ hslash
      · exact hlast x hx

theorem toSpecifier_chars {p : Path} (hp : ∀ x ∈ p.text.toList, P x) :
    ∀ x ∈ p.toSpecifier.toList, P x := by
  have hjoined : ∀ x ∈ ("/".intercalate (p.components.map Component.text)).toList, P x := by
    intro x hx
    by_contra hbad
    rw [String.toList_intercalate] at hx
    refine Text.notMem_intercalate (c := x) ?_ ?_ hx
    · intro hmem
      have hx : x = '/' := by simpa using hmem
      exact hbad (hx ▸ hslash)
    · intro w hw hxw
      obtain ⟨c, hc, rfl⟩ : ∃ c ∈ p.components, c.text.toList = w := by simpa using hw
      exact hbad (components_chars hslash hdot hp c hc x hxw)
  have hstem : ∀ x ∈ (stripExtension ("/".intercalate (p.components.map Component.text))).toList,
      P x := by
    intro x hx
    rcases stripExtension_cases ("/".intercalate (p.components.map Component.text)) with
      ⟨e, -, he⟩ | ⟨he, -⟩
    · exact hjoined x (he ▸ List.mem_append_left _ hx)
    · exact hjoined x (he ▸ hx)
  intro x hx
  unfold toSpecifier at hx
  dsimp only at hx
  split_ifs at hx
  · exact hstem x hx
  · rw [String.toList_append] at hx
    rcases List.mem_append.mp hx with hx | hx
    · have hx : x = '.' ∨ x = '/' := by simpa using hx
      exact hx.elim (· ▸ hdot) (· ▸ hslash)
    · exact hstem x hx

/-- The specifier of a file has the characters of its path, but for steps. It takes none from the
path of the output. -/
theorem specifier_file_chars {p : Path} (hp : ∀ x ∈ p.text.toList, P x) (output : Path) :
    ∀ x ∈ ((ModuleRef.file p).specifier output).toList, P x := by
  have hway : ∀ c ∈ relativeComponents (importDirectory output).components p.components,
      ∀ x ∈ c.text.toList, P x := by
    intro c hc
    unfold relativeComponents at hc
    rcases List.mem_append.mp hc with hc | hc
    · obtain rfl := List.eq_of_mem_replicate hc
      simpa [Component.text] using hdot
    · exact components_chars hslash hdot hp c (List.mem_of_mem_drop hc)
  simp only [ModuleRef.specifier, relative]
  exact toSpecifier_chars hslash hdot (ofComponents_chars hslash hway)

end Characters

end Path

end CallBridge
