import CallBridge.Proofs.Path.Location
import CallBridge.Proofs.Text.Pieces

/-! # The algebra of paths

Resolving a path leaves steps up in front, if the path does not begin at the root, and names behind
them. What is resolved stays as it is, resolving a part of a path first changes nothing, and the way
from one place to another leads there.
-/
namespace CallBridge

namespace Path

theorem components_ofComponents {cs : List Component}
    (hcs : ∀ c ∈ cs, c.Written) :
    (ofComponents cs).components = cs := by
  induction cs using List.reverseRecOn with
  | nil => rfl
  | append_singleton cs c ih =>
    rw [ofComponents_append_singleton, components_push _ (hcs c (by simp)),
      ih fun c hc => hcs c (by simp [hc])]

theorem components_of_resolved {absolute : Bool} {cs : List Component}
    (h : Component.Resolved absolute cs) : (ofComponents cs).components = cs := by
  cases h with
  | rooted hl => exact components_ofLocation hl
  | climbing k hl => exact components_ofComponents fun _ => Component.Written.of_mem_way hl

theorem components_normalize (p : Path) : p.normalize.components = resolve p.components :=
  components_of_resolved (resolved_resolve p)

theorem same_normalize_iff {p : Path} :
    p.normalize.same p = true ↔ resolve p.components = p.components := by
  rw [same, beq_iff_eq, components_normalize]

theorem resolved_normalize (p : Path) :
    Component.Resolved p.isAbsolute p.normalize.components := by
  rw [components_normalize]
  exact resolved_resolve p

theorem head?_climb_ne (k : ℕ) (l : Location) :
    (List.replicate k Component.parent ++ l.map Component.normal).head? ≠ some .root := by
  intro h
  have hmem := List.mem_of_mem_head? h
  simp [List.mem_replicate] at hmem

theorem normalize_normalize (p : Path) : p.normalize.normalize = p.normalize := by
  rw [normalize, components_normalize, resolve_of_resolved (resolved_resolve p), normalize]

theorem components_written {cs : List Component}
    (hcs : ∀ c ∈ cs, c.Written) :
    isAbsolute ⟨"/".intercalate (cs.map Component.text)⟩ = false ∧
      components ⟨"/".intercalate (cs.map Component.text)⟩ = cs := by
  have htext : ("/".intercalate (cs.map Component.text)).toList =
      ['/'].intercalate (cs.map fun c => c.text.toList) := by
    rw [String.toList_intercalate, List.map_map]
    rfl
  have hpieces : ∀ piece ∈ cs.map fun c => c.text.toList, '/' ∉ piece := by
    intro piece hpiece
    obtain ⟨c, hc, rfl⟩ := List.mem_map.mp hpiece
    exact (component?_text (hcs c hc)).1
  have hread : ∀ c ∈ cs, ∀ first, component? first c.text.toList = some c :=
    fun c hc => (component?_text (hcs c hc)).2
  cases cs with
  | nil => exact ⟨rfl, rfl⟩
  | cons c cs =>
    have hsplit := Text.splitAt_intercalate (by simp) hpieces
    have hrelative : isAbsolute ⟨"/".intercalate ((c :: cs).map Component.text)⟩ = false := by
      simp only [isAbsolute, htext, beq_eq_false_iff_ne]
      intro h
      obtain ⟨rest, hrest⟩ := List.head?_eq_some_iff.mp h
      rw [hrest, Text.splitAt, if_pos rfl, List.map_cons, List.cons.injEq] at hsplit
      simpa [← hsplit.1, component?] using hread c List.mem_cons_self false
    refine ⟨hrelative, ?_⟩
    have htail : (cs.map fun c => c.text.toList).filterMap (component? false) = cs := by
      rw [List.filterMap_map]
      exact (List.filterMap_congr fun c hc => hread c (List.mem_cons_of_mem _ hc) false).trans
        List.filterMap_some
    rw [components_eq_steps, hrelative, htext, hsplit, List.map_cons, steps,
      if_neg Bool.false_ne_true, htail, hread c List.mem_cons_self true]
    rfl

theorem endsWith_slash_eq_false {c : Component}
    (hc : c.Written) {s : String} {front : List Char}
    (hs : s.toList = front ++ c.text.toList) : s ≠ "" ∧ s.endsWith "/" = false := by
  obtain ⟨hslash, hread⟩ := component?_text hc
  have hne : c.text.toList ≠ [] := fun h => by simpa [h, component?] using hread false
  refine ⟨fun h => by simp [h, hne] at hs, ?_⟩
  rw [Bool.eq_false_iff, ne_eq, endsWith_iff, hs]
  rintro ⟨before, h⟩
  obtain ⟨rest, last, hlast⟩ := (List.eq_nil_or_concat' c.text.toList).resolve_left hne
  rw [hlast] at h hslash
  have hchar : last = '/' := by simpa using congrArg List.getLast? h
  exact hslash (by simp [hchar])

theorem text_ofComponents {cs : List Component}
    (hcs : ∀ c ∈ cs, c.Written) :
    (ofComponents cs).text = "/".intercalate (cs.map Component.text) := by
  induction cs using List.reverseRecOn with
  | nil => rfl
  | append_singleton cs c ih =>
    have hbase := ih fun d hd => hcs d (by simp [hd])
    have hrelative := isAbsolute_text (hcs c (by simp))
    rw [ofComponents_append_singleton, push, join, hrelative]
    rcases List.eq_nil_or_concat' cs with rfl | ⟨init, d, rfl⟩
    · simp [hbase]
    · obtain ⟨front, -, hjoin⟩ :=
        Text.exists_intercalate_append '/' (init.map fun c => c.text.toList)
      have hends : (ofComponents (init ++ [d])).text.toList = front ++ d.text.toList := by
        rw [hbase, String.toList_intercalate, ← hjoin]
        simp [Function.comp_def]
      obtain ⟨hempty, hopen⟩ := endsWith_slash_eq_false (hcs d (by simp)) hends
      have hwritten : "/".intercalate ((init ++ [d] ++ [c]).map Component.text) =
          "/".intercalate ((init ++ [d]).map Component.text) ++ "/" ++ c.text := by
        rw [List.map_append, ← String.toList_inj, String.toList_intercalate, List.map_append]
        simp only [String.toList_append, String.toList_intercalate]
        exact (Text.intercalate_append_singleton '/' (by simp) _).trans (by simp)
      rw [hwritten, ← hbase]
      simp [hempty, hopen]

theorem join_of_isAbsolute {p : Path} (hp : p.isAbsolute = true) (base : Path) :
    base.join p = p := by
  simp [join, hp]

/-- The steps of an appended path are taken from where the path before it leads. -/
theorem foldl_join {p : Path} (hp : p.isAbsolute = false) (base : Path) (done : List Component) :
    (base.join p).components.foldl resolveStep done =
      p.components.foldl resolveStep (base.components.foldl resolveStep done) := by
  by_cases hbase : base.text = ""
  · have hjoin : base.join p = p := by simp [join, hbase]
    have hnone : base.components = [] := by
      simp [components, isAbsolute, Text.splitAt, hbase, component?]
    rw [hjoin, hnone, List.foldl_nil]
  · rw [components_join hbase hp, List.foldl_append, components_eq_steps p, hp]
    generalize base.components.foldl resolveStep done = reached
    cases hsplit : Text.splitAt '/' p.text.toList with
    | nil => exact absurd hsplit (Text.splitAt_ne_nil _ _)
    | cons first rest =>
      rw [steps, if_neg Bool.false_ne_true, List.foldl_append, List.filterMap_cons]
      rcases component?_first first with hsame | ⟨hcurrent, hnone⟩
      · rw [hsame]
        cases component? false first <;> rfl
      · rw [hcurrent, hnone]
        simp

theorem normalize_join (base p : Path) :
    (base.join p).normalize = (base.normalize.join p).normalize := by
  cases hp : p.isAbsolute with
  | true => rw [join_of_isAbsolute hp, join_of_isAbsolute hp]
  | false =>
    have hbase : base.normalize.components.foldl resolveStep [] =
        base.components.foldl resolveStep [] := by
      rw [foldl_of_resolved (resolved_normalize base), components_normalize, resolve,
        List.reverse_reverse]
    rw [normalize, normalize, resolve, resolve, foldl_join hp, foldl_join hp, hbase]

theorem isAbsolute_join_of_isAbsolute {base : Path} (hbase : base.isAbsolute = true) (p : Path) :
    (base.join p).isAbsolute = true := by
  cases hp : p.isAbsolute with
  | true => rwa [join_of_isAbsolute hp]
  | false => rwa [isAbsolute_join (text_ne_of_isAbsolute hbase) hp]

theorem isAbsolute_ofComponents_root (cs : List Component) :
    (ofComponents (.root :: cs)).isAbsolute = true := by
  induction cs using List.reverseRecOn with
  | nil => rfl
  | append_singleton cs c ih =>
    rw [← List.cons_append, ofComponents_append_singleton]
    exact isAbsolute_join_of_isAbsolute ih _

/-- Every absolute path but the root has a directory, and that is absolute. -/
theorem exists_parent? {p : Path} (hp : p.isAbsolute = true) (hroot : p.components ≠ [.root]) :
    ∃ q, p.parent? = some q := by
  obtain ⟨steps, hsteps, hcs⟩ := components_cases p
  rw [hcs, hp] at hroot
  rw [parent?, hcs, hp]
  rcases List.eq_nil_or_concat' steps with rfl | ⟨init, c, rfl⟩
  · exact absurd rfl hroot
  · rw [if_pos rfl, ← List.append_assoc, List.getLast?_concat]
    rcases hsteps c (by simp) with rfl | rfl | ⟨n, -, rfl⟩ <;> exact ⟨_, rfl⟩

theorem isAbsolute_parent? {p q : Path} (hp : p.isAbsolute = true) (h : p.parent? = some q) :
    q.isAbsolute = true := by
  obtain ⟨steps, -, hcs⟩ := components_cases p
  rw [parent?, hcs, hp] at h
  rcases List.eq_nil_or_concat' steps with rfl | ⟨init, c, rfl⟩
  · cases h
  · rw [if_pos rfl, ← List.append_assoc, List.getLast?_concat, List.dropLast_concat] at h
    split at h
    · cases h
    · cases h
    · exact Option.some.inj h ▸ isAbsolute_ofComponents_root init

theorem absolutize_of_isAbsolute {p : Path} (hp : p.isAbsolute = true) (base : Path) :
    absolutize base p = p.normalize := by
  rw [absolutize, if_pos hp]

theorem absolutize_absolutize {base : Path} (hbase : base.isAbsolute = true) (p : Path) :
    absolutize base (absolutize base p) = absolutize base p := by
  have hlocated := located_absolutize hbase p
  rw [absolutize_of_isAbsolute hlocated.isAbsolute, hlocated.normalize_eq]

theorem commonLength_le (as bs : List Component) :
    commonLength as bs ≤ as.length ∧ commonLength as bs ≤ bs.length := by
  induction as, bs using commonLength.induct with
  | case1 a as bs ih =>
    simpa [commonLength] using ih
  | case2 a as b bs hab => simp [commonLength, hab]
  | case3 as bs hne => rw [commonLength.eq_2 as bs hne]; simp

theorem take_commonLength (as bs : List Component) :
    as.take (commonLength as bs) = bs.take (commonLength as bs) := by
  induction as, bs using commonLength.induct with
  | case1 a as bs ih => simpa [commonLength] using ih
  | case2 a as b bs hab => simp [commonLength, hab]
  | case3 as bs hne => rw [commonLength.eq_2 as bs hne]; simp

theorem prefix_take_commonLength {front as bs : List Component} (ha : front <+: as)
    (hb : front <+: bs) : front <+: as.take (commonLength as bs) := by
  refine List.prefix_take_iff.mpr ⟨ha, ?_⟩
  obtain ⟨as, rfl⟩ := ha
  obtain ⟨bs, rfl⟩ := hb
  induction front with
  | nil => exact Nat.zero_le _
  | cons c front ih => simpa [commonLength] using ih

theorem components_of_same_normalize {p : Path} (hp : p.isAbsolute = true)
    (hnormal : p.normalize.same p = true) :
    ∃ l : Location, p.components = .root :: l.map .normal := by
  have hresolved := resolved_normalize p
  rw [beq_iff_eq.mp hnormal, hp] at hresolved
  generalize p.components = cs at hresolved
  cases hresolved with
  | rooted hl => exact ⟨_, rfl⟩

theorem exists_shared (dl pl : Location) :
    ∃ shared left names : Location, dl = shared ++ left ∧ pl = shared ++ names ∧
      commonLength (dl.map .normal) (pl.map .normal) = shared.length := by
  have htake := take_commonLength (dl.map .normal) (pl.map .normal)
  have hshort := (commonLength_le (dl.map .normal) (pl.map .normal)).1
  generalize commonLength (dl.map .normal) (pl.map .normal) = k at htake hshort ⊢
  rw [← List.map_take, ← List.map_take] at htake
  have hshared := List.map_injective_iff.mpr (fun _ _ h => Component.normal.inj h) htake
  refine ⟨dl.take k, dl.drop k, pl.drop k, (List.take_append_drop k dl).symm, ?_, ?_⟩
  · rw [hshared, List.take_append_drop]
  · rw [List.length_map] at hshort
    exact (List.length_take_of_le hshort).symm

theorem relativeComponents_of_shared {as bs : List Component} {shared left names : Location}
    (ha : as = .root :: (shared ++ left).map .normal)
    (hb : bs = .root :: (shared ++ names).map .normal)
    (hshared : commonLength as bs = shared.length + 1) :
    relativeComponents as bs = List.replicate left.length .parent ++ names.map .normal := by
  rw [relativeComponents, hshared, ha, hb]
  simp

/-- A way climbs from names that are left behind, and goes down to others. -/
theorem foldl_way (shared left names : Location) :
    (List.replicate left.length Component.parent ++ names.map Component.normal).foldl resolveStep
        (Component.root :: (shared ++ left).map Component.normal).reverse =
      (Component.root :: (shared ++ names).map Component.normal).reverse := by
  have hbegin : (Component.root :: (shared ++ left).map Component.normal).reverse =
      left.reverse.map .normal ++ (Component.root :: shared.map Component.normal).reverse := by
    simp
  have hclimb := foldl_climb (Component.root :: shared.map Component.normal).reverse left.reverse
  rw [List.length_reverse] at hclimb
  rw [List.foldl_append, hbegin, hclimb, foldl_names]
  simp

theorem normalize_join_way {d way : Path} {shared left names : Location}
    (hd : d.normalize.components = .root :: (shared ++ left).map .normal)
    (hway : way.components = List.replicate left.length .parent ++ names.map .normal) :
    (d.join way).normalize = ofLocation (shared ++ names) := by
  have hrelative : way.isAbsolute = false := by
    rw [Bool.eq_false_iff, ne_eq, isAbsolute_iff, hway]
    exact head?_climb_ne _ _
  rw [normalize_join, normalize, resolve, foldl_join hrelative,
    foldl_of_resolved (resolved_normalize d), hd, hway, foldl_way, List.reverse_reverse]
  rfl

/-- The way climbs to where both paths part, and goes down from there. -/
theorem exists_way {d p : Path} {dl pl : Location} (hd : d.components = .root :: dl.map .normal)
    (hp : p.components = .root :: pl.map .normal) :
    ∃ shared left names : Location, dl = shared ++ left ∧ pl = shared ++ names ∧
      (∀ front, front <+: d.components → front <+: p.components →
        front <+: .root :: shared.map .normal) ∧
      (relative d p).components = List.replicate left.length .parent ++ names.map .normal := by
  obtain ⟨shared, left, names, rfl, rfl, hshared⟩ := exists_shared dl pl
  have hcommon : commonLength d.components p.components = shared.length + 1 := by
    rw [hd, hp, commonLength, if_pos rfl, hshared]
  refine ⟨shared, left, names, rfl, rfl, fun front hfd hfp => ?_, ?_⟩
  · have hfront := prefix_take_commonLength hfd hfp
    rw [hcommon, hd] at hfront
    simpa using hfront
  · rw [relative, relativeComponents_of_shared hd hp hcommon]
    exact components_of_resolved (.climbing _ fun n hn =>
      isFileName_of_components hp n (List.mem_append_right _ hn))

variable {base d p : Path}

/-- Normalization resolves steps up where it can and keeps the place that a path leads to, also of
a part of a path. What is made absolute stays as it is, and the way from one place to another one
climbs as little as it can and leads there. -/
theorem lexical_algebra (a b : Path) (hbase : base.isAbsolute = true)
    (hd : d.isAbsolute = true) (hdn : d.normalize.same d = true)
    (hp : p.isAbsolute = true) (hpn : p.normalize.same p = true) :
    (Component.Resolved a.isAbsolute a.normalize.components ∧ a.normalize.normalize = a.normalize) ∧
      (a.join b).normalize = (a.normalize.join b).normalize ∧
      ((absolutize base b).isAbsolute = true ∧ (absolutize base b).normalize = absolutize base b ∧
        absolutize base (absolutize base b) = absolutize base b) ∧
      (d.join (relative d p)).normalize.same p = true ∧
      ∃ (shared left : List Component) (names : Location),
        d.components = shared ++ left ∧ p.components = shared ++ names.map .normal ∧
        (∀ front, front <+: d.components → front <+: p.components → front <+: shared) ∧
        (relative d p).components = List.replicate left.length .parent ++ names.map .normal := by
  obtain ⟨dl, hdl⟩ := components_of_same_normalize hd hdn
  obtain ⟨pl, hpl⟩ := components_of_same_normalize hp hpn
  have hread := located_absolutize hbase b
  obtain ⟨shared, left, names, rfl, rfl, hlongest, hway⟩ := exists_way hdl hpl
  have hleads : (d.join (relative d p)).normalize = ofLocation (shared ++ names) :=
    normalize_join_way ((beq_iff_eq.mp hdn).trans hdl) hway
  refine ⟨⟨resolved_normalize a, normalize_normalize a⟩, normalize_join a b,
    ⟨hread.isAbsolute, hread.normalize_eq, absolutize_absolutize hbase b⟩, ?_,
    .root :: shared.map .normal, left.map .normal, names, ?_, ?_, hlongest, ?_⟩
  · rw [same, beq_iff_eq, hleads, components_ofLocation (isFileName_of_components hpl), hpl]
  · rw [hdl, List.map_append, List.cons_append]
  · rw [hpl, List.map_append, List.cons_append]
  · rw [hway, List.length_map]

theorem lexical_algebra_nested :
    let base : Path := ⟨"/work/./app"⟩
    let d : Path := ⟨"/work/app/out"⟩
    let p : Path := ⟨"/work/app//src/user.ts"⟩
    (base.isAbsolute = true ∧ d.isAbsolute = true ∧ d.normalize.same d = true ∧
      p.isAbsolute = true ∧ p.normalize.same p = true) ∧
      absolutize base (absolutize base ⟨"../out"⟩) = absolutize base ⟨"../out"⟩ ∧
      (d.join (relative d p)).normalize.same p = true := by
  intro base d p
  have hd : d.normalize.same d = true := same_normalize_iff.mpr (by decide)
  have hp : p.normalize.same p = true := same_normalize_iff.mpr (by decide)
  obtain ⟨-, -, ⟨-, -, hstays⟩, hway, -⟩ := lexical_algebra ⟨"../x/./..//y"⟩ ⟨"../out"⟩
    (by decide : base.isAbsolute = true) (by decide) hd (by decide) hp
  exact ⟨⟨by decide, by decide, hd, by decide, hp⟩, hstays, hway⟩

end Path

end CallBridge
