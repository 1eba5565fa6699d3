import CallBridge.Discovery
import Mathlib.Data.List.Basic
import Mathlib.Data.List.Induction
import Mathlib.Tactic.Common

/-! # Components of a path

A path is read as the steps between its separators. What is appended to it adds its own steps, and
resolving steps leaves names below the root, or steps up with names behind them.
-/
namespace CallBridge

namespace Text

theorem splitAt_of_notMem {c : Char} {cs : List Char} (h : c ∉ cs) : splitAt c cs = [cs] := by
  induction cs with
  | nil => rfl
  | cons d ds ih =>
    simp only [List.mem_cons, not_or] at h
    simp only [splitAt, if_neg (Ne.symm h.1), ih h.2]

theorem splitAt_ne_nil (c : Char) (cs : List Char) : splitAt c cs ≠ [] := by
  cases cs with
  | nil => simp [splitAt]
  | cons d ds =>
    unfold splitAt
    split_ifs
    · simp
    · cases splitAt c ds <;> simp

/-- A separator cuts the pieces in front of it from those behind it. -/
theorem splitAt_append_cons (c : Char) (front back : List Char) :
    splitAt c (front ++ c :: back) = splitAt c front ++ splitAt c back := by
  induction front with
  | nil => simp [splitAt]
  | cons d ds ih =>
    simp only [List.cons_append, splitAt, ih]
    split_ifs
    · rfl
    · cases hds : splitAt c ds with
      | nil => exact absurd hds (splitAt_ne_nil c ds)
      | cons p ps => rfl

/-- Pieces without separators are read from the text that joins them. -/
theorem splitAt_intercalate {c : Char} {pieces : List (List Char)} (hne : pieces ≠ [])
    (h : ∀ piece ∈ pieces, c ∉ piece) : splitAt c ([c].intercalate pieces) = pieces := by
  induction pieces with
  | nil => exact absurd rfl hne
  | cons piece pieces ih =>
    have hpiece := splitAt_of_notMem (h piece List.mem_cons_self)
    cases pieces with
    | nil => simpa using hpiece
    | cons next pieces =>
      rw [List.intercalate_cons_of_ne_nil (by simp), List.append_assoc, List.singleton_append,
        splitAt_append_cons, hpiece, ih (by simp) fun p hp => h p (List.mem_cons_of_mem _ hp)]
      rfl

theorem notMem_of_mem_splitAt {c : Char} {piece cs : List Char} (h : piece ∈ splitAt c cs) :
    c ∉ piece := by
  induction cs generalizing piece with
  | nil =>
    obtain rfl := List.mem_singleton.mp h
    exact List.not_mem_nil
  | cons d ds ih =>
    unfold splitAt at h
    split_ifs at h with hd
    · rcases List.mem_cons.mp h with rfl | h
      · exact List.not_mem_nil
      · exact ih h
    · cases hds : splitAt c ds with
      | nil => exact absurd hds (splitAt_ne_nil c ds)
      | cons p ps =>
        simp only [hds] at h ih
        rcases List.mem_cons.mp h with rfl | h
        · simp only [List.mem_cons, not_or]
          exact ⟨Ne.symm hd, ih List.mem_cons_self⟩
        · exact ih (List.mem_cons_of_mem _ h)

end Text

theorem isFileName_iff {n : String} :
    isFileName n = true ↔ n ≠ "" ∧ n ≠ "." ∧ n ≠ ".." ∧ '/' ∉ n.toList := by
  simp [isFileName, and_assoc]

def Component.Written (c : Component) : Prop :=
  c = .parent ∨ ∃ n, isFileName n = true ∧ c = .normal n

def Component.Leads (c : Component) : Prop :=
  c = .current ∨ c.Written

/-- Nothing is left to resolve: names below the root, or steps up with names behind them. The flag
tells whether the steps begin at the root. -/
inductive Component.Resolved : Bool → List Component → Prop
  | rooted {l : Location} (hl : ∀ n ∈ l, isFileName n = true) :
      Resolved true (.root :: l.map .normal)
  | climbing (k : ℕ) {l : Location} (hl : ∀ n ∈ l, isFileName n = true) :
      Resolved false (List.replicate k .parent ++ l.map .normal)

theorem Component.Written.of_mem_way {k : ℕ} {l : Location} (hl : ∀ n ∈ l, isFileName n = true)
    {c : Component} (hc : c ∈ List.replicate k .parent ++ l.map .normal) : c.Written := by
  rcases List.mem_append.mp hc with hc | hc
  · exact .inl (List.eq_of_mem_replicate hc)
  · obtain ⟨n, hn, rfl⟩ := List.mem_map.mp hc
    exact .inr ⟨n, hl n hn, rfl⟩

namespace Path

def steps (absolute : Bool) : List (List Char) → List Component
  | [] => []
  | first :: rest =>
    let tail := rest.filterMap (component? false)
    if absolute then .root :: tail else (component? true first).toList ++ tail

theorem components_eq_steps (p : Path) :
    p.components = steps p.isAbsolute (Text.splitAt '/' p.text.toList) := by
  unfold components steps
  cases Text.splitAt '/' p.text.toList <;> rfl

theorem steps_append (absolute : Bool) {pieces : List (List Char)} (h : pieces ≠ [])
    (more : List (List Char)) :
    steps absolute (pieces ++ more) = steps absolute pieces ++ more.filterMap (component? false) := by
  cases pieces with
  | nil => exact absurd rfl h
  | cons first rest =>
    cases absolute <;> simp only [List.cons_append, steps, List.filterMap_append] <;> simp

theorem component?_of_isFileName (first : Bool) {n : String} (hn : isFileName n = true) :
    component? first n.toList = some (.normal n) := by
  obtain ⟨hempty, hdot, hdots, -⟩ := isFileName_iff.mp hn
  unfold component?
  split
  · next h => exact absurd (String.toList_inj.mp h) hempty
  · next h => exact absurd (String.toList_inj.mp h) hdot
  · next h => exact absurd (String.toList_inj.mp h) hdots
  · rw [String.ofList_toList]

/-- A piece stands for a step up or for a name that a file can have, unless it stands for none. -/
theorem component?_cases {piece : List Char} (h : '/' ∉ piece) :
    component? false piece = none ∨ component? false piece = some .parent ∨
      ∃ n, isFileName n = true ∧ component? false piece = some (.normal n) := by
  unfold component?
  split
  · exact .inl rfl
  · exact .inl rfl
  · exact .inr (.inl rfl)
  · next hempty hdot hdots =>
    refine .inr (.inr ⟨_, isFileName_iff.mpr ⟨?_, ?_, ?_, by simpa using h⟩, rfl⟩) <;>
      intro he <;> have he := congrArg String.toList he <;> simp only [String.toList_ofList] at he
    · exact hempty he
    · exact hdot he
    · exact hdots he

/-- A dot in front is a step that leads nowhere, and no step elsewhere. -/
theorem component?_first (piece : List Char) :
    component? true piece = component? false piece ∨
      component? true piece = some .current ∧ component? false piece = none := by
  unfold component?
  split
  · exact .inl rfl
  · exact .inr ⟨rfl, rfl⟩
  · exact .inl rfl
  · exact .inl rfl

theorem leads_of_component? {first : Bool} {piece : List Char} {c : Component}
    (hpiece : '/' ∉ piece) (h : component? first piece = some c) : c.Leads := by
  have hbehind : ∀ {c}, component? false piece = some c → c.Leads := by
    intro c h
    rcases component?_cases hpiece with hread | hread | ⟨n, hn, hread⟩
    · simp [hread] at h
    · exact .inr (.inl (Option.some.inj (h.symm.trans hread)))
    · exact .inr (.inr ⟨n, hn, Option.some.inj (h.symm.trans hread)⟩)
  cases first with
  | false => exact hbehind h
  | true =>
    rcases component?_first piece with hsame | ⟨hcurrent, -⟩
    · exact hbehind (hsame ▸ h)
    · exact .inl (Option.some.inj (h.symm.trans hcurrent))

theorem components_cases (p : Path) :
    ∃ steps : List Component, (∀ c ∈ steps, c.Leads) ∧
      p.components = (if p.isAbsolute then [.root] else []) ++ steps := by
  have hpieces : ∀ piece ∈ Text.splitAt '/' p.text.toList, '/' ∉ piece :=
    fun _ => Text.notMem_of_mem_splitAt
  rw [components_eq_steps]
  cases hsplit : Text.splitAt '/' p.text.toList with
  | nil => exact absurd hsplit (Text.splitAt_ne_nil _ _)
  | cons first rest =>
    rw [hsplit] at hpieces
    have htail : ∀ c ∈ rest.filterMap (component? false), c.Leads := by
      intro c hc
      obtain ⟨piece, hpiece, hread⟩ := List.mem_filterMap.mp hc
      exact leads_of_component? (hpieces piece (.tail _ hpiece)) hread
    unfold steps
    split_ifs
    · exact ⟨_, htail, rfl⟩
    · refine ⟨_, fun c hc => ?_, rfl⟩
      rcases List.mem_append.mp hc with hc | hc
      · exact leads_of_component? (hpieces first List.mem_cons_self) (Option.mem_toList.mp hc)
      · exact htail c hc

theorem isAbsolute_iff {p : Path} : p.isAbsolute = true ↔ p.components.head? = some .root := by
  obtain ⟨steps, hsteps, hp⟩ := components_cases p
  rw [hp]
  cases hroot : p.isAbsolute with
  | true => simp
  | false =>
    refine iff_of_false (by simp) fun h => ?_
    have hmem : Component.root ∈ steps := List.mem_of_mem_head? (by simpa using h)
    rcases hsteps _ hmem with hc | hc | ⟨n, -, hc⟩ <;> cases hc

theorem isFileName_of_components {p : Path} {l : Location}
    (hp : p.components = .root :: l.map .normal) : ∀ n ∈ l, isFileName n = true := by
  have habsolute : p.isAbsolute = true := by rw [isAbsolute_iff, hp, List.head?_cons]
  obtain ⟨steps, hsteps, hcs⟩ := components_cases p
  rw [hp, habsolute] at hcs
  obtain rfl : l.map Component.normal = steps := (List.cons.inj hcs).2
  intro n hn
  rcases hsteps _ (List.mem_map_of_mem hn) with h | h | ⟨m, hm, h⟩
  · cases h
  · cases h
  · rwa [Component.normal.inj h]

theorem endsWith_iff {s pat : String} :
    s.endsWith pat = true ↔ ∃ front, s.toList = front ++ pat.toList := by
  rw [String.endsWith_eq_endsWith_toSlice, String.Slice.endsWith_string_iff, String.copy_toSlice]
  constructor
  · rintro ⟨front, h⟩
    exact ⟨front, h.symm⟩
  · rintro ⟨front, h⟩
    exact ⟨front, h.symm⟩

variable {base p : Path} {n : String}

theorem text_ne_of_isAbsolute (hp : p.isAbsolute = true) : p.text ≠ "" := by
  intro h
  simp [isAbsolute, h] at hp

/-- One separator stands between a path and what is appended to it. -/
theorem toList_join (hbase : base.text ≠ "") (hp : p.isAbsolute = false) :
    (∃ front, base.text.toList = front ++ ['/'] ∧
      (base.join p).text.toList = front ++ '/' :: p.text.toList) ∨
    (base.join p).text.toList = base.text.toList ++ '/' :: p.text.toList := by
  by_cases hslash : base.text.endsWith "/" = true
  · obtain ⟨front, hfront⟩ := endsWith_iff.mp hslash
    refine .inl ⟨front, hfront, ?_⟩
    simp [join, hp, hbase, hslash, hfront]
  · refine .inr ?_
    simp [join, hp, hbase, hslash]

theorem isAbsolute_join (hbase : base.text ≠ "") (hp : p.isAbsolute = false) :
    (base.join p).isAbsolute = base.isAbsolute := by
  unfold isAbsolute at hp ⊢
  rcases toList_join hbase hp with ⟨front, hfront, ht⟩ | ht
  · rw [ht, hfront]
    cases front <;> rfl
  · rw [ht]
    cases hl : base.text.toList with
    | nil => exact absurd (String.toList_inj.mp hl) hbase
    | cons c cs => rfl

theorem components_join (hbase : base.text ≠ "") (hp : p.isAbsolute = false) :
    (base.join p).components =
      base.components ++ (Text.splitAt '/' p.text.toList).filterMap (component? false) := by
  rw [components_eq_steps, components_eq_steps, isAbsolute_join hbase hp]
  rcases toList_join hbase hp with ⟨front, hfront, ht⟩ | ht
  · have hpieces := steps_append base.isAbsolute (Text.splitAt_ne_nil '/' front)
    rw [ht, hfront, Text.splitAt_append_cons, Text.splitAt_append_cons, hpieces, hpieces]
    simp [Text.splitAt, component?]
  · rw [ht, Text.splitAt_append_cons, steps_append _ (Text.splitAt_ne_nil '/' _)]

theorem push_normal (p : Path) (n : String) : p.push (.normal n) = p.join ⟨n⟩ :=
  rfl

theorem component?_text {c : Component}
    (hc : c.Written) :
    '/' ∉ c.text.toList ∧ ∀ first, component? first c.text.toList = some c := by
  rcases hc with rfl | ⟨n, hn, rfl⟩
  · exact ⟨by decide, fun _ => rfl⟩
  · exact ⟨(isFileName_iff.mp hn).2.2.2, fun first => component?_of_isFileName first hn⟩

theorem isAbsolute_text {c : Component}
    (hc : c.Written) : isAbsolute ⟨c.text⟩ = false := by
  simp only [isAbsolute, beq_eq_false_iff_ne]
  exact fun h => (component?_text hc).1 (List.mem_of_mem_head? h)

theorem isAbsolute_of_isFileName (hn : isFileName n = true) : isAbsolute ⟨n⟩ = false :=
  isAbsolute_text (.inr ⟨n, hn, rfl⟩)

theorem components_push (p : Path) {c : Component}
    (hc : c.Written) :
    (p.push c).components = p.components ++ [c] := by
  obtain ⟨hslash, hread⟩ := component?_text hc
  have hrelative := isAbsolute_text hc
  have hpiece := Text.splitAt_of_notMem hslash
  by_cases hp : p.text = ""
  · have hpush : p.push c = ⟨c.text⟩ := by simp [push, join, hp]
    have hnone : p.components = [] := by
      rw [components_eq_steps, hp]
      simp [Text.splitAt, steps, isAbsolute, hp, component?]
    rw [hpush, hnone, components_eq_steps, hrelative]
    simp [hpiece, steps, hread]
  · rw [push, components_join hp hrelative, hpiece]
    simp [hread]

/-- A path that ends in a name is not written like that of a directory. -/
theorem namesDirectory_push (hp : p.text ≠ "") (hn : isFileName n = true) :
    (p.push (.normal n)).namesDirectory = false := by
  obtain ⟨hempty, hdot, -, hslash⟩ := isFileName_iff.mp hn
  have htext : ∃ front, (p.join ⟨n⟩).text.toList = front ++ n.toList := by
    rcases toList_join hp (isAbsolute_of_isFileName hn) with ⟨front, -, ht⟩ | ht
    · exact ⟨front ++ ['/'], by simpa using ht⟩
    · exact ⟨p.text.toList ++ ['/'], by simpa using ht⟩
  obtain ⟨front, htext⟩ := htext
  rw [push_normal, Bool.eq_false_iff, ne_eq, namesDirectory, Bool.or_eq_true, endsWith_iff, endsWith_iff, htext]
  rcases List.eq_nil_or_concat' n.toList with hn | ⟨init, last, hn⟩
  · exact absurd (String.toList_inj.mp hn) hempty
  rw [hn] at hslash ⊢
  rintro (⟨before, h⟩ | ⟨before, h⟩)
  · have hlast : last = '/' := by simpa using congrArg List.getLast? h
    exact hslash (by simp [hlast])
  · have hlast : last = '.' := by simpa using congrArg List.getLast? h
    rcases List.eq_nil_or_concat' init with hinit | ⟨rest, previous, hinit⟩
    · exact hdot (String.toList_inj.mp (by rw [hn, hinit, hlast]; rfl))
    · have hprevious : previous = '/' := by
        simpa [hinit] using congrArg (fun cs => cs.dropLast.getLast?) h
      exact hslash (by simp [hinit, hprevious])

@[simp]
theorem resolveStep_current (done : List Component) : resolveStep done .current = done := by
  unfold resolveStep
  split <;> simp_all

@[simp]
theorem resolveStep_normal (done : List Component) (n : String) :
    resolveStep done (.normal n) = .normal n :: done := by
  unfold resolveStep
  split <;> simp_all

theorem foldl_names (done : List Component) (l : Location) :
    (l.map Component.normal).foldl resolveStep done = (l.map Component.normal).reverse ++ done := by
  induction l generalizing done with
  | nil => rfl
  | cons n l ih =>
    rw [List.map_cons, List.foldl_cons, resolveStep_normal, ih]
    simp

@[simp]
theorem resolveStep_normal_parent (done : List Component) (n : String) :
    resolveStep (.normal n :: done) .parent = done :=
  rfl

theorem foldl_climb (done : List Component) (l : Location) :
    (List.replicate l.length Component.parent).foldl resolveStep (l.map .normal ++ done) = done := by
  induction l with
  | nil => rfl
  | cons n l ih =>
    rw [List.length_cons, List.replicate_succ, List.map_cons, List.cons_append, List.foldl_cons,
      resolveStep_normal_parent, ih]

/-- Steps up are kept where nothing but steps up stands before them. -/
theorem foldl_climb_replicate (i k : ℕ) :
    (List.replicate k Component.parent).foldl resolveStep (List.replicate i .parent) =
      List.replicate (i + k) .parent := by
  induction k generalizing i with
  | zero => rfl
  | succ k ih =>
    have hstep : resolveStep (List.replicate i .parent) .parent = List.replicate (i + 1) .parent := by
      cases i <;> rfl
    rw [List.replicate_succ, List.foldl_cons, hstep, ih, Nat.add_right_comm, Nat.add_assoc]

theorem resolveStep_resolved {absolute : Bool} {done : List Component} {c : Component}
    (hdone : Component.Resolved absolute done.reverse) (hc : c.Leads) :
    Component.Resolved absolute (resolveStep done c).reverse := by
  obtain ⟨cs, rfl⟩ : ∃ cs : List Component, done = cs.reverse :=
    ⟨_, (List.reverse_reverse done).symm⟩
  rw [List.reverse_reverse] at hdone
  rcases hc with rfl | rfl | ⟨n, hn, rfl⟩
  · simpa using hdone
  · cases hdone with
    | @rooted l hl =>
      rcases List.eq_nil_or_concat' l with rfl | ⟨l, n, rfl⟩
      · exact .rooted hl
      · have hback : resolveStep (Component.root :: (l ++ [n]).map .normal).reverse .parent =
            (Component.root :: l.map Component.normal).reverse := by simp
        rw [hback, List.reverse_reverse]
        exact .rooted fun m hm => hl m (by simp [hm])
    | @climbing k l hl =>
      rcases List.eq_nil_or_concat' l with rfl | ⟨l, n, rfl⟩
      · have hup : resolveStep (List.replicate k Component.parent ++ []).reverse .parent =
            List.replicate (k + 1) .parent := by
          simpa using foldl_climb_replicate k 1
        rw [List.map_nil, hup]
        simpa using Component.Resolved.climbing (k + 1) (l := []) (by simp)
      · have hback : resolveStep
            (List.replicate k Component.parent ++ (l ++ [n]).map Component.normal).reverse .parent =
              (List.replicate k Component.parent ++ l.map Component.normal).reverse := by simp
        rw [hback, List.reverse_reverse]
        exact .climbing k fun m hm => hl m (by simp [hm])
  · rw [resolveStep_normal, List.reverse_cons, List.reverse_reverse]
    have hnames : ∀ {l : Location}, (∀ m ∈ l, isFileName m = true) →
        ∀ m ∈ l ++ [n], isFileName m = true := by
      intro l hl m hm
      rcases List.mem_append.mp hm with hm | hm
      · exact hl m hm
      · rwa [List.mem_singleton.mp hm]
    cases hdone with
    | rooted hl => simpa using Component.Resolved.rooted (hnames hl)
    | climbing k hl => simpa using Component.Resolved.climbing k (hnames hl)

theorem foldl_resolved {absolute : Bool} {cs done : List Component}
    (hdone : Component.Resolved absolute done.reverse) (hcs : ∀ c ∈ cs, c.Leads) :
    Component.Resolved absolute (cs.foldl resolveStep done).reverse := by
  induction cs generalizing done with
  | nil => exact hdone
  | cons c cs ih =>
    exact ih (resolveStep_resolved hdone (hcs c List.mem_cons_self))
      fun d hd => hcs d (List.mem_cons_of_mem _ hd)

theorem resolved_resolve (p : Path) : Component.Resolved p.isAbsolute (resolve p.components) := by
  obtain ⟨steps, hsteps, hp⟩ := components_cases p
  rw [resolve, hp]
  cases p.isAbsolute with
  | true =>
    have hroot : Component.Resolved true ([.root] : List Component).reverse :=
      .rooted (l := []) (by simp)
    have hall := foldl_resolved hroot hsteps
    exact hall
  | false =>
    have hnone : Component.Resolved false ([] : List Component).reverse :=
      .climbing 0 (l := []) (by simp)
    exact foldl_resolved hnone hsteps

theorem foldl_of_resolved {absolute : Bool} {cs : List Component}
    (h : Component.Resolved absolute cs) : cs.foldl resolveStep [] = cs.reverse := by
  cases h with
  | rooted hl =>
    rw [List.foldl_cons]
    exact (foldl_names [.root] _).trans (by simp)
  | climbing k hl =>
    rw [List.foldl_append, ← List.replicate_zero (a := Component.parent), foldl_climb_replicate,
      foldl_names]
    simp

theorem resolve_of_resolved {absolute : Bool} {cs : List Component}
    (h : Component.Resolved absolute cs) : resolve cs = cs := by
  rw [resolve, foldl_of_resolved h, List.reverse_reverse]

end Path

end CallBridge
