import CallBridge.Proofs.Generated.Forwarding
import CallBridge.Proofs.Text.Written

/-! # What the text of the bridge says

Every part of the bridge can be read off its text: a parameter ends at its colon and its type, a
parameter list at its bracket, a forwarder behind the literal of its channel and its arguments, an
object at its closing line. So the text says which calls the surface has, and no more than that.
-/
namespace CallBridge

/-- Calls give the parameters the same names and marks. A rest parameter may be left out in any
case. -/
structure Parameter.SameMarks (p q : Parameter) : Prop where
  name : p.name = q.name
  rest : p.rest = q.rest
  optional : p.rest = false → p.optional = q.optional

/-- Calls of the methods are written in the same way, and answered in the same way. -/
structure Method.SameCall (m n : Method) : Prop where
  namespaceName : m.namespaceName = n.namespaceName
  name : m.name = n.name
  stream : m.shape.isStream = n.shape.isStream
  parameters : List.Forall₂ Parameter.SameMarks m.parameters n.parameters

/-- The surfaces have the same namespaces, and in each of them the same calls. -/
structure Surface.SameCalls (s t : Surface) : Prop where
  namespaces : s.namespaces = t.namespaces
  methods : ∀ name, List.Forall₂ Method.SameCall (s.methodsOf name) (t.methodsOf name)

/-- The method and its parameters have names as programs have them. -/
structure Method.WellNamed (m : Method) : Prop where
  name : Text.IsName m.name
  parameters : ∀ p ∈ m.parameters, Text.IsName p.name

instance (m : Method) : Decidable m.WellNamed :=
  decidable_of_iff (Text.IsName m.name ∧ ∀ p ∈ m.parameters, Text.IsName p.name)
    ⟨fun h => ⟨h.1, h.2⟩, fun h => ⟨h.name, h.parameters⟩⟩

namespace Generated

open Text (Delimits IsName delimits_literal cut_inj)

namespace ForwardedParameter

/-- What the text shows of a parameter: no optional mark on a rest parameter. -/
def shown (p : ForwardedParameter) : ForwardedParameter :=
  { p with optional := p.optional && !p.rest }

@[simp]
theorem text_shown (p : ForwardedParameter) : p.shown.text = p.text := by
  unfold shown text
  cases p.rest <;> simp

@[simp]
theorem argument_shown (p : ForwardedParameter) : p.shown.argument = p.argument :=
  rfl

/-- The parameter as it stands in front of its type. -/
def marked (p : ForwardedParameter) : List Char :=
  (if p.rest then "...".toList else []) ++ (p.name.toList ++
    if p.optional && !p.rest then ['?'] else [])

theorem toList_text (p : ForwardedParameter) :
    p.text.toList = p.marked ++ ':' :: (if p.rest then " unknown[]" else " unknown").toList := by
  unfold text marked
  cases p.rest <;> cases p.optional <;> simp

theorem head?_marked {p : ForwardedParameter} (hp : IsName p.name) :
    p.marked.head? = some '.' ↔ p.rest = true := by
  obtain ⟨c, cs, hname, hdot⟩ := hp.exists_cons (d := '.') (by decide)
  unfold marked
  cases p.rest <;> simp [hname, hdot]

theorem mark_mem_marked {p : ForwardedParameter} (hp : IsName p.name) :
    '?' ∈ p.marked ↔ (p.optional && !p.rest) = true := by
  have hname : '?' ∉ p.name.toList := hp.notMem (by decide)
  unfold marked
  cases p.rest <;> cases p.optional <;> simp [hname]

theorem shown_eq_of_marked {p q : ForwardedParameter} (hp : IsName p.name) (hq : IsName q.name)
    (h : p.marked = q.marked) : p.shown = q.shown := by
  have hrest : p.rest = q.rest := by
    rw [Bool.eq_iff_iff, ← head?_marked hp, ← head?_marked hq, h]
  have hoptional : (p.optional && !p.rest) = (q.optional && !q.rest) := by
    rw [Bool.eq_iff_iff, ← mark_mem_marked hp, ← mark_mem_marked hq, h]
  have hname : p.name = q.name := by
    unfold marked at h
    rw [hoptional, hrest] at h
    exact String.toList_inj.mp (List.append_cancel_right (List.append_cancel_left h))
  rw [shown, shown, hname, hoptional, hrest]

theorem colon_notMem_marked {p : ForwardedParameter} (hp : IsName p.name) : ':' ∉ p.marked := by
  have hname : ':' ∉ p.name.toList := hp.notMem (by decide)
  unfold marked
  cases p.rest <;> cases p.optional <;> simp [hname]

theorem delimits_text : Delimits (fun p : ForwardedParameter => IsName p.name) shown
    fun p => p.text.toList := by
  intro p q hp hq s t h
  simp only [toList_text, List.append_assoc, List.cons_append] at h
  obtain ⟨hmarked, hrest⟩ := cut_inj (colon_notMem_marked hp) (colon_notMem_marked hq) h
  have hshown := shown_eq_of_marked hp hq hmarked
  have hsame : p.rest = q.rest := by simpa [shown] using congrArg rest hshown
  rw [hsame] at hrest
  exact ⟨hshown, List.append_cancel_left hrest⟩

theorem text_ne_stop {p : ForwardedParameter} (hp : IsName p.name) (r r' : List Char) :
    p.text.toList ++ r ≠ [')'] ++ r' := by
  intro h
  have hhead := congrArg List.head? h
  obtain ⟨c, cs, hname, hstop⟩ := hp.exists_cons (d := ')') (by decide)
  rw [toList_text] at hhead
  unfold marked at hhead
  cases hrest : p.rest <;> simp_all

def listed (ps : List ForwardedParameter) : List Char :=
  (", ".intercalate (ps.map text)).toList ++ [')']

theorem delimits_listed :
    Delimits (fun ps => ∀ p ∈ ps, IsName p.name) (List.map shown) listed := by
  have hlisted : listed = fun ps =>
      ", ".toList.intercalate (ps.map fun p => p.text.toList) ++ [')'] := by
    funext ps
    simp [listed, String.toList_intercalate, Function.comp_def]
  rw [hlisted]
  exact delimits_text.intercalate (fun p hp => text_ne_stop hp) (by simp)

def trailing (ps : List ForwardedParameter) : List Char :=
  (ps.map fun p => p.argument.toList).flatMap (", ".toList ++ ·)

theorem trailing_shown (ps : List ForwardedParameter) : trailing (ps.map shown) = trailing ps := by
  simp [trailing, Function.comp_def]

end ForwardedParameter

namespace Forwarder

def shown (w : Forwarder) : Forwarder :=
  { w with parameters := w.parameters.map ForwardedParameter.shown }

@[simp]
theorem text_shown (w : Forwarder) : w.shown.text = w.text := by
  have htexts : w.shown.parameters.map ForwardedParameter.text =
      w.parameters.map ForwardedParameter.text := by
    simp [shown, Function.comp_def]
  have harguments : w.shown.parameters.map ForwardedParameter.argument =
      w.parameters.map ForwardedParameter.argument := by
    simp [shown, Function.comp_def]
  rw [text, htexts, harguments]
  rfl

structure WellNamed (w : Forwarder) : Prop where
  name : IsName w.name
  parameters : ∀ p ∈ w.parameters, IsName p.name

theorem wellNamed_ofMethod {m : Method} (hm : m.WellNamed) : (ofMethod m).WellNamed := by
  refine ⟨hm.name, fun p hp => ?_⟩
  obtain ⟨q, hq, rfl⟩ := List.mem_map.mp hp
  exact hm.parameters q hq

theorem toList_text (w : Forwarder) :
    w.text.toList = w.name.toList ++ ':' :: (" (".toList ++ (ForwardedParameter.listed w.parameters ++
      (" => ".toList ++ (w.callee.toList ++ ("(".toList ++ ((Text.literal w.key).toList ++
        (ForwardedParameter.trailing w.parameters ++ ")".toList))))))) := by
  have htext : w.text = w.name ++ ": (" ++
      ", ".intercalate (w.parameters.map ForwardedParameter.text) ++ ") => " ++ w.callee ++ "(" ++
      ", ".intercalate (Text.literal w.key :: w.parameters.map ForwardedParameter.argument) ++ ")" :=
    rfl
  have harguments : (", ".intercalate
      (Text.literal w.key :: w.parameters.map ForwardedParameter.argument)).toList =
        (Text.literal w.key).toList ++ ForwardedParameter.trailing w.parameters := by
    rw [String.toList_intercalate, List.map_cons, Text.intercalate_cons,
      ForwardedParameter.trailing, List.map_map]
    rfl
  rw [htext]
  simp only [String.toList_append, harguments, ForwardedParameter.listed, List.append_assoc]
  rfl

theorem callee_append_inj {v w : Forwarder} {s t : List Char}
    (h : v.callee.toList ++ s = w.callee.toList ++ t) : v.stream = w.stream ∧ s = t := by
  unfold callee at h
  cases hv : v.stream <;> cases hw : w.stream <;> simp_all [invokeName, iterateName]

theorem delimits_text : Delimits WellNamed shown fun w => w.text.toList := by
  intro v w hv hw s t h
  simp only [toList_text, List.append_assoc, List.cons_append] at h
  obtain ⟨hname, h⟩ := cut_inj (hv.name.notMem (by decide)) (hw.name.notMem (by decide)) h
  obtain ⟨hparameters, h⟩ := ForwardedParameter.delimits_listed _ _ hv.parameters hw.parameters _ _
    (List.append_cancel_left h)
  obtain ⟨hstream, h⟩ := callee_append_inj (List.append_cancel_left h)
  obtain ⟨hkey, h⟩ := delimits_literal _ _ trivial trivial _ _ (List.append_cancel_left h)
  -- The arguments repeat the parameters, so they are known already.
  have htrailing : ForwardedParameter.trailing v.parameters =
      ForwardedParameter.trailing w.parameters := by
    rw [← ForwardedParameter.trailing_shown, hparameters, ForwardedParameter.trailing_shown]
  rw [htrailing] at h
  refine ⟨?_, List.append_cancel_left (List.append_cancel_left h)⟩
  rw [shown, shown, hparameters, hstream, String.toList_inj.mp hname, show v.key = w.key from hkey]

end Forwarder

namespace ExposeBlock

def shown (o : ExposeBlock) : ExposeBlock :=
  { o with forwarders := o.forwarders.map Forwarder.shown }

@[simp]
theorem text_shown (o : ExposeBlock) : o.shown.text = o.text := by
  simp [shown, text, Function.comp_def]

/-- The members of an object as they stand behind its first line, with the line that closes it. -/
def membersText (ws : List Forwarder) : List Char :=
  (ws.flatMap fun w => "\n  ".toList ++ w.text.toList ++ ",".toList) ++ "\n\x7d);".toList

theorem toList_text (o : ExposeBlock) :
    o.text.toList = "expose(".toList ++ ((Text.literal o.name).toList ++ (", \x7b".toList ++
      membersText o.forwarders)) := by
  have hlines : o.text.toList = "\n".toList.intercalate
      ((exposeName ++ "(" ++ Text.literal o.name ++ ", \x7b").toList ::
        (o.forwarders.map (fun w => "  ".toList ++ w.text.toList ++ ",".toList) ++
          ["\x7d);".toList])) := by
    simp only [text, unlines, String.toList_intercalate, List.map_append, List.map_cons,
      List.map_nil, List.map_map, List.cons_append, Function.comp_def, String.toList_append]
  rw [hlines, Text.intercalate_cons, List.flatMap_append, List.flatMap_map, membersText]
  simp [exposeName]

theorem delimits_membersText :
    Delimits (fun ws => ∀ w ∈ ws, w.WellNamed) (List.map Forwarder.shown) membersText :=
  (Forwarder.delimits_text.between _ _).flatMap (by simp)

theorem delimits_text : Delimits (fun o : ExposeBlock => ∀ w ∈ o.forwarders, w.WellNamed) shown
    fun o => o.text.toList := by
  intro o o' ho ho' s t h
  simp only [toList_text, List.append_assoc] at h
  obtain ⟨hname, h⟩ := delimits_literal _ _ trivial trivial _ _ (List.append_cancel_left h)
  obtain ⟨hforwarders, h⟩ := delimits_membersText _ _ ho ho' _ _ (List.append_cancel_left h)
  refine ⟨?_, h⟩
  rw [shown, shown, hforwarders, show o.name = o'.name from hname]

end ExposeBlock

theorem sameMarks_iff (p q : Parameter) :
    p.SameMarks q ↔ ForwardedParameter.shown ⟨p.name, p.optional, p.rest⟩ =
      ForwardedParameter.shown ⟨q.name, q.optional, q.rest⟩ := by
  simp only [ForwardedParameter.shown, ForwardedParameter.mk.injEq]
  constructor
  · rintro ⟨hname, hrest, hoptional⟩
    refine ⟨hname, ?_, hrest⟩
    rw [← hrest]
    cases h : p.rest with
    | false => rw [hoptional h]
    | true => rw [Bool.not_true, Bool.and_false, Bool.and_false]
  · rintro ⟨hname, hoptional, hrest⟩
    refine ⟨hname, hrest, fun h => ?_⟩
    simpa [← hrest, h] using hoptional

theorem sameCall_iff (m n : Method) :
    m.SameCall n ↔ (Forwarder.ofMethod m).shown = (Forwarder.ofMethod n).shown := by
  have hparameters : List.Forall₂ Parameter.SameMarks m.parameters n.parameters ↔
      (Forwarder.ofMethod m).shown.parameters = (Forwarder.ofMethod n).shown.parameters := by
    rw [forall₂_iff_map_eq sameMarks_iff]
    simp [Forwarder.shown, Forwarder.ofMethod, Function.comp_def]
  constructor
  · rintro ⟨hspace, hname, hstream, hlists⟩
    have hkey : m.key = n.key := by rw [Method.key, Method.key, hspace, hname]
    have hshown := hparameters.mp hlists
    simp only [Forwarder.shown, Forwarder.ofMethod, Forwarder.mk.injEq] at hshown ⊢
    exact ⟨hname, hshown, hstream, hkey⟩
  · intro h
    have hname : m.name = n.name := congrArg Forwarder.name h
    have hkey : m.key = n.key := congrArg Forwarder.key h
    have hspace : m.namespaceName = n.namespaceName := by
      rw [Method.key, Method.key, hname] at hkey
      have hl := congrArg String.toList hkey
      simp only [String.toList_append, List.append_cancel_right_eq] at hl
      exact String.toList_inj.mp hl
    exact ⟨hspace, hname, congrArg Forwarder.stream h, hparameters.mpr (congrArg _ h)⟩

def shownBlocks (s : Surface) : List ExposeBlock :=
  s.groups.map fun g => (ExposeBlock.ofGroup g).shown

theorem shown_methodsOf (s : Surface) (name : String) :
    (s.methodsOf name).map (fun m => (Forwarder.ofMethod m).shown) =
      (((shownBlocks s).find? (·.name == name)).map ExposeBlock.forwarders).getD [] := by
  rw [shownBlocks, List.find?_map, Surface.methodsOf, Surface.group?]
  have hname : (fun o : ExposeBlock => o.name == name) ∘
      (fun g => (ExposeBlock.ofGroup g).shown) = fun g : Group => g.name == name := rfl
  rw [hname]
  cases s.groups.find? fun g => g.name == name with
  | none => rfl
  | some g => simp [ExposeBlock.shown, ExposeBlock.ofGroup, Function.comp_def]

theorem shownBlocks_eq (s : Surface) :
    shownBlocks s = s.namespaces.map fun name =>
      ⟨name, (s.methodsOf name).map fun m => (Forwarder.ofMethod m).shown⟩ := by
  rw [shownBlocks, Surface.namespaces, List.map_map]
  refine List.map_congr_left fun g hg => ?_
  simp [Surface.methodsOf_name hg, ExposeBlock.shown, ExposeBlock.ofGroup, Function.comp_def]

/-- Two surfaces have the same calls if and only if the text shows the same of them. -/
theorem sameCalls_iff {s t : Surface} : s.SameCalls t ↔ shownBlocks s = shownBlocks t := by
  have hmethods : ∀ name, List.Forall₂ Method.SameCall (s.methodsOf name) (t.methodsOf name) ↔
      (s.methodsOf name).map (fun m => (Forwarder.ofMethod m).shown) =
        (t.methodsOf name).map fun m => (Forwarder.ofMethod m).shown :=
    fun name => forall₂_iff_map_eq sameCall_iff
  constructor
  · rintro ⟨hspaces, hcalls⟩
    rw [shownBlocks_eq, shownBlocks_eq, hspaces]
    exact List.map_congr_left fun name _ => by rw [(hmethods name).mp (hcalls name)]
  · intro h
    refine ⟨?_, fun name => (hmethods name).mpr ?_⟩
    · have hnames : ∀ u : Surface, (shownBlocks u).map ExposeBlock.name = u.namespaces := by
        intro u
        rw [shownBlocks, List.map_map]
        rfl
      rw [← hnames, ← hnames, h]
    · rw [shown_methodsOf, shown_methodsOf, h]

namespace Bridge

section Bridge
variable {s t : Surface} {runtime : String} {b b' : Bridge}

theorem mem_runtimeNames {name : String} (h : name ∈ runtimeNames s) :
    name = exposeName ∨ name = invokeName ∨ name = iterateName := by
  unfold runtimeNames at h
  split_ifs at h <;> simp at h <;> tauto

/-- The import of the runtime ends with its only closing brace, the runtime and a mark. -/
theorem exists_importsText (h : b.imports.ImportsExactly runtime (runtimeNames s))
    (hs : runtimeNames s ≠ []) :
    ∃ front, '}' ∉ front ∧ (unlines (b.imports.statements.map ImportStatement.text)).toList =
      front ++ '}' :: (" from '" ++ runtime ++ "';").toList := by
  let bs := b.imports.bindings.filter (·.source.specifier == runtime)
  let first : String := if b.imports.typeOnly then "import type" else "import"
  have hstatement : unlines (b.imports.statements.map ImportStatement.text) = first ++ " \x7b " ++
      ", ".intercalate (bs.map ImportBinding.text) ++ " \x7d from '" ++ runtime ++ "';" := by
    rw [ImportSet.statements, h.specifiers_eq hs]
    simp [unlines, ImportStatement.text, bs, first]
  have hbinding : ∀ i ∈ bs, '}' ∉ i.text.toList := by
    intro i hi
    obtain ⟨hname, hsource⟩ := h.of_mem_bindings (List.mem_of_mem_filter hi)
    have htext : i.text = i.name := by simp [ImportBinding.text, hsource]
    rw [htext]
    rcases mem_runtimeNames hname with hname | hname | hname <;> rw [hname] <;> decide
  have hjoined : '}' ∉ (", ".intercalate (bs.map ImportBinding.text)).toList := by
    rw [String.toList_intercalate, List.map_map]
    refine Text.notMem_intercalate (by decide) fun w hw => ?_
    obtain ⟨i, hi, rfl⟩ := List.mem_map.mp hw
    exact hbinding i hi
  have hfirst : '}' ∉ first.toList := by
    simp only [first]
    split_ifs <;> decide
  refine ⟨(first ++ " \x7b " ++ ", ".intercalate (bs.map ImportBinding.text) ++ " ").toList, ?_, ?_⟩
  · simp only [String.toList_append, List.mem_append, not_or]
    exact ⟨⟨⟨hfirst, by decide⟩, hjoined⟩, by decide⟩
  · rw [hstatement]
    simp

/-- The text of the bridge of a surface that has calls: behind the header and the import stand the
objects, and then a line end. -/
theorem exists_toList_text (hb : ofSurface s runtime = .ok b) (hs : s.isEmpty = false) :
    ∃ front, '}' ∉ front ∧ b.text.toList = header.toList ++ ("\n\n".toList ++ (front ++ '}' ::
      ((" from '" ++ runtime ++ "';").toList ++
        (b.blocks.flatMap (fun o => "\n\n".toList ++ o.text.toList) ++ ['\n'])))) := by
  obtain ⟨hblocks, himports⟩ := of_ofSurface hb
  have hnames : runtimeNames s ≠ [] := by simp [runtimeNames, hs]
  obtain ⟨front, hfront, himportsText⟩ := exists_importsText himports hnames
  have hfilter : (header :: unlines (b.imports.statements.map ImportStatement.text) ::
      b.blocks.map ExposeBlock.text).filter (· ≠ "") =
        header :: unlines (b.imports.statements.map ImportStatement.text) ::
          b.blocks.map ExposeBlock.text := by
    rw [List.filter_eq_self]
    intro x hx
    rw [decide_eq_true_eq]
    rintro rfl
    rcases List.mem_cons.mp hx with hx | hx
    · exact absurd hx (by decide)
    · rcases List.mem_cons.mp hx with hx | hx
      · rw [← hx] at himportsText
        simp at himportsText
      · obtain ⟨o, -, ho⟩ := List.mem_map.mp hx
        have hobject := congrArg String.toList ho
        rw [ExposeBlock.toList_text] at hobject
        simp at hobject
  refine ⟨front, hfront, ?_⟩
  rw [text, layout, hfilter, String.toList_append, String.toList_intercalate, List.map_cons,
    List.map_cons, Text.intercalate_cons, himportsText, List.flatMap_cons, List.map_map,
    List.flatMap_map]
  simp

theorem text_of_isEmpty (hb : ofSurface s runtime = .ok b) (hs : s.isEmpty = true) :
    b.text.toList = header.toList ++ ['\n'] := by
  obtain ⟨hblocks, himports⟩ := of_ofSurface hb
  have hmethods : s.methods = [] := List.length_eq_zero_iff.mp (s.isEmpty_iff.mp hs)
  have hnames : runtimeNames s = [] := by simp [runtimeNames, hs, hmethods]
  have hbindings : b.imports.bindings = [] := by
    rw [List.eq_nil_iff_forall_not_mem]
    intro i hi
    have hname := (himports.of_mem_bindings hi).1
    rw [hnames] at hname
    cases hname
  have hobjects : b.blocks = [] := by
    rw [hblocks, Surface.groups, hmethods]
    rfl
  have hblock : unlines (b.imports.statements.map ImportStatement.text) = "" := by
    rw [ImportSet.statements, ImportSet.specifiers, hbindings]
    rfl
  rw [text, hblock, hobjects]
  decide

/-- The calls of a surface decide which runtime functions it needs. -/
theorem runtimeNames_congr (h : shownBlocks s = shownBlocks t) :
    runtimeNames s = runtimeNames t := by
  have hstreams : ∀ u : Surface, u.methods.map (·.shape.isStream) =
      (shownBlocks u).flatMap fun o => o.forwarders.map Forwarder.stream := by
    intro u
    rw [← u.groups_flatMap_map fun _ m => m.shape.isStream, shownBlocks, List.flatMap_map]
    refine List.flatMap_congr fun g _ => ?_
    simp [ExposeBlock.shown, ExposeBlock.ofGroup, Forwarder.shown, Forwarder.ofMethod,
      Function.comp_def]
  have hempty : ∀ u : Surface, u.isEmpty = (shownBlocks u).isEmpty := by
    intro u
    rw [shownBlocks, List.isEmpty_map]
    rfl
  have hany : ∀ (p : Bool → Bool) (u : Surface), (u.methods.any fun m => p m.shape.isStream) =
      (u.methods.map (·.shape.isStream)).any p := by
    intro p u
    rw [List.any_map]
    rfl
  rw [runtimeNames, runtimeNames, hempty, hempty, hany (!·), hany (!·), hany (fun stream => stream),
    hany (fun stream => stream), hstreams, hstreams, h]

theorem map_shown_blocks (hb : ofSurface s runtime = .ok b) :
    b.blocks.map ExposeBlock.shown = shownBlocks s := by
  rw [(of_ofSurface hb).1, List.map_map]
  rfl

theorem shownBlocks_of_isEmpty (hs : s.isEmpty = true) : shownBlocks s = [] := by
  rw [shownBlocks, List.isEmpty_iff.mp hs]
  rfl

theorem wellNamed_of_mem_blocks (hs : ∀ m ∈ s.methods, m.WellNamed)
    (hb : ofSurface s runtime = .ok b) : ∀ o ∈ b.blocks, ∀ w ∈ o.forwarders, w.WellNamed := by
  intro o ho w hw
  obtain ⟨m, hm, rfl⟩ := exists_method_of_mem ((of_ofSurface hb).1 ▸ ho) hw
  exact Forwarder.wellNamed_ofMethod (hs m hm)

theorem shownBlocks_eq_of_text (hs : ∀ m ∈ s.methods, m.WellNamed)
    (ht : ∀ m ∈ t.methods, m.WellNamed) (hb : ofSurface s runtime = .ok b)
    (hb' : ofSurface t runtime = .ok b') (h : b.text = b'.text) : shownBlocks s = shownBlocks t := by
  replace h := congrArg String.toList h
  cases hse : s.isEmpty with
  | true =>
    cases hte : t.isEmpty with
    | true => rw [shownBlocks_of_isEmpty hse, shownBlocks_of_isEmpty hte]
    | false =>
      obtain ⟨front, -, htext⟩ := exists_toList_text hb' hte
      rw [text_of_isEmpty hb hse, htext] at h
      exact absurd (List.append_cancel_left h) (by simp)
  | false =>
    obtain ⟨front, hfront, htext⟩ := exists_toList_text hb hse
    cases hte : t.isEmpty with
    | true =>
      rw [text_of_isEmpty hb' hte, htext] at h
      exact absurd (List.append_cancel_left h) (by simp)
    | false =>
      obtain ⟨front', hfront', htext'⟩ := exists_toList_text hb' hte
      rw [htext, htext'] at h
      -- Both import statements end with the same runtime, so the objects begin at one place.
      obtain ⟨-, hobjects⟩ := cut_inj hfront hfront'
        (List.append_cancel_left (List.append_cancel_left h))
      obtain ⟨hblocks, -⟩ := (ExposeBlock.delimits_text.behind "\n\n".toList).flatMap_inj
        (wellNamed_of_mem_blocks hs hb) (wellNamed_of_mem_blocks ht hb') (by simp) (by simp)
        (List.append_cancel_left hobjects)
      rw [← map_shown_blocks hb, ← map_shown_blocks hb', hblocks]

theorem text_eq_of_shownBlocks (hb : ofSurface s runtime = .ok b)
    (hb' : ofSurface t runtime = .ok b') (h : shownBlocks s = shownBlocks t) : b.text = b'.text := by
  have himports : b.imports = b'.imports := by
    simp only [ofSurface, bind_eq_ok_iff, pure_eq_ok_iff] at hb hb'
    obtain ⟨i, hi, rfl⟩ := hb
    obtain ⟨i', hi', rfl⟩ := hb'
    rw [runtimeNames_congr h] at hi
    exact Except.ok.inj (hi.symm.trans hi')
  have hobjects : ∀ a : Bridge, a.blocks.map ExposeBlock.text =
      (a.blocks.map ExposeBlock.shown).map ExposeBlock.text := by
    intro a
    simp [Function.comp_def]
  rw [text, text, himports, hobjects b, hobjects b', map_shown_blocks hb, map_shown_blocks hb', h]

/-- The text of the bridge shows the calls of its surface, and nothing else. -/
theorem text_eq_iff (hs : ∀ m ∈ s.methods, m.WellNamed) (ht : ∀ m ∈ t.methods, m.WellNamed)
    (hb : ofSurface s runtime = .ok b) (hb' : ofSurface t runtime = .ok b') :
    b.text = b'.text ↔ s.SameCalls t := by
  rw [sameCalls_iff]
  exact ⟨shownBlocks_eq_of_text hs ht hb hb', text_eq_of_shownBlocks hb hb'⟩

end Bridge

end Bridge

end Generated

end CallBridge
