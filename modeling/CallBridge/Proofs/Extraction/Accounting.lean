import CallBridge.Proofs.Basic
import CallBridge.Proofs.Extraction.Candidates

/-! # Every annotated declaration is accounted for

The declarations of a file that may be exposed are looked at one by one in source order. One without
an annotation yields nothing. Each other one yields its record, perhaps with warnings, or one
diagnostic that says why it is dropped. So no annotated declaration is lost, and none counts twice.
-/
namespace CallBridge

open Syntax (Tree)

namespace Syntax.Tree

theorem mem_preorder_self (t : Tree) : t ∈ t.preorder := by
  rw [preorder_eq]
  exact List.mem_cons_self

theorem preorderAll_children_sublist (t : Tree) : (preorderAll t.children).Sublist t.preorder := by
  rw [preorder_eq]
  exact List.sublist_cons_self _ _

theorem sublist_preorderAll (ts : List Tree) : ts.Sublist (preorderAll ts) := by
  induction ts with
  | nil => exact .slnil
  | cons t ts ih =>
    have hself : [t].Sublist t.preorder := List.singleton_sublist.mpr (mem_preorder_self t)
    exact hself.append ih

theorem children_sublist_preorder (t : Tree) : t.children.Sublist t.preorder :=
  (sublist_preorderAll t.children).trans (preorderAll_children_sublist t)

theorem preorder_sublist_of_mem {t : Tree} {ts : List Tree} (h : t ∈ ts) :
    t.preorder.Sublist (preorderAll ts) := by
  rw [preorderAll_eq_flatMap]
  exact sublist_flatMap_of_mem h

theorem preorder_sublist_of_child? {t part : Tree} {role : Syntax.Field}
    (h : t.child? role = some part) : part.preorder.Sublist t.preorder :=
  (preorder_sublist_of_mem (List.mem_of_find?_eq_some h)).trans (preorderAll_children_sublist t)

theorem flatMap_sublist_preorderAll {f : Tree → List Tree} {ts : List Tree}
    (h : ∀ t, (f t).Sublist t.preorder) : (ts.flatMap f).Sublist (preorderAll ts) := by
  induction ts with
  | nil => exact .slnil
  | cons t ts ih => exact (h t).append ih

end Syntax.Tree

namespace Signature

/-- The parameters of a function from the left to the right: those in its list, or the one that
stands for a list. -/
def declaredParameters (function : Tree) : List Tree :=
  match function.child? .parameter with
  | some single => [single]
  | none => (function.child? .parameters).toList.flatMap fun list =>
    list.nodes.filter fun p => p.is .requiredParameter || p.is .optionalParameter

/-- A function cannot be called without arguments: some parameter is required, has no value of its own
and does not collect what is left over. -/
def RequiresArgument (function : Tree) : Prop :=
  ∃ p ∈ declaredParameters function, p.is .requiredParameter = true ∧
    (p.child? .value).isNone = true ∧
      ∀ pattern ∈ (p.child? .pattern).toList, pattern.is .restPattern = false

instance (function : Tree) : Decidable (RequiresArgument function) :=
  inferInstanceAs (Decidable (∃ _ ∈ _, _))

theorem declaredParameters_eq (function : Tree) :
    declaredParameters function = parameterNodes function := by
  unfold declaredParameters parameterNodes
  cases function.child? .parameter with
  | some single => rfl
  | none => cases function.child? .parameters <;> simp

theorem needsArguments_eq (function : Tree) :
    needsArguments function = decide (RequiresArgument function) := by
  rw [Bool.eq_iff_iff, decide_eq_true_iff]
  unfold needsArguments RequiresArgument
  rw [declaredParameters_eq, List.any_eq_true]
  refine exists_congr fun p => and_congr_right fun _ => ?_
  cases p.child? .value <;> cases p.child? .pattern <;> simp

end Signature

namespace SourceFile

def candidates (f : SourceFile) : List Candidate :=
  (Candidate.ofFile f (Scope.ofFile f)).flatMap CandidateGroup.candidates

/-- What the statements of a file declare, in source order. -/
def declarations (f : SourceFile) : List Tree :=
  (f.tree.children.filterMap declarationOf?).map Prod.fst

/-- The parts of a declaration that may be exposed: a function itself, the methods of a class with a
name except its constructors, and the variables that hold functions. -/
def exposableParts (f : SourceFile) (declaration : Tree) : List Tree :=
  if declaration.is .functionDeclaration || declaration.is .generatorFunctionDeclaration then
    [declaration]
  else if declaration.is .classDeclaration || declaration.is .abstractClassDeclaration then
    if (declaration.child? .name).isSome then
      ((declaration.child? .body).toList.flatMap Tree.children).filter fun member =>
        member.is .methodDefinition && !Candidate.isConstructor f member
    else []
  else if declaration.is .lexicalDeclaration || declaration.is .variableDeclaration then
    (declaration.nodes.filter (·.is .variableDeclarator)).filter fun v =>
      (v.child? .value).any Candidate.isFunctionValue
  else []

/-- The name of a class that is declared, if its first constructor needs arguments. -/
def needyClass? (f : SourceFile) (declaration : Tree) : Option String :=
  if declaration.is .classDeclaration || declaration.is .abstractClassDeclaration then do
    let name ← declaration.child? .name
    let body ← declaration.child? .body
    let maker ← body.nodes.find? (Candidate.isConstructor f)
    if Signature.RequiresArgument maker then some (f.text name) else none
  else none

theorem exposableParts_sublist (f : SourceFile) (declaration : Tree) :
    (f.exposableParts declaration).Sublist declaration.preorder := by
  unfold exposableParts
  split_ifs
  · exact List.singleton_sublist.mpr declaration.mem_preorder_self
  · cases hbody : declaration.child? .body with
    | none => exact List.nil_sublist _
    | some body =>
      simp only [Option.toList_some, List.flatMap_cons, List.flatMap_nil, List.append_nil]
      calc (body.children.filter _).Sublist body.children := List.filter_sublist
        List.Sublist _ body.preorder := body.children_sublist_preorder
        List.Sublist _ declaration.preorder := Tree.preorder_sublist_of_child? hbody
  · exact List.nil_sublist _
  · calc ((declaration.nodes.filter _).filter _).Sublist (declaration.nodes.filter _) :=
        List.filter_sublist
      List.Sublist _ declaration.nodes := List.filter_sublist
      List.Sublist _ declaration.children := List.filter_sublist
      List.Sublist _ declaration.preorder := declaration.children_sublist_preorder
  · exact List.nil_sublist _

theorem exposableParts_declarations_sublist (f : SourceFile) :
    (f.declarations.flatMap f.exposableParts).Sublist f.tree.preorder := by
  have hparts : f.declarations.flatMap f.exposableParts = f.tree.children.flatMap fun t =>
      ((declarationOf? t).map fun d => f.exposableParts d.1).getD [] := by
    unfold declarations
    induction f.tree.children with
    | nil => rfl
    | cons t ts ih =>
      rw [List.flatMap_cons, ← ih, List.filterMap_cons]
      cases declarationOf? t <;> simp
  rw [hparts]
  refine (Tree.flatMap_sublist_preorderAll fun t => ?_).trans f.tree.preorderAll_children_sublist
  cases hdeclaration : declarationOf? t with
  | none => exact List.nil_sublist _
  | some d =>
    have hpart := f.exposableParts_sublist d.1
    rcases declarationOf?_eq_some hdeclaration with ⟨-, hchild, -⟩ | ⟨-, hself, -⟩
    · exact hpart.trans (Tree.preorder_sublist_of_child? hchild)
    · rw [hself]
      exact hpart

end SourceFile

def CandidateGroup.needyOwner? (g : CandidateGroup) : Option ClassInfo :=
  g.owner?.filter ClassInfo.needsArguments

namespace Candidate

section Nodes
variable {f : SourceFile} {s : Scope} {declaration : Tree} {declared : Export} {before : List Tree}
  {g : CandidateGroup}

theorem withBefore_map_fst (before ts : List Tree) : (withBefore before ts).map Prod.fst = ts := by
  induction ts generalizing before with
  | nil => rfl
  | cons t ts ih => rw [withBefore, List.map_cons, ih]

theorem methodsOf_map_node (info : ClassInfo) (body : Tree) :
    (methodsOf f info body).map node =
      body.children.filter fun member => member.is .methodDefinition && !isConstructor f member := by
  conv_rhs => rw [← withBefore_map_fst [] body.children, List.filter_map]
  rw [methodsOf, List.map_map]
  rfl

theorem bindingsOf_map_node (declaration : Tree) (declared : Export) (before : List Tree) :
    (bindingsOf declaration declared before).map node =
      (declaration.nodes.filter (·.is .variableDeclarator)).filter fun v =>
        (v.child? .value).any isFunctionValue := by
  unfold bindingsOf
  rw [List.map_filterMap]
  refine (List.filterMap_congr fun v _ => ?_).trans
    (congrFun List.filterMap_eq_filter _)
  cases hvalue : v.child? .value with
  | none => simp [hvalue, Option.guard]
  | some value =>
    cases hfunction : isFunctionValue value <;> simp [hvalue, hfunction, Option.guard]

/-- The candidates of a declaration are its parts that may be exposed. -/
theorem groupOf?_map_node (f : SourceFile) (s : Scope) (declaration : Tree) (declared : Export)
    (before : List Tree) :
    ((groupOf? f s declaration declared before).map fun g => g.candidates.map node).getD [] =
      f.exposableParts declaration := by
  unfold groupOf? SourceFile.exposableParts
  split_ifs with hfunction hclass hname hvariable
  · rfl
  · obtain ⟨n, hn⟩ := Option.isSome_iff_exists.mp hname
    cases hbody : declaration.child? .body with
    | none => simp [classInfo?, hn, hbody]
    | some body => simp [classInfo?, hn, hbody, methodsOf_map_node]
  · have hnone : declaration.child? .name = none := by simpa using hname
    simp [classInfo?, hnone]
  · exact bindingsOf_map_node declaration declared before
  · rfl

/-- A group whose class needs arguments is read from the declaration of that class. -/
theorem groupOf?_needyOwner (h : groupOf? f s declaration declared before = some g) :
    g.needyOwner?.map ClassInfo.name = f.needyClass? declaration ∧
      ∀ o, g.needyOwner? = some o → o.line = declaration.line := by
  unfold groupOf? at h
  split_ifs at h with hfunction hclass hvariable
  · cases h
    have hclass : ¬(declaration.is .classDeclaration ||
        declaration.is .abstractClassDeclaration) = true := by
      simp only [Tree.is, Bool.or_eq_true, beq_iff_eq] at hfunction ⊢
      rcases hfunction with h | h <;> simp [h]
    exact ⟨(if_neg hclass).symm, nofun⟩
  · obtain ⟨⟨info, body⟩, hinfo, h⟩ := Option.bind_eq_some_iff.mp h
    cases h
    unfold classInfo? at hinfo
    obtain ⟨n, hn, hinfo⟩ := Option.bind_eq_some_iff.mp hinfo
    obtain ⟨b, hb, hinfo⟩ := Option.bind_eq_some_iff.mp hinfo
    cases hinfo
    refine ⟨?_, fun o ho => ?_⟩
    · rw [SourceFile.needyClass?, if_pos hclass, hn, hb]
      cases hmaker : body.nodes.find? (isConstructor f) with
      | none => simp [CandidateGroup.needyOwner?, hmaker]
      | some maker =>
        by_cases hneeds : Signature.RequiresArgument maker <;>
          simp [CandidateGroup.needyOwner?, hmaker, hneeds, Signature.needsArguments_eq]
    · obtain ⟨howner, -⟩ := Option.filter_eq_some_iff.mp ho
      cases howner
      rfl
  · cases h
    exact ⟨(if_neg hclass).symm, nofun⟩

end Nodes

end Candidate

def Problem.drops : Problem → Bool
  | malformedAnnotation | unsupportedDeclaration | invalidNamespace | unsupportedReturnType => true
  | _ => false

namespace Candidate
variable {marking : Marking} {f : SourceFile} {c : Candidate}

def isAnnotated (marking : Marking) (f : SourceFile) (c : Candidate) : Bool :=
  match Annotation.read f marking.annotation c.decorators c.comments with
  | .ok none => false
  | _ => true

structure Warns (f : SourceFile) (c : Candidate) (d : Diagnostic) : Prop where
  problem : d.problem = .typeNotExported ∨ d.problem = .notExported
  line : d.line = c.line
  qualifier : d.qualifier = some (c.qualifier f)

def RecordedAs (f : SourceFile) (c : Candidate) (m : Method) : Prop :=
  ∃ namespaceName shape, Text.isCamelCase namespaceName = true ∧ c.shape f = .ok shape ∧
    m = c.toMethod f (Scope.ofFile f) namespaceName shape

/-- What a candidate adds to the methods and diagnostics of its file. -/
inductive Share (marking : Marking) (f : SourceFile) (c : Candidate) : Yield → Prop where
  | nothing (unmarked : c.isAnnotated marking f = false) : Share marking f c ⟨[], []⟩
  | dropped (d : Diagnostic) (marked : c.isAnnotated marking f = true)
      (drops : d.problem.drops = true) (line : d.line = c.line)
      (qualifier : d.qualifier = some (c.qualifier f)) : Share marking f c ⟨[], [d]⟩
  | exposed (m : Method) (warnings : List Diagnostic) (marked : c.isAnnotated marking f = true)
      (record : c.RecordedAs f m) (warns : ∀ d ∈ warnings, c.Warns f d)
      (unexported : warnings.countP (·.problem == .notExported) =
        if m.exported = .none then 1 else 0) : Share marking f c ⟨[m], warnings⟩

end Candidate

def Verdict.yield (v : Verdict) : Yield :=
  ⟨v.method?.toList, v.diagnostics⟩

namespace Candidate
variable {marking : Marking} {f : SourceFile} {s : Scope} {c : Candidate}

theorem warns_of_mem {d : Diagnostic} (h : d ∈ typeWarnings f s c ++ exportWarnings f s c) :
    c.Warns f d := by
  rcases List.mem_append.mp h with h | h
  · obtain ⟨n, -, rfl⟩ := List.mem_map.mp h
    exact ⟨.inl rfl, rfl, rfl⟩
  · unfold exportWarnings at h
    split_ifs at h
    · cases h
    · obtain rfl := List.mem_singleton.mp h
      exact ⟨.inr rfl, rfl, rfl⟩

theorem countP_notExported :
    (typeWarnings f s c ++ exportWarnings f s c).countP (·.problem == .notExported) =
      if c.exported f s = .none then 1 else 0 := by
  have htypes : (typeWarnings f s c).countP (·.problem == .notExported) = 0 := by
    refine List.countP_eq_zero.mpr fun d hd => ?_
    obtain ⟨n, -, rfl⟩ := List.mem_map.mp hd
    simp [diagnose, Diagnostic.of]
  rw [List.countP_append, htypes, Nat.zero_add, exportWarnings]
  cases c.exported f s <;> simp [Export.isExported, diagnose, Diagnostic.of]

/-- Every candidate adds its record, its one reason to be dropped, or nothing. -/
theorem share_judge : c.Share marking f (c.judge marking f (Scope.ofFile f)).yield := by
  unfold judge
  split
  · next fault hread => exact .dropped _ (by simp [isAnnotated, hread]) rfl rfl rfl
  · next hread => exact .nothing (by simp [isAnnotated, hread])
  · next annotation hread =>
    have hmarked : c.isAnnotated marking f = true := by simp [isAnnotated, hread]
    split
    · exact .dropped _ hmarked rfl rfl rfl
    · dsimp only
      split_ifs with hcase
      · exact .dropped _ hmarked rfl rfl rfl
      · split
        · exact .dropped _ hmarked rfl rfl rfl
        · next shape hshape =>
          exact .exposed _ _ hmarked ⟨_, shape, by simpa using hcase, hshape, rfl⟩
            (fun d hd => warns_of_mem hd) countP_notExported

end Candidate

/-- The candidates of a declaration, what each of them adds, and what is said of them together. -/
structure Account where
  candidates : List Candidate
  shares : List Yield
  late : List Diagnostic

namespace Account

def methods (a : Account) : List Method :=
  a.shares.flatMap Yield.methods

def diagnostics (a : Account) : List Diagnostic :=
  a.shares.flatMap Yield.diagnostics ++ a.late

/-- The account of a declaration: each part that may be exposed adds its share, and a class is warned
of once if it has a method that is exposed and its first constructor needs arguments. -/
structure Of (marking : Marking) (f : SourceFile) (declaration : Tree) (a : Account) : Prop where
  parts : a.candidates.map Candidate.node = f.exposableParts declaration
  shares : List.Forall₂ (Candidate.Share marking f) a.candidates a.shares
  warned : ∀ name, f.needyClass? declaration = some name → a.methods ≠ [] → ∃ message,
    a.late = [.of .constructorArguments f.path.text declaration.line message (some name)]
  silent : f.needyClass? declaration = none ∨ a.methods = [] → a.late = []

theorem of_none {marking : Marking} {f : SourceFile} {declaration : Tree}
    (h : f.exposableParts declaration = []) : Of marking f declaration ⟨[], [], []⟩ where
  parts := h.symm
  shares := .nil
  warned _ _ hsome := absurd rfl hsome
  silent _ := rfl

end Account

def CandidateGroup.shares (marking : Marking) (f : SourceFile) (g : CandidateGroup) : List Yield :=
  g.candidates.map fun c => (c.judge marking f (Scope.ofFile f)).yield

theorem CandidateGroup.extract_methods (marking : Marking) (f : SourceFile) (g : CandidateGroup) :
    (g.extract marking f (Scope.ofFile f)).methods = (g.shares marking f).flatMap Yield.methods := by
  unfold extract shares
  dsimp only
  rw [List.filterMap_map, List.flatMap_map]
  induction g.candidates with
  | nil => rfl
  | cons c cs ih =>
    rw [List.filterMap_cons, List.flatMap_cons, ← ih, Function.comp_apply, Verdict.yield]
    cases (c.judge marking f (Scope.ofFile f)).method? <;> rfl

/-- Behind the diagnostics on its candidates, a group has a warning if its class needs arguments and
owns a method that is exposed. -/
theorem CandidateGroup.extract_diagnostics (marking : Marking) (f : SourceFile)
    (g : CandidateGroup) : ∃ late : List Diagnostic,
    (g.extract marking f (Scope.ofFile f)).diagnostics =
      (g.shares marking f).flatMap Yield.diagnostics ++ late ∧
    (∀ o, g.needyOwner? = some o → (g.extract marking f (Scope.ofFile f)).methods ≠ [] → ∃ message,
      late = [.of .constructorArguments f.path.text o.line message (some o.name)]) ∧
    (g.needyOwner? = none ∨ (g.extract marking f (Scope.ofFile f)).methods = [] → late = []) := by
  have hshares : (g.shares marking f).flatMap Yield.diagnostics =
      (g.candidates.map (Candidate.judge marking f (Scope.ofFile f))).flatMap
        Verdict.diagnostics := by
    simp [shares, List.flatMap_map, Verdict.yield]
  rw [hshares]
  refine ⟨_, rfl, fun o howner hsome => ?_, fun hsilent => ?_⟩
  · obtain ⟨howner, hneeds⟩ := Option.filter_eq_some_iff.mp howner
    have hmethods : ((g.candidates.map (Candidate.judge marking f (Scope.ofFile f))).filterMap
        Verdict.method?).isEmpty = false := by
      simpa [extract] using hsome
    exact ⟨_, by rw [howner]; dsimp only; rw [hneeds, hmethods]; rfl⟩
  · cases howner : g.owner? with
    | none => rfl
    | some o =>
      refine if_neg fun hwarned => ?_
      obtain ⟨hneeds, hsome⟩ := (Bool.and_eq_true _ _).mp hwarned
      rcases hsilent with hnone | hempty
      · simp [needyOwner?, howner, hneeds] at hnone
      · simp only [extract] at hempty
        simp [hempty] at hsome

theorem Account.exists_of_group (marking : Marking) {f : SourceFile} {g : CandidateGroup}
    {declaration : Tree} {declared : Export} {before : List Tree}
    (hg : Candidate.groupOf? f (Scope.ofFile f) declaration declared before = some g) :
    ∃ a, Account.Of marking f declaration a ∧ a.candidates = g.candidates ∧
      a.methods = (g.extract marking f (Scope.ofFile f)).methods ∧
      a.diagnostics = (g.extract marking f (Scope.ofFile f)).diagnostics := by
  obtain ⟨late, hdiagnostics, hwarned, hsilent⟩ :=
    CandidateGroup.extract_diagnostics marking f g
  obtain ⟨hclass, hline⟩ := Candidate.groupOf?_needyOwner hg
  have hmethods := CandidateGroup.extract_methods marking f g
  refine ⟨⟨g.candidates, g.shares marking f, late⟩,
    ⟨?_, ?_, fun name hname hsome => ?_, fun hnone => hsilent ?_⟩, rfl, hmethods.symm,
    hdiagnostics.symm⟩
  · rw [← Candidate.groupOf?_map_node f (Scope.ofFile f) declaration declared before, hg]
    rfl
  · exact List.forall₂_map_right_iff.mpr (List.forall₂_same.mpr fun c _ => Candidate.share_judge)
  · rw [← hclass] at hname
    obtain ⟨o, howner, rfl⟩ := Option.map_eq_some_iff.mp hname
    obtain ⟨message, hlate⟩ := hwarned o howner (hmethods ▸ hsome)
    exact ⟨message, hline o howner ▸ hlate⟩
  · rw [← hclass, Option.map_eq_none_iff] at hnone
    exact hnone.imp_right hmethods.trans

/-- Methods and diagnostics settle candidates: no annotation is lost and none counts twice. -/
structure Settles (marking : Marking) (f : SourceFile) (cs : List Candidate) (ms : List Method)
    (ds : List Diagnostic) : Prop where
  /-- Every candidate with an annotation is a method or dropped with one diagnostic. -/
  balanced : ms.length + ds.countP (·.problem.drops) =
    cs.countP (Candidate.isAnnotated marking f)
  /-- The methods are records of candidates in their order. -/
  recorded : ∃ exposed, exposed.Sublist cs ∧ List.Forall₂ (Candidate.RecordedAs f) exposed ms

namespace Settles
variable {marking : Marking} {f : SourceFile} {cs cs' : List Candidate} {ms ms' : List Method}
  {ds ds' : List Diagnostic}

theorem nil : Settles marking f [] [] [] :=
  ⟨rfl, [], .slnil, .nil⟩

theorem append (h : Settles marking f cs ms ds) (h' : Settles marking f cs' ms' ds') :
    Settles marking f (cs ++ cs') (ms ++ ms') (ds ++ ds') := by
  obtain ⟨exposed, hsub, hrecords⟩ := h.recorded
  obtain ⟨exposed', hsub', hrecords'⟩ := h'.recorded
  refine ⟨?_, exposed ++ exposed', hsub.append hsub', List.rel_append hrecords hrecords'⟩
  rw [List.length_append, List.countP_append, List.countP_append, ← h.balanced, ← h'.balanced]
  omega

theorem append_late {late : List Diagnostic} (h : Settles marking f cs ms ds)
    (hlate : ∀ d ∈ late, d.problem.drops = false) : Settles marking f cs ms (ds ++ late) := by
  have hkept : late.countP (·.problem.drops) = 0 :=
    List.countP_eq_zero.mpr fun d hd => by simp [hlate d hd]
  exact ⟨by rw [List.countP_append, hkept, Nat.add_zero, h.balanced], h.recorded⟩

theorem of_share {c : Candidate} {y : Yield} (h : c.Share marking f y) :
    Settles marking f [c] y.methods y.diagnostics := by
  cases h with
  | nothing unmarked => exact ⟨by simp [unmarked], [], List.nil_sublist _, .nil⟩
  | dropped d marked drops => exact ⟨by simp [marked, drops], [], List.nil_sublist _, .nil⟩
  | exposed m warnings marked record warns =>
    have hone : Settles marking f [c] [m] [] :=
      ⟨by simp [marked], [c], .refl _, .cons record .nil⟩
    refine hone.append_late fun d hd => ?_
    rcases (warns d hd).problem with h | h <;> rw [h] <;> rfl

theorem of_shares {shares : List Yield}
    (h : List.Forall₂ (Candidate.Share marking f) cs shares) :
    Settles marking f cs (shares.flatMap Yield.methods) (shares.flatMap Yield.diagnostics) := by
  induction h with
  | nil => exact nil
  | cons hshare _ ih => exact (of_share hshare).append ih

theorem of_account {declaration : Tree} {a : Account} (h : Account.Of marking f declaration a) :
    Settles marking f a.candidates a.methods a.diagnostics := by
  refine (of_shares h.shares).append_late fun d hd => ?_
  by_cases hsilent : f.needyClass? declaration = none ∨ a.methods = []
  · rw [h.silent hsilent] at hd
    cases hd
  · rw [not_or] at hsilent
    obtain ⟨name, hname⟩ := Option.ne_none_iff_exists'.mp hsilent.1
    obtain ⟨message, hlate⟩ := h.warned name hname hsilent.2
    rw [hlate, List.mem_singleton] at hd
    rw [hd]
    rfl

theorem of_accounts {declarations : List Tree} {accounts : List Account}
    (h : List.Forall₂ (Account.Of marking f) declarations accounts) :
    Settles marking f (accounts.flatMap Account.candidates) (accounts.flatMap Account.methods)
      (accounts.flatMap Account.diagnostics) := by
  induction h with
  | nil => exact nil
  | cons haccount _ ih => exact (of_account haccount).append ih

end Settles

namespace SourceFile

/-- What a file yields accounts for each of its candidates. -/
structure AccountsFor (f : SourceFile) (marking : Marking) (y : Yield) : Prop where
  /-- The accounts of what the file declares, one behind the other, are what it yields. -/
  itemized : ∃ accounts, List.Forall₂ (Account.Of marking f) f.declarations accounts ∧
    f.candidates = accounts.flatMap Account.candidates ∧
    y.methods = accounts.flatMap Account.methods ∧
    y.diagnostics = accounts.flatMap Account.diagnostics
  ordered : (f.candidates.map Candidate.node).Sublist f.tree.preorder
  settled : Settles marking f f.candidates y.methods y.diagnostics

variable {marking : Marking} {f : SourceFile}

theorem exists_accounts (marking : Marking) (f : SourceFile) : ∃ accounts,
    List.Forall₂ (Account.Of marking f) f.declarations accounts ∧
    f.candidates = accounts.flatMap Account.candidates ∧
    (f.extract marking).methods = accounts.flatMap Account.methods ∧
    (f.extract marking).diagnostics = accounts.flatMap Account.diagnostics := by
  unfold declarations candidates extract Candidate.ofFile
  -- The trees in front of a statement do not matter for what it declares.
  generalize [] = before
  induction f.tree.children generalizing before with
  | nil => exact ⟨[], .nil, rfl, rfl, rfl⟩
  | cons t ts ih =>
    obtain ⟨accounts, hof, hcandidates, hmethods, hdiagnostics⟩ := ih (t :: before)
    simp only [Candidate.withBefore, List.filterMap_cons, Candidate.group?_eq] at *
    cases hdeclaration : declarationOf? t with
    | none => exact ⟨accounts, hof, hcandidates, hmethods, hdiagnostics⟩
    | some d =>
      dsimp only [Option.bind_some]
      cases hgroup : Candidate.groupOf? f (Scope.ofFile f) d.1 d.2 before with
      | none =>
        have hparts := Candidate.groupOf?_map_node f (Scope.ofFile f) d.1 d.2 before
        rw [hgroup] at hparts
        exact ⟨⟨[], [], []⟩ :: accounts, .cons (Account.of_none hparts.symm) hof, hcandidates,
          hmethods, hdiagnostics⟩
      | some g =>
        obtain ⟨a, ha, hcs, hms, hds⟩ := Account.exists_of_group marking hgroup
        refine ⟨a :: accounts, .cons ha hof, ?_, ?_, ?_⟩
        · rw [List.flatMap_cons, List.flatMap_cons, hcs, hcandidates]
        · rw [List.map_cons, List.flatMap_cons, List.flatMap_cons, hms, hmethods]
        · rw [List.map_cons, List.flatMap_cons, List.flatMap_cons, hds, hdiagnostics]

theorem candidates_of_accounts {declarations : List Tree} {accounts : List Account}
    (h : List.Forall₂ (Account.Of marking f) declarations accounts) :
    (accounts.flatMap Account.candidates).map Candidate.node =
      declarations.flatMap f.exposableParts := by
  induction h with
  | nil => rfl
  | cons haccount _ ih =>
    rw [List.flatMap_cons, List.flatMap_cons, List.map_append, haccount.parts, ih]

/-- Whatever a file is annotated with, its extraction loses no annotated declaration, reports none
twice, and keeps their order. -/
theorem extract_accounts (f : SourceFile) (marking : Marking) :
    f.AccountsFor marking (f.extract marking) := by
  obtain ⟨accounts, hof, hcandidates, hmethods, hdiagnostics⟩ := exists_accounts marking f
  refine ⟨⟨accounts, hof, hcandidates, hmethods, hdiagnostics⟩, ?_, ?_⟩
  · rw [hcandidates, candidates_of_accounts hof]
    exact f.exposableParts_declarations_sublist
  · rw [hcandidates, hmethods, hdiagnostics]
    exact .of_accounts hof

end SourceFile

end CallBridge
