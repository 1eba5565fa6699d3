import CallBridge.Extraction
import Mathlib.Tactic.Common

/-! # Where methods come from

A method of a file is the record of a candidate, and a candidate is read from a declaration at the
top of the file: a function, a method in the body of a class, or a variable that holds a function.
-/
namespace CallBridge

open Syntax (Tree)

theorem Syntax.Tree.isNode_of_is {t : Tree} {k : Syntax.Kind} (h : t.is k = true) :
    t.isNode = true := by
  unfold Tree.is at h
  unfold Tree.isNode
  rw [beq_iff_eq.mp h]
  rfl

def declarationOf? (statement : Tree) : Option (Tree × Export) :=
  if statement.is .exportStatement then
    (statement.child? .declaration).map fun d => (d, Scope.statementExport statement)
  else some (statement, .none)

theorem declarationOf?_eq_some {statement declaration : Tree} {declared : Export}
    (h : declarationOf? statement = some (declaration, declared)) :
    (statement.is .exportStatement = true ∧ statement.child? .declaration = some declaration ∧
      declared = Scope.statementExport statement) ∨
    (statement.is .exportStatement = false ∧ statement = declaration ∧ declared = .none) := by
  unfold declarationOf? at h
  split_ifs at h with hexport
  · obtain ⟨d, hd, hpair⟩ := Option.map_eq_some_iff.mp h
    cases hpair
    exact .inl ⟨hexport, hd, rfl⟩
  · cases h
    exact .inr ⟨by simpa using hexport, rfl, rfl⟩

namespace Candidate

inductive ReadFrom (f : SourceFile) (s : Scope) (declaration : Tree) (declared : Export)
    (c : Candidate) : Prop where
  | ofFunction (owner : c.owner? = none) (function : c.function = declaration)
      (name : c.name? = declaration.child? .name) (declared : c.declared = declared)
      (kind : (declaration.is .functionDeclaration ||
        declaration.is .generatorFunctionDeclaration) = true)
  | ofMember (info : ClassInfo) (body : Tree)
      (made : classInfo? f s declaration declared = some (info, body))
      (owner : c.owner? = some info) (function : c.function ∈ body.children)
      (name : c.name? = c.function.child? .name)
      (kind : (declaration.is .classDeclaration ||
        declaration.is .abstractClassDeclaration) = true)
  | ofVariable (declarator : Tree) (part : declarator ∈ declaration.nodes)
      (isDeclarator : declarator.is .variableDeclarator = true) (owner : c.owner? = none)
      (function : declarator.child? .value = some c.function)
      (name : c.name? = declarator.child? .name) (declared : c.declared = declared)
      (kind : (declaration.is .lexicalDeclaration ||
        declaration.is .variableDeclaration) = true)

section Read
variable {f : SourceFile} {s : Scope} {statement declaration : Tree} {declared : Export}
  {before : List Tree} {g : CandidateGroup} {c : Candidate}

theorem classInfo?_eq_some {info : ClassInfo} {body : Tree}
    (h : classInfo? f s declaration declared = some (info, body)) :
    ∃ n, declaration.child? .name = some n ∧ info.name = f.text n ∧
      info.exported = s.exportOf info.name declared := by
  unfold classInfo? at h
  obtain ⟨n, hn, h⟩ := Option.bind_eq_some_iff.mp h
  obtain ⟨b, -, h⟩ := Option.bind_eq_some_iff.mp h
  obtain ⟨hinfo, -⟩ := Prod.mk.inj (Option.some.inj h)
  rw [← hinfo]
  exact ⟨n, hn, by dsimp only, by dsimp only⟩

theorem mem_of_mem_withBefore {t : Tree} {front ts : List Tree}
    (h : (t, front) ∈ withBefore before ts) : t ∈ ts := by
  induction ts generalizing before with
  | nil => cases h
  | cons first rest ih =>
    rcases List.mem_cons.mp h with heq | h
    · cases heq
      exact List.mem_cons_self
    · exact List.mem_cons_of_mem _ (ih h)

theorem mem_methodsOf {info : ClassInfo} {body : Tree} (h : c ∈ methodsOf f info body) :
    c.owner? = some info ∧ c.function ∈ body.children ∧ c.name? = c.function.child? .name := by
  obtain ⟨⟨member, front⟩, hmember, rfl⟩ := List.mem_map.mp h
  exact ⟨rfl, mem_of_mem_withBefore (List.mem_filter.mp hmember).1, rfl⟩

theorem mem_bindingsOf (h : c ∈ bindingsOf declaration declared before) :
    ∃ d ∈ declaration.nodes, d.is .variableDeclarator = true ∧ c.owner? = none ∧
      d.child? .value = some c.function ∧ c.name? = d.child? .name ∧ c.declared = declared := by
  obtain ⟨d, hd, hc⟩ := List.mem_filterMap.mp h
  obtain ⟨hpart, hkind⟩ := List.mem_filter.mp hd
  refine ⟨d, hpart, hkind, ?_⟩
  cases hvalue : d.child? .value with
  | none => simp [hvalue] at hc
  | some value =>
    simp only [hvalue, Option.bind_eq_bind, Option.bind_some] at hc
    split_ifs at hc
    cases hc
    exact ⟨rfl, rfl, rfl, rfl⟩

def groupOf? (f : SourceFile) (s : Scope) (declaration : Tree) (declared : Export)
    (before : List Tree) : Option CandidateGroup :=
  if declaration.is .functionDeclaration || declaration.is .generatorFunctionDeclaration then
    some ⟨none, [{ owner? := none, node := declaration, function := declaration,
                   name? := declaration.child? .name, declared, decorators := [],
                   comments := attached false before }]⟩
  else if declaration.is .classDeclaration || declaration.is .abstractClassDeclaration then
    do
      let (c, body) ← classInfo? f s declaration declared
      return ⟨some c, methodsOf f c body⟩
  else if declaration.is .lexicalDeclaration || declaration.is .variableDeclaration then
    some ⟨none, bindingsOf declaration declared before⟩
  else none

theorem group?_eq : group? f s statement before =
    (declarationOf? statement).bind fun d => groupOf? f s d.1 d.2 before := by
  unfold group? declarationOf?
  split_ifs
  · cases statement.child? .declaration with
    | none => rfl
    | some d => rfl
  · rfl

theorem readFrom_of_mem_group (h : group? f s statement before = some g) (hc : c ∈ g.candidates) :
    ∃ declaration declared, declarationOf? statement = some (declaration, declared) ∧
      c.ReadFrom f s declaration declared ∧ c.owner? = g.owner? := by
  rw [group?_eq] at h
  obtain ⟨⟨declaration, declared⟩, hdeclaration, h⟩ := Option.bind_eq_some_iff.mp h
  refine ⟨declaration, declared, hdeclaration, ?_⟩
  unfold groupOf? at h
  split_ifs at h with hfunction hclass hvariable
  · cases h
    obtain rfl := List.mem_singleton.mp hc
    exact ⟨.ofFunction rfl rfl rfl rfl hfunction, rfl⟩
  · obtain ⟨⟨info, body⟩, hinfo, h⟩ := Option.bind_eq_some_iff.mp h
    cases h
    obtain ⟨howner, hmember, hname⟩ := mem_methodsOf hc
    exact ⟨.ofMember info body hinfo howner hmember hname hclass, howner⟩
  · cases h
    obtain ⟨d, hd, hkind, howner, hvalue, hname, hdeclared⟩ := mem_bindingsOf hc
    exact ⟨.ofVariable d hd hkind howner hvalue hname hdeclared hvariable, howner⟩

theorem ReadFrom.isNode (hc : c.ReadFrom f s declaration declared)
    (h : declarationOf? statement = some (declaration, declared)) : statement.isNode = true := by
  rcases declarationOf?_eq_some h with ⟨hexport, -, -⟩ | ⟨-, rfl, -⟩
  · exact Tree.isNode_of_is hexport
  · cases hc with
    | ofFunction _ _ _ _ kind =>
      rcases (Bool.or_eq_true _ _).mp kind with h | h <;> exact Tree.isNode_of_is h
    | ofMember _ _ _ _ _ _ kind =>
      rcases (Bool.or_eq_true _ _).mp kind with h | h <;> exact Tree.isNode_of_is h
    | ofVariable _ _ _ _ _ _ _ kind =>
      rcases (Bool.or_eq_true _ _).mp kind with h | h <;> exact Tree.isNode_of_is h

/-- A candidate is exposed if its shape is no conflict, as its record in some namespace in camel
case, with the warnings on its types and its export. -/
theorem judge_eq_exposed {marking : Marking} {m : Method} {warnings : List Diagnostic}
    (h : c.judge marking f s = .exposed m warnings) :
    ∃ namespaceName shape, Text.isCamelCase namespaceName = true ∧ c.shape f = .ok shape ∧
      m = c.toMethod f s namespaceName shape ∧
      warnings = typeWarnings f s c ++ exportWarnings f s c := by
  unfold judge at h
  split at h
  · cases h
  · cases h
  · next annotation _ =>
    split at h
    · cases h
    · dsimp only at h
      split_ifs at h with hcase
      split at h
      · cases h
      · next shape hshape =>
        cases h
        exact ⟨_, shape, by simpa using hcase, hshape, rfl, rfl⟩

/-- A candidate that is exposed has nothing that keeps it from being so. -/
theorem obstacle?_of_exposed {marking : Marking} {m : Method} {warnings : List Diagnostic}
    (h : c.judge marking f s = .exposed m warnings) : c.obstacle? f = none := by
  unfold judge at h
  split at h
  · cases h
  · cases h
  · split at h
    · cases h
    · assumption

@[simp]
theorem toMethod_binding {namespaceName : String} {shape : ReturnShape} :
    (c.toMethod f s namespaceName shape).binding = c.binding f :=
  rfl

@[simp]
theorem toMethod_qualifier {namespaceName : String} {shape : ReturnShape} :
    (c.toMethod f s namespaceName shape).qualifier = c.qualifier f := by
  unfold Method.qualifier qualifier toMethod
  cases c.owner? <;> rfl

end Read

def accessOf (f : SourceFile) (member : Tree) : String :=
  ((member.nodes.find? (·.is .accessibilityModifier)).map f.text).getD "public"

def nameObstacle? (f : SourceFile) (c : Candidate) : Option Obstacle :=
  match c.name?.bind Tree.kind? with
  | some .propertyIdentifier => none
  | some .privatePropertyIdentifier => some .privateName
  | _ => some (.unusualName (c.name f))

theorem obstacle?_eq (f : SourceFile) (c : Candidate) : c.obstacle? f =
    (c.owner?.bind fun o =>
      if o.isAbstract then some (.abstractClass o.name)
      else if c.node.hasToken "static" then some .staticMethod
      else if accessOf f c.node != "public" then some (.restricted (accessOf f c.node))
      else if c.node.hasToken "get" || c.node.hasToken "set" then some .accessor
      else nameObstacle? f c).or
        (if c.isGenerator && !c.isAsync then some .synchronousGenerator else none) :=
  rfl

/-- A method that nothing keeps from being exposed has a plain name. -/
theorem name_kind_of_obstacle? {f : SourceFile} {c : Candidate} {info : ClassInfo}
    (howner : c.owner? = some info) (h : c.obstacle? f = none) :
    c.name?.bind Tree.kind? = some .propertyIdentifier := by
  rw [obstacle?_eq, Option.or_eq_none_iff, howner, Option.bind_some] at h
  obtain ⟨h, -⟩ := h
  split_ifs at h
  unfold nameObstacle? at h
  split at h
  · assumption
  · cases h
  · cases h

end Candidate

/-- A method is the record of a candidate that is read from a declaration at the top of a file. -/
structure SourceFile.Records (f : SourceFile) (c : Candidate) (m : Method) : Prop where
  read : ∃ statement ∈ f.tree.nodes, ∃ declaration declared,
    declarationOf? statement = some (declaration, declared) ∧
      c.ReadFrom f (Scope.ofFile f) declaration declared
  record : ∃ namespaceName shape, c.shape f = .ok shape ∧
    m = c.toMethod f (Scope.ofFile f) namespaceName shape

theorem SourceFile.exists_judged {f : SourceFile} {marking : Marking} {m : Method}
    (hm : m ∈ (f.extract marking).methods) :
    ∃ statement before, (statement, before) ∈ Candidate.withBefore [] f.tree.children ∧
      ∃ g, Candidate.group? f (Scope.ofFile f) statement before = some g ∧
        g ∈ Candidate.ofFile f (Scope.ofFile f) ∧ ∃ c ∈ g.candidates, ∃ warnings,
          c.judge marking f (Scope.ofFile f) = .exposed m warnings := by
  obtain ⟨y, hy, hmethod⟩ := List.mem_flatMap.mp hm
  obtain ⟨g, hg, rfl⟩ := List.mem_map.mp hy
  obtain ⟨verdict, hverdict, hsome⟩ := List.mem_filterMap.mp hmethod
  obtain ⟨c, hc, rfl⟩ := List.mem_map.mp hverdict
  obtain ⟨⟨statement, before⟩, hstatement, hgroup⟩ := List.mem_filterMap.mp hg
  refine ⟨statement, before, hstatement, g, hgroup, hg, c, hc, ?_⟩
  cases hjudge : c.judge marking f (Scope.ofFile f) with
  | notAnnotated =>
    rw [hjudge] at hsome
    cases hsome
  | dropped reason =>
    rw [hjudge] at hsome
    cases hsome
  | exposed m' warnings =>
    rw [hjudge] at hsome
    cases hsome
    exact ⟨warnings, rfl⟩

/-- A method of a file is the record of a candidate that is read from a declaration of some
statement, and the warnings on the candidate are reported. -/
theorem SourceFile.exists_candidate {f : SourceFile} {marking : Marking} {m : Method}
    (hm : m ∈ (f.extract marking).methods) :
    ∃ statement ∈ f.tree.nodes, ∃ declaration declared, ∃ c : Candidate, ∃ namespaceName shape,
      declarationOf? statement = some (declaration, declared) ∧
      c.ReadFrom f (Scope.ofFile f) declaration declared ∧
      Text.isCamelCase namespaceName = true ∧ c.shape f = .ok shape ∧
      m = c.toMethod f (Scope.ofFile f) namespaceName shape ∧
      c.typeWarnings f (Scope.ofFile f) ++ c.exportWarnings f (Scope.ofFile f) ⊆
        (f.extract marking).diagnostics := by
  obtain ⟨statement, before, hstatement, g, hgroup, hg, c, hc, warnings, hjudge⟩ := f.exists_judged hm
  obtain ⟨declaration, declared, hdeclaration, hread, -⟩ := Candidate.readFrom_of_mem_group hgroup hc
  obtain ⟨namespaceName, shape, hcase, hshape, hrecord, hwarnings⟩ :=
    Candidate.judge_eq_exposed hjudge
  have hnode : statement ∈ f.tree.nodes :=
    List.mem_filter.mpr ⟨Candidate.mem_of_mem_withBefore hstatement, hread.isNode hdeclaration⟩
  refine ⟨statement, hnode, declaration, declared, c, namespaceName, shape, hdeclaration, hread,
    hcase, hshape, hrecord, fun d hd => ?_⟩
  have hreported : d ∈ Verdict.diagnostics (c.judge marking f (Scope.ofFile f)) := by
    rw [hjudge, Verdict.diagnostics, hwarnings]
    exact hd
  refine List.mem_flatMap.mpr ⟨_, List.mem_map_of_mem hg, ?_⟩
  exact List.mem_append_left _ (List.mem_flatMap.mpr ⟨_, List.mem_map_of_mem hc, hreported⟩)

end CallBridge
