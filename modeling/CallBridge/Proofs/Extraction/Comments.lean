import CallBridge.Proofs.Extraction.CommentedSignatures

/-! # Comments and verdicts

A declaration with comments in its signature is accepted or dropped as before, as far as no comment is
in front of its return type. Its record has the types that it had, as far as no comment is in front of
one.
-/
namespace CallBridge

open Syntax (Tree)
open Syntax.Tree (Commented IsComment Similar)

namespace Annotation
variable {f f' : SourceFile} {t t' : Tree}

theorem literal?_eq (h : Alike f f' t t') : literal? f t = literal? f' t' := by
  have hparts : (t.children.any fun c => c.is .templateSubstitution) =
      t'.children.any fun c => c.is .templateSubstitution :=
    h.commented.2.any_eq (fun _ _ hc => hc.similar.is_eq _) fun _ hc => hc.is_eq_false (by decide)
  unfold literal?
  rw [h.similar.is_eq, h.similar.is_eq, h.text_eq, hparts]

def ofCall (f : SourceFile) (arguments : List Tree) : Except Fault Annotation :=
  match arguments with
  | [] => .ok ⟨none⟩
  | [argument] =>
    match literal? f argument with
    | some text => .ok ⟨some text⟩
    | none => .error (.notLiteral (f.text argument))
  | many => .error (.tooManyArguments many.length)

theorem ofCall_eq {as as' : List Tree} (h : List.Forall₂ (Alike f f') as as') :
    ofCall f as = ofCall f' as' := by
  cases h with
  | nil => rfl
  | cons ha hrest =>
    cases hrest with
    | nil =>
      simp only [ofCall]
      rw [literal?_eq ha, ha.text_eq]
    | cons hb hrest =>
      simp only [ofCall, List.length_cons, hrest.length_eq]

/-- The annotation in a decorator, by what stands behind the at sign. -/
theorem ofDecorator?_eq (f : SourceFile) (name : String) (decorator : Tree) :
    ofDecorator? f name decorator = decorator.firstNode?.bind fun inner =>
      if inner.is .identifier && f.text inner == name then some (.ok ⟨none⟩)
      else if inner.is .callExpression &&
          (inner.child? .function).any (fun t => t.is .identifier && f.text t == name) then
        some (ofCall f ((((inner.child? .arguments).map Tree.nodes).getD []).filter
          fun a => !a.is .comment))
      else none := by
  unfold ofDecorator?
  cases decorator.firstNode? with
  | none => rfl
  | some inner =>
    simp only [Option.bind_eq_bind, Option.bind_some]
    generalize ((((inner.child? .arguments).map Tree.nodes).getD []).filter
      fun a => !a.is .comment) = arguments
    rcases arguments with _ | ⟨argument, _ | ⟨second, rest⟩⟩
    · rfl
    · simp only [ofCall]
      cases literal? f argument <;> rfl
    · rfl

theorem arguments_alike (h : Alike f f' t t') : List.Forall₂ (Alike f f')
    ((((t.child? .arguments).map Tree.nodes).getD []).filter fun a => !a.is .comment)
    ((((t'.child? .arguments).map Tree.nodes).getD []).filter fun a => !a.is .comment) := by
  have hrel := h.commented.child? (fun _ _ => Alike.similar) .arguments
  generalize t.child? .arguments = o at hrel
  generalize t'.child? .arguments = o' at hrel
  cases hrel with
  | none => exact .nil
  | some hu =>
    refine List.rel_filter (fun a a' ha => ?_) (Tree.nodes_of_alike hu)
    have hkind := (Tree.similar_of_alike ha).is_eq .comment
    simp only [hkind]

theorem ofDecorator?_alike (h : Alike f f' t t') (name : String) :
    ofDecorator? f name t = ofDecorator? f' name t' := by
  have hfirst : Option.Rel (Alike f f') t.firstNode? t'.firstNode? :=
    Tree.rel_head? (Tree.nodes_of_alike h)
  have hword : ∀ u u' : Tree, Alike f f' u u' →
      (u.is .identifier && f.text u == name) = (u'.is .identifier && f'.text u' == name) :=
    fun u u' hu => by rw [hu.similar.is_eq, hu.text_eq]
  rw [ofDecorator?_eq, ofDecorator?_eq]
  refine bind_eq_of_rel hfirst fun inner inner' hinner => ?_
  have hfunction :=
    any_eq_of_rel (hinner.commented.child? (fun _ _ => Alike.similar) .function) hword
  rw [hword _ _ hinner, hinner.similar.is_eq .callExpression, hfunction,
    ofCall_eq (arguments_alike hinner)]

theorem read_eq {ds ds' cs cs' : List Tree} (hds : List.Forall₂ (Alike f f') ds ds')
    (hcs : List.Forall₂ (Alike f f') cs cs') (name : String) :
    read f name ds cs = read f' name ds' cs' := by
  have hdecorators : ds.filterMap (ofDecorator? f name) = ds'.filterMap (ofDecorator? f' name) :=
    filterMap_eq_of_forall₂ (hds.imp fun _ _ hd => ofDecorator?_alike hd name)
  have hcomments : (cs.flatMap fun c => tags name (f.text c)) =
      cs'.flatMap fun c => tags name (f'.text c) :=
    flatMap_eq_of_forall₂ (hcs.imp fun _ _ hc => by rw [hc.text_eq])
  unfold read
  rw [hdecorators, hcomments]

end Annotation

namespace Candidate
variable {f f' : SourceFile} {c c' : Candidate}

theorem accessOf_eq {t t' : Tree} (h : Commented (FunctionPart f f') t t') :
    accessOf f t = accessOf f' t' := by
  have hmodifier : Option.Rel (Alike f f') (t.nodes.find? (·.is .accessibilityModifier))
      (t'.nodes.find? (·.is .accessibilityModifier)) := by
    have hpart : Option.Rel (FunctionPart f f') (t.nodes.find? (·.is .accessibilityModifier))
        (t'.nodes.find? (·.is .accessibilityModifier)) := by
      rw [← List.head?_filter, ← List.head?_filter]
      refine Tree.rel_head? (h.nodes_filter (fun _ _ => FunctionPart.similar) ?_ ?_)
      · exact fun _ _ ht => ht.similar.is_eq _
      · exact fun _ hc => hc.is_eq_false (by decide)
    generalize hfound : t.nodes.find? (·.is .accessibilityModifier) = o at hpart ⊢
    generalize t'.nodes.find? (·.is .accessibilityModifier) = o' at hpart ⊢
    cases hpart with
    | none => exact .none
    | @some part _ hpart =>
      have hkind : part.kind? = some .accessibilityModifier := by
        simpa [Tree.is] using List.find?_some hfound
      rcases hpart with hsame | ⟨⟨-, hlist⟩, -⟩ | ⟨⟨-, hresult⟩, -⟩
      · exact .some hsame
      · simp [Tree.is, hkind] at hlist
      · simp [Tree.is, hkind] at hresult
  rw [accessOf, accessOf, map_text_eq hmodifier]

namespace WithComments
variable (h : c.WithComments f f' c')
include h

theorem name_eq : c.name f = c'.name f' := by
  rw [Candidate.name, Candidate.name, map_text_eq h.name]

theorem isAsync_eq : c.isAsync = c'.isAsync :=
  Signature.isAsync_eq h.function

theorem isGenerator_eq : c.isGenerator = c'.isGenerator :=
  Signature.isGenerator_eq h.function

theorem nameObstacle?_eq : c.nameObstacle? f = c'.nameObstacle? f' := by
  have hkind : c.name?.bind Tree.kind? = c'.name?.bind Tree.kind? :=
    bind_eq_of_rel h.name fun _ _ hn => hn.similar.1
  unfold nameObstacle?
  rw [hkind, h.name_eq]

theorem obstacle?_eq : c.obstacle? f = c'.obstacle? f' := by
  rw [Candidate.obstacle?_eq, Candidate.obstacle?_eq, h.isGenerator_eq, h.isAsync_eq, ← h.owner]
  cases howner : c.owner? with
  | none => rfl
  | some o =>
    obtain ⟨hnode, hnode'⟩ := h.member (by rw [howner]; rfl)
    have htoken := h.function.hasToken_eq fun _ _ => FunctionPart.similar
    rw [Option.bind_some, Option.bind_some, hnode, hnode', htoken, htoken, htoken,
      accessOf_eq h.function, h.nameObstacle?_eq]

theorem typeParameters_eq : c.typeParameters f = c'.typeParameters f' := by
  rw [Candidate.typeParameters, Candidate.typeParameters, Signature.typeParameters_eq h.function,
    h.owner]

theorem exported_eq (s : Scope) : c.exported f s = c'.exported f' s := by
  unfold Candidate.exported
  rw [← h.owner, h.name_eq, h.declared]

theorem typeRefs_eq (s : Scope) (hfirst : Signature.TypesFirst c'.function) :
    (c.freeTypes f).filterMap (typeRef? f s) = (c'.freeTypes f').filterMap (typeRef? f' s) := by
  have href : typeRef? f s = typeRef? f' s := by
    funext name
    unfold typeRef?
    rw [h.path]
  rw [freeTypes, freeTypes, Signature.mentioned_eq h.function hfirst, h.typeParameters_eq, href]

/-- Without a comment in front of the return type the shape is the one that it was, or that of the type
as it is written. -/
theorem shape_cases (hfirst : ∀ r ∈ Signature.returnType? c'.function, ¬ IsComment r) :
    (∃ e e', c.shape f = .error e ∧ c'.shape f' = .error e') ∨
      ∃ q q', c.shape f = .ok q ∧ c'.shape f' = .ok q' ∧
        (q' = q ∨ ∃ r ∈ Signature.returnType? c.function, ∃ r' ∈ Signature.returnType? c'.function,
          q = .value (f.text r) ∧ q' = .value (f'.text r')) := by
  have hreturns : Option.Rel (ReturnedType f f') (Signature.returnType? c.function)
      (Signature.returnType? c'.function) := by
    rcases Signature.returnType?_cases h.function with hrel | ⟨r, hr, hcomment⟩
    · exact hrel
    · exact absurd hcomment (hfirst r hr)
  unfold Candidate.shape
  rw [h.isAsync_eq, h.isGenerator_eq]
  generalize Signature.returnType? c.function = o at hreturns
  generalize Signature.returnType? c'.function = o' at hreturns
  cases hreturns with
  | none => exact .inr ⟨_, _, rfl, rfl, .inl rfl⟩
  | @some r r' hr =>
    dsimp only
    rcases ReturnShape.ofType_cases hr with hsame | ⟨hvalue, hvalue'⟩
    · rw [hsame]
      cases (ReturnShape.ofType f r).conflict? c'.isAsync c'.isGenerator with
      | none => exact .inr ⟨_, _, rfl, rfl, .inl rfl⟩
      | some e => exact .inl ⟨e, e, rfl, rfl⟩
    · have hconflict := ReturnShape.isSome_conflict?_value (f.text r) (f'.text r') c'.isAsync
        c'.isGenerator
      rw [hvalue, hvalue']
      cases he : (ReturnShape.value (f.text r)).conflict? c'.isAsync c'.isGenerator <;>
        cases he' : (ReturnShape.value (f'.text r')).conflict? c'.isAsync c'.isGenerator <;>
          rw [he, he'] at hconflict
      · exact .inr ⟨_, _, rfl, rfl, .inr ⟨r, rfl, r', rfl, rfl, rfl⟩⟩
      · cases hconflict
      · cases hconflict
      · exact .inl ⟨_, _, rfl, rfl⟩

end WithComments

theorem isAsync_or_of_obstacle? (h : c.obstacle? f = none) :
    c.isAsync = true ∨ c.isAsync = false ∧ c.isGenerator = false := by
  rw [obstacle?_eq, Option.or_eq_none_iff] at h
  cases hasync : c.isAsync with
  | true => exact .inl rfl
  | false =>
    refine .inr ⟨rfl, ?_⟩
    by_contra hgenerator
    simp [hasync, hgenerator] at h

theorem shape_of_comment {r : Tree} (hr : r ∈ Signature.returnType? c.function) (hc : IsComment r) :
    (c.isAsync = true → ∃ e, c.shape f = .error e) ∧
      (c.isAsync = false ∧ c.isGenerator = false → c.shape f = .ok (.value (f.text r))) := by
  have hfound : Signature.returnType? c.function = some r := hr
  unfold shape
  rw [hfound]
  dsimp only
  rw [ReturnShape.ofType_comment hc]
  constructor
  · intro hasync
    rw [hasync]
    cases c.isGenerator <;> exact ⟨_, rfl⟩
  · rintro ⟨hasync, hgenerator⟩
    rw [hasync, hgenerator]
    rfl

theorem exists_shape (hasync : c.isAsync = false) (hgenerator : c.isGenerator = false) :
    ∃ q, c.shape f = .ok q := by
  unfold shape
  rw [hasync, hgenerator]
  cases Signature.returnType? c.function with
  | none => exact ⟨_, rfl⟩
  | some r => exact ⟨_, rfl⟩

/-- How the record of a candidate is read with comments in its signature. Where no comment is in front
of a type, all is as before, but for types that are taken as they are written. -/
structure Rereads (f f' : SourceFile) (c c' : Candidate) (m m' : Method) : Prop where
  same : m' = { m with
    line := m'.line, shape := m'.shape, parameters := m'.parameters, typeRefs := m'.typeRefs }
  parameters : List.Forall₂ (fun p p' : Parameter => p' = { p with type := p'.type }) m.parameters
    m'.parameters
  types : Signature.TypesFirst c'.function →
    m'.parameters = m.parameters ∧ m'.typeRefs = m.typeRefs
  shape : (∀ r ∈ Signature.returnType? c'.function, ¬ IsComment r) → m'.shape = m.shape ∨
    ∃ r ∈ Signature.returnType? c.function, ∃ r' ∈ Signature.returnType? c'.function,
      m.shape = .value (f.text r) ∧ m'.shape = .value (f'.text r')
  commentShape : ∀ r ∈ Signature.returnType? c'.function, IsComment r →
    m'.shape = .value (f'.text r)

/-- How a candidate is judged with comments in its signature. -/
inductive Rejudges (f f' : SourceFile) (c c' : Candidate) : Verdict → Verdict → Prop
  | notAnnotated : Rejudges f f' c c' .notAnnotated .notAnnotated
  | dropped {d d' : Diagnostic} (problem : d'.problem = d.problem) :
    Rejudges f f' c c' (.dropped d) (.dropped d')
  | exposed {m m' : Method} {ws ws' : List Diagnostic}
    (first : c.isAsync = true → ∀ r ∈ Signature.returnType? c'.function, ¬ IsComment r)
    (record : Rereads f f' c c' m m') : Rejudges f f' c c' (.exposed m ws) (.exposed m' ws')
  /-- An asynchronous declaration is dropped if a comment is in front of its return type. -/
  | lost {m : Method} {ws : List Diagnostic} {d : Diagnostic} {r : Tree} (async : c.isAsync = true)
    (returns : r ∈ Signature.returnType? c'.function) (comment : IsComment r)
    (problem : d.problem = .unsupportedReturnType) : Rejudges f f' c c' (.exposed m ws) (.dropped d)

section Rejudged
variable (h : c.WithComments f f' c')
include h

theorem WithComments.rereads (s : Scope) (namespaceName : String) {q q' : ReturnShape}
    (hshape : (∀ r ∈ Signature.returnType? c'.function, ¬ IsComment r) → q' = q ∨
      ∃ r ∈ Signature.returnType? c.function, ∃ r' ∈ Signature.returnType? c'.function,
        q = .value (f.text r) ∧ q' = .value (f'.text r'))
    (hcomment : ∀ r ∈ Signature.returnType? c'.function, IsComment r → q' = .value (f'.text r)) :
    Rereads f f' c c' (c.toMethod f s namespaceName q) (c'.toMethod f' s namespaceName q') where
  same := by
    simp only [toMethod, ← h.name_eq, ← h.owner, ← h.path, ← h.exported_eq s]
  parameters := Signature.parameters_rel h.function
  types := fun hfirst =>
    ⟨(Signature.parameters_eq_of_typesFirst h.function hfirst).symm, (h.typeRefs_eq s hfirst).symm⟩
  shape := hshape
  commentShape := hcomment

/-- With comments in its signature a declaration is accepted or dropped as before, and its record is
the one that it was, as far as no comment is in front of a type. A comment in front of the return type
is taken for the type, and an asynchronous declaration is dropped for it. -/
theorem judge_withComments (marking : Marking) (s : Scope) :
    Rejudges f f' c c' (c.judge marking f s) (c'.judge marking f' s) := by
  have hread := Annotation.read_eq h.decorators h.comments
  unfold judge
  rw [hread, h.obstacle?_eq]
  cases Annotation.read f' marking.annotation c'.decorators c'.comments with
  | error fault => exact .dropped rfl
  | ok read =>
    cases read with
    | none => exact .notAnnotated
    | some annotation =>
      cases hobstacle : c'.obstacle? f' with
      | some obstacle => exact .dropped rfl
      | none =>
        dsimp only
        split_ifs
        · exact .dropped rfl
        have hkind := isAsync_or_of_obstacle? hobstacle
        by_cases hfirst : ∀ r ∈ Signature.returnType? c'.function, ¬ IsComment r
        · rcases h.shape_cases hfirst with ⟨e, e', he, he'⟩ | ⟨q, q', hq, hq', hshape⟩
          · rw [he, he']
            exact .dropped rfl
          · rw [hq, hq']
            exact .exposed (fun _ => hfirst) (h.rereads s _ (fun _ => hshape)
              fun r hr hc => absurd hc (hfirst r hr))
        · obtain ⟨r, hr, hc⟩ : ∃ r ∈ Signature.returnType? c'.function, IsComment r := by
            simpa using hfirst
          obtain ⟨hlost, hvalue⟩ := shape_of_comment (f := f') hr hc
          rcases hkind with hasync | ⟨hasync, hgenerator⟩
          · obtain ⟨e', he'⟩ := hlost hasync
            rw [he']
            cases c.shape f with
            | error e => exact .dropped rfl
            | ok q => exact .lost (h.isAsync_eq.trans hasync) hr hc rfl
          · obtain ⟨q, hq⟩ := exists_shape (f := f) (h.isAsync_eq.trans hasync)
              (h.isGenerator_eq.trans hgenerator)
            rw [hq, hvalue ⟨hasync, hgenerator⟩]
            refine .exposed (fun hc => ?_) (h.rereads s _ (fun hnone => absurd hc (hnone r hr)) ?_)
            · rw [h.isAsync_eq, hasync] at hc
              cases hc
            · intro r' hr' _
              rw [Option.mem_unique hr' hr]

end Rejudged

section Sample

private def second (start stop : Nat) : Syntax.Span :=
  ⟨start, stop, 1, 1⟩

/-- A function with a parameter and a generic result, and trees behind the parameter and in front of the
argument of the result. -/
def sampleFunction (behind inFront : List Tree) : Tree :=
  .node .functionDeclaration none (second 11 36) [
    .token "function" (second 11 19),
    .node .identifier (some .name) (second 20 21) [],
    .node .formalParameters (some .parameters) (second 21 27) ([
      .token "(" (second 21 22),
      .node .requiredParameter none (second 22 26) [
        .node .identifier (some .pattern) (second 22 23) [],
        .node .typeClause (some .type) (second 23 26) [
          .token ":" (second 23 24), .node .typeIdentifier none (second 25 26) []]]] ++
      behind ++ [.token ")" (second 26 27)]),
    .node .typeClause (some .returnType) (second 27 33) [
      .token ":" (second 27 28),
      .node .genericType none (second 29 33) [
        .node .typeIdentifier (some .name) (second 29 30) [],
        .node .typeArguments (some .typeArguments) (second 30 33) (
          [.token "<" (second 30 31)] ++ inFront ++
          [.node .typeIdentifier none (second 31 32) [], .token ">" (second 32 33)])]],
    .node .statementBlock (some .body) (second 34 36) [
      .token "\x7b" (second 34 35), .token "\x7d" (second 35 36)]]

def sampleComment : Tree :=
  .node .comment none ⟨0, 10, 0, 0⟩ []

def sampleFile : SourceFile :=
  ⟨⟨"/app/src/a.ts"⟩, ⟨"// @expose\nfunction a(b: T): P<T> \x7b\x7d\n".toUTF8⟩,
    .node .program none ⟨0, 37, 0, 2⟩ [sampleComment, sampleFunction [] []]⟩

/-- The candidate of the file, with trees in its signature. -/
def sample (behind inFront : List Tree) : Candidate where
  owner? := none
  node := sampleFunction behind inFront
  function := sampleFunction behind inFront
  name? := (sampleFunction behind inFront).child? .name
  declared := .none
  decorators := []
  comments := [sampleComment]

theorem sample_rejudged :
    (sample [] []).WithComments sampleFile sampleFile (sample [sampleComment] [sampleComment]) ∧
    ((sample [] []).judge {} sampleFile (Scope.ofFile sampleFile)).method?.isSome = true ∧
    Rejudges sampleFile sampleFile (sample [] []) (sample [sampleComment] [sampleComment])
      ((sample [] []).judge {} sampleFile (Scope.ofFile sampleFile))
      ((sample [sampleComment] [sampleComment]).judge {} sampleFile
        (Scope.ofFile sampleFile)) := by
  have hwith : (sample [] []).WithComments sampleFile sampleFile
      (sample [sampleComment] [sampleComment]) := {
    path := rfl
    owner := rfl
    name := by decide +kernel
    declared := rfl
    decorators := .nil
    comments := by decide +kernel
    function := by decide +kernel
    member := fun h => absurd h (by decide) }
  exact ⟨hwith, by decide +kernel, judge_withComments hwith {} (Scope.ofFile sampleFile)⟩

end Sample

/-- A file with a function that has a comment in front of its return type. -/
def leadingCommentFile : SourceFile :=
  let source : Syntax.Source := ⟨("// @expose\nexport async function load(): /* later */ " ++
    "Promise<void> \x7b\x7d\n").toUTF8⟩
  ⟨⟨"/app/src/a.ts"⟩, source, Syntax.Dialect.plain.parse source⟩

def bareFile : SourceFile :=
  let source : Syntax.Source := ⟨("// @expose\nexport async function load(): Promise<void> " ++
    "\x7b\x7d\n").toUTF8⟩
  ⟨⟨"/app/src/a.ts"⟩, source, Syntax.Dialect.plain.parse source⟩

theorem leading_comment_drops :
    bareFile.faultLine? = none ∧ leadingCommentFile.faultLine? = none ∧
    (∃ g ∈ ofFile bareFile (Scope.ofFile bareFile), ∃ c ∈ g.candidates,
      ∃ g' ∈ ofFile leadingCommentFile (Scope.ofFile leadingCommentFile), ∃ c' ∈ g'.candidates,
        Commented (Commented Similar) c.function c'.function) ∧
    ((bareFile.extract {}).methods.map fun m => (m.name, m.shape)) = [("load", .asyncValue "void")] ∧
    (bareFile.extract {}).diagnostics = [] ∧
    (leadingCommentFile.extract {}).methods = [] ∧
    (leadingCommentFile.extract {}).diagnostics.map Diagnostic.problem =
      [.unsupportedReturnType] := by
  decide +kernel

end Candidate

end CallBridge
