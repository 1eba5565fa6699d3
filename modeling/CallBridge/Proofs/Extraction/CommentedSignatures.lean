import CallBridge.Proofs.Extraction.TypeNames
import CallBridge.Proofs.Syntax.Alike

/-! # Comments inside signatures

A signature may have comments between its parts. Parameters, type arguments and type names are looked
for by their kinds and roles, so comments are passed over there. The type of an annotation is the
first node in it, so a comment in front of the type is taken for the type.
-/
namespace CallBridge

open Syntax (Tree)
open Syntax.Tree (Commented Inserted IsComment Similar)

section Relations
variable (f f' : SourceFile)

def Alike (t t' : Tree) : Prop :=
  Tree.alike f.source f'.source t t' = true

instance : DecidableRel (Alike f f') := fun _ _ =>
  inferInstanceAs (Decidable (_ = true))

def GenericPart (t t' : Tree) : Prop :=
  Alike f f' t t' ∨
    (t.is .typeArguments = true ∧ t.field? = some .typeArguments) ∧ Commented (Alike f f') t t'

def ReturnedType (t t' : Tree) : Prop :=
  Alike f f' t t' ∨ t.is .genericType = true ∧ Commented (GenericPart f f') t t'

def ParameterPart (t t' : Tree) : Prop :=
  Alike f f' t t' ∨ t.field? = some .type ∧ Commented (Alike f f') t t'

def ListPart (t t' : Tree) : Prop :=
  Alike f f' t t' ∨
    (t.is .requiredParameter || t.is .optionalParameter) = true ∧
      Commented (ParameterPart f f') t t'

def IsResult (t : Tree) : Prop :=
  t.field? = some .returnType ∧
    (t.is .typeClause || t.is .assertsClause || t.is .predicateClause) = true

instance : DecidablePred IsResult := fun _ =>
  inferInstanceAs (Decidable (_ ∧ _))

/-- Parts of a function, with comments in its parameter list and its return type annotation. -/
def FunctionPart (t t' : Tree) : Prop :=
  Alike f f' t t' ∨
    (t.field? = some .parameters ∧ t.is .formalParameters = true) ∧ Commented (ListPart f f') t t' ∨
    IsResult t ∧ Commented (ReturnedType f f') t t'

instance : DecidableRel (GenericPart f f') := fun _ _ => inferInstanceAs (Decidable (_ ∨ _))

instance : DecidableRel (ReturnedType f f') := fun _ _ => inferInstanceAs (Decidable (_ ∨ _))

instance : DecidableRel (ParameterPart f f') := fun _ _ => inferInstanceAs (Decidable (_ ∨ _))

instance : DecidableRel (ListPart f f') := fun _ _ => inferInstanceAs (Decidable (_ ∨ _))

instance : DecidableRel (FunctionPart f f') := fun _ _ => inferInstanceAs (Decidable (_ ∨ _))

/-- The second candidate is the first one with comments in its signature. -/
structure Candidate.WithComments (c c' : Candidate) : Prop where
  path : f.path = f'.path
  owner : c.owner? = c'.owner?
  name : Option.Rel (Alike f f') c.name? c'.name?
  declared : c.declared = c'.declared
  decorators : List.Forall₂ (Alike f f') c.decorators c'.decorators
  comments : List.Forall₂ (Alike f f') c.comments c'.comments
  function : Commented (FunctionPart f f') c.function c'.function
  member : c.owner?.isSome = true → c.node = c.function ∧ c'.node = c'.function

end Relations

section Trees
variable {f f' : SourceFile} {t t' : Tree}

theorem Alike.similar (h : Alike f f' t t') : Similar t t' :=
  Tree.similar_of_alike h

theorem Alike.text_eq (h : Alike f f' t t') : f.text t = f'.text t' :=
  Tree.text_of_alike h

theorem Alike.commented (h : Alike f f' t t') : Commented (Alike f f') t t' :=
  Tree.commented_of_alike h

theorem GenericPart.commented (h : GenericPart f f' t t') : Commented (Alike f f') t t' :=
  h.elim Alike.commented And.right

theorem ReturnedType.commented (h : ReturnedType f f' t t') : Commented (GenericPart f f') t t' :=
  h.elim (fun h => h.commented.mono fun _ _ => .inl) And.right

theorem ParameterPart.commented (h : ParameterPart f f' t t') : Commented (Alike f f') t t' :=
  h.elim Alike.commented And.right

theorem ListPart.commented (h : ListPart f f' t t') : Commented (ParameterPart f f') t t' :=
  h.elim (fun h => h.commented.mono fun _ _ => .inl) And.right

theorem FunctionPart.similar (h : FunctionPart f f' t t') : Similar t t' := by
  rcases h with h | ⟨-, h⟩ | ⟨-, h⟩
  · exact h.similar
  · exact h.1
  · exact h.1

/-- A part of a function that is neither its parameter list nor its return type reads alike. -/
theorem FunctionPart.alike (h : FunctionPart f f' t t') (hlist : t.field? ≠ some .parameters)
    (htype : t.field? ≠ some .returnType) : Alike f f' t t' := by
  rcases h with h | ⟨⟨hfield, -⟩, -⟩ | ⟨⟨hfield, -⟩, -⟩
  · exact h
  · exact absurd hfield hlist
  · exact absurd hfield htype

theorem map_text_eq {o o' : Option Tree} (h : Option.Rel (Alike f f') o o') :
    o.map f.text = o'.map f'.text :=
  map_eq_of_rel h fun _ _ ht => ht.text_eq

theorem Alike.child?_text (h : Alike f f' t t') (r : Syntax.Field) :
    (t.child? r).map f.text = (t'.child? r).map f'.text :=
  map_text_eq (h.commented.child? (fun _ _ => Alike.similar) r)

namespace Signature

def namesIn (f : SourceFile) (t : Tree) : List String :=
  (typeNames t).map f.text

theorem typeNamesAll_map (f : SourceFile) (ts : List Tree) :
    (typeNamesAll ts).map f.text = ts.flatMap (namesIn f) := by
  induction ts with
  | nil => rfl
  | cons t ts ih => rw [typeNamesAll, List.map_append, ih, List.flatMap_cons, namesIn]

theorem namesIn_comment {c : Tree} (hc : IsComment c) (f : SourceFile) : namesIn f c = [] := by
  obtain ⟨s, rfl⟩ := hc.eq
  rw [namesIn, typeNames_node (by decide) (by decide), typeNamesAll, List.map_nil]

theorem namesIn_token (f : SourceFile) (w : String) (s : Syntax.Span) : namesIn f (.token w s) = [] :=
  rfl

theorem namesIn_missing (f : SourceFile) (s : Syntax.Span) : namesIn f (.missing s) = [] :=
  rfl

theorem flatMap_namesIn {R : Tree → Tree → Prop} {ts ts' : List Tree} (h : Inserted R ts ts')
    (hR : ∀ t t', R t t' → namesIn f t = namesIn f' t') :
    ts.flatMap (namesIn f) = ts'.flatMap (namesIn f') := by
  induction h with
  | nil => rw [List.flatMap_nil, List.flatMap_nil]
  | keep ht _ ih => rw [List.flatMap_cons, List.flatMap_cons, hR _ _ ht, ih]
  | comment hc _ ih => rw [List.flatMap_cons, ih, namesIn_comment hc, List.nil_append]

theorem namesIn_eq_parts {k : Syntax.Kind} (ht : t.is k = true) (hqualified : k ≠ .nestedTypeIdentifier)
    (hname : k ≠ .typeIdentifier) : namesIn f t = t.children.flatMap (namesIn f) := by
  cases t with
  | node kind r s cs =>
    obtain rfl : kind = k := by simpa [Tree.is, Tree.kind?] using ht
    rw [namesIn, typeNames_node hqualified hname, typeNamesAll_map]
    rfl
  | token w s => cases ht
  | missing s => cases ht

theorem namesIn_commented {R : Tree → Tree → Prop} {k : Syntax.Kind} (ht : t.is k = true)
    (h : Commented R t t') (hR : ∀ t t', R t t' → namesIn f t = namesIn f' t')
    (hqualified : k ≠ .nestedTypeIdentifier) (hname : k ≠ .typeIdentifier) :
    namesIn f t = namesIn f' t' := by
  have ht' : t'.is k = true := h.1.is_eq k ▸ ht
  rw [namesIn_eq_parts ht hqualified hname, namesIn_eq_parts ht' hqualified hname,
    flatMap_namesIn h.2 hR]

mutual

theorem namesIn_alike : ∀ {t t' : Tree}, Alike f f' t t' → namesIn f t = namesIn f' t'
  | .node k r s cs, .node k' r' s' cs', h => by
    have hsimilar := h.similar
    obtain rfl : k = k' := Option.some.inj hsimilar.1
    by_cases hqualified : k = .nestedTypeIdentifier
    · subst hqualified
      simp [namesIn, typeNames]
    · by_cases hname : k = .typeIdentifier
      · subst hname
        have htext := h.text_eq
        simpa [namesIn, typeNames] using htext
      · unfold Alike Tree.alike at h
        simp only [Bool.and_eq_true] at h
        rw [namesIn_eq_parts (k := k) (by simp [Tree.is, Tree.kind?]) hqualified hname,
          namesIn_eq_parts (k := k) (by simp [Tree.is, Tree.kind?]) hqualified hname]
        exact flatMap_namesIn_alike h.2
  | .token _ _, .token _ _, _ => by rw [namesIn_token, namesIn_token]
  | .missing _, .missing _, _ => by rw [namesIn_missing, namesIn_missing]
  | .node _ _ _ _, .token _ _, h => by cases h
  | .node _ _ _ _, .missing _, h => by cases h
  | .token _ _, .node _ _ _ _, h => by cases h
  | .token _ _, .missing _, h => by cases h
  | .missing _, .node _ _ _ _, h => by cases h
  | .missing _, .token _ _, h => by cases h

theorem flatMap_namesIn_alike : ∀ {ts ts' : List Tree},
    Tree.alikeAll f.source f'.source ts ts' = true →
      ts.flatMap (namesIn f) = ts'.flatMap (namesIn f')
  | [], [], _ => by rw [List.flatMap_nil, List.flatMap_nil]
  | t :: ts, t' :: ts', h => by
    rw [Tree.alikeAll, Bool.and_eq_true] at h
    have hfirst : namesIn f t = namesIn f' t' := namesIn_alike h.1
    rw [List.flatMap_cons, List.flatMap_cons, hfirst, flatMap_namesIn_alike h.2]
  | [], _ :: _, h => by cases h
  | _ :: _, [], h => by cases h

end

theorem namesIn_genericPart (h : GenericPart f f' t t') : namesIn f t = namesIn f' t' := by
  rcases h with h | ⟨⟨hkind, -⟩, h⟩
  · exact namesIn_alike h
  · exact namesIn_commented hkind h (fun _ _ => namesIn_alike) (by decide) (by decide)

theorem namesIn_returnedType (h : ReturnedType f f' t t') : namesIn f t = namesIn f' t' := by
  rcases h with h | ⟨hkind, h⟩
  · exact namesIn_alike h
  · exact namesIn_commented hkind h (fun _ _ => namesIn_genericPart) (by decide) (by decide)

end Signature

theorem GenericPart.similar (h : GenericPart f f' t t') : Similar t t' :=
  h.commented.1

theorem ParameterPart.similar (h : ParameterPart f f' t t') : Similar t t' :=
  h.commented.1

theorem ListPart.similar (h : ListPart f f' t t') : Similar t t' :=
  h.commented.1

/-- The annotation of a type in a role is the one that was there, with comments in it. -/
theorem typeOf?_cases {R : Tree → Tree → Prop} {r : Syntax.Field}
    (h : Option.Rel (Commented R) (t.child? r) (t'.child? r)) (hR : ∀ t t', R t t' → Similar t t') :
    Option.Rel R (Signature.typeOf? t r) (Signature.typeOf? t' r) ∨
      ∃ c ∈ Signature.typeOf? t' r, IsComment c := by
  unfold Signature.typeOf?
  generalize t.child? r = o at h
  generalize t'.child? r = o' at h
  cases h with
  | none => exact .inl .none
  | some h => exact h.firstNode? hR

namespace Signature

section Function
variable (h : Commented (FunctionPart f f') t t')
include h

theorem isAsync_eq : isAsync t = isAsync t' :=
  h.hasToken_eq (fun _ _ => FunctionPart.similar) "async"

theorem isGenerator_eq : isGenerator t = isGenerator t' :=
  h.hasToken_eq (fun _ _ => FunctionPart.similar) "*"

theorem child?_alike {r : Syntax.Field} (hlist : r ≠ .parameters) (htype : r ≠ .returnType) :
    Option.Rel (Alike f f') (t.child? r) (t'.child? r) := by
  refine h.child?_of (fun _ _ => FunctionPart.similar) r fun p p' hfield hpart => ?_
  exact hpart.alike (by simpa [hfield] using hlist) (by simpa [hfield] using htype)

omit h in
theorem filterMap_name_eq {ps ps' : List Tree} (h : List.Forall₂ (Alike f f') ps ps') :
    ps.filterMap (fun p => (p.child? .name).map f.text) =
      ps'.filterMap fun p => (p.child? .name).map f'.text :=
  filterMap_eq_of_forall₂ (h.imp fun _ _ hp => hp.child?_text .name)

theorem typeParameters_eq : typeParameters f t = typeParameters f' t' := by
  have hdeclared := child?_alike h (r := .typeParameters) (by decide) (by decide)
  unfold typeParameters
  generalize t.child? .typeParameters = o at hdeclared
  generalize t'.child? .typeParameters = o' at hdeclared
  cases hdeclared with
  | none => exact filterMap_name_eq .nil
  | some hlist =>
    refine filterMap_name_eq (hlist.commented.nodes_filter (fun _ _ => Alike.similar) ?_ ?_)
    · exact fun _ _ ht => ht.similar.is_eq _
    · exact fun _ hc => hc.is_eq_false (by decide)

theorem returnType?_cases :
    Option.Rel (ReturnedType f f') (returnType? t) (returnType? t') ∨
      ∃ c ∈ returnType? t', IsComment c := by
  refine typeOf?_cases (h.child?_of (fun _ _ => FunctionPart.similar) .returnType
    fun p p' hfield hpart => ?_) fun _ _ h => h.commented.1
  rcases hpart with hsame | ⟨⟨hlist, -⟩, -⟩ | ⟨-, hcommented⟩
  · exact hsame.commented.mono fun _ _ => .inl
  · rw [hfield] at hlist
    cases hlist
  · exact hcommented

/-- The parameters are those that were there, with comments in them. -/
theorem parameterNodes_rel : List.Forall₂ (ListPart f f') (parameterNodes t) (parameterNodes t') := by
  have hlist : Option.Rel (Commented (ListPart f f')) (t.child? .parameters)
      (t'.child? .parameters) := by
    refine h.child?_of (fun _ _ => FunctionPart.similar) .parameters fun p p' hfield hpart => ?_
    rcases hpart with hsame | ⟨-, hcommented⟩ | ⟨⟨htype, -⟩, -⟩
    · exact hsame.commented.mono fun _ _ => .inl
    · exact hcommented
    · rw [hfield] at htype
      cases htype
  have hbare := child?_alike h (r := .parameter) (by decide) (by decide)
  unfold parameterNodes
  generalize t.child? .parameter = o at hbare
  generalize t'.child? .parameter = o' at hbare
  cases hbare with
  | some hp => exact .cons (.inl hp) .nil
  | none =>
    generalize t.child? .parameters = l at hlist
    generalize t'.child? .parameters = l' at hlist
    cases hlist with
    | none => exact .nil
    | some hlist =>
      refine hlist.nodes_filter (fun _ _ => ListPart.similar) (fun _ _ ht => ?_) fun _ hc => ?_
      · rw [ht.similar.is_eq, ht.similar.is_eq]
      · rw [hc.is_eq_false (by decide), hc.is_eq_false (by decide)]
        rfl

end Function

end Signature

section Parameter
open Signature
variable (h : ListPart f f' t t')
include h

theorem ListPart.child?_alike {r : Syntax.Field} (hr : r ≠ .type) :
    Option.Rel (Alike f f') (t.child? r) (t'.child? r) := by
  refine h.commented.child?_of (fun _ _ => ParameterPart.similar) r fun p p' hfield hpart => ?_
  rcases hpart with hsame | ⟨htype, -⟩
  · exact hsame
  · exact absurd (Option.some.inj (hfield.symm.trans htype)) hr

theorem ListPart.typeOf?_cases :
    Option.Rel (Alike f f') (typeOf? t .type) (typeOf? t' .type) ∨
      ∃ c ∈ typeOf? t' .type, IsComment c := by
  refine CallBridge.typeOf?_cases ?_ fun _ _ => Alike.similar
  exact h.commented.child?_of (fun _ _ => ParameterPart.similar) .type fun _ _ _ => ParameterPart.commented

theorem ListPart.text_of_identifier (ht : t.is .identifier = true) : f.text t = f'.text t' := by
  rcases h with hsame | ⟨hkind, -⟩
  · exact hsame.text_eq
  · have hnone : ∀ k : Syntax.Kind, k ≠ .identifier → t.is k = false := fun k hk => by
      simpa [Tree.is, beq_iff_eq.mp ht] using hk.symm
    rw [hnone _ (by decide), hnone _ (by decide)] at hkind
    cases hkind

omit h in
theorem wholeName?_alike {pattern pattern' : Tree} (h : Alike f f' pattern pattern') :
    wholeName? f pattern = wholeName? f' pattern' := by
  unfold wholeName?
  rw [h.similar.is_eq, h.similar.is_eq, h.text_eq]
  have hfirst : Option.Rel (Alike f f') pattern.firstNode? pattern'.firstNode? :=
    Tree.rel_head? (Tree.nodes_of_alike h)
  have hname : (pattern.firstNode?.filter (·.is .identifier)).map f.text =
      (pattern'.firstNode?.filter (·.is .identifier)).map f'.text := by
    generalize pattern.firstNode? = o at hfirst
    generalize pattern'.firstNode? = o' at hfirst
    cases hfirst with
    | none => rw [Option.filter_none, Option.map_none, Option.map_none]
    | some hinner =>
      rename_i inner inner'
      by_cases hkind : inner.is .identifier = true
      · have hkind' : inner'.is .identifier = true := hinner.similar.is_eq _ ▸ hkind
        simp [Option.filter, hkind, hkind', hinner.text_eq]
      · have hkind' : ¬ inner'.is .identifier = true := hinner.similar.is_eq _ ▸ hkind
        simp [Option.filter, hkind, hkind']
  rw [hname]

theorem ListPart.declaredName?_eq : declaredName? f t = declaredName? f' t' := by
  unfold declaredName?
  rw [← h.similar.is_eq]
  split_ifs with ht
  · rw [h.text_of_identifier ht]
  · exact bind_eq_of_rel (h.child?_alike (by decide)) fun _ _ hpattern => wholeName?_alike hpattern

theorem ListPart.isPassed_eq : isPassed t = isPassed t' := by
  unfold isPassed
  rw [h.similar.is_eq,
    any_eq_of_rel (h.child?_alike (by decide)) fun _ _ hu => by rw [hu.similar.is_eq]]

theorem ListPart.isOmittable_eq : isOmittable t = isOmittable t' := by
  unfold isOmittable isMarked hasDefault
  rw [h.similar.is_eq, h.similar.is_eq, isSome_eq_of_rel (h.child?_alike (by decide))]

theorem ListPart.isRest_eq : isRest t = isRest t' := by
  unfold isRest
  rw [h.similar.is_eq, any_eq_of_rel (h.child?_alike (by decide)) fun _ _ hu => hu.similar.is_eq _]

/-- Everything but the type of a parameter is kept, and so is the type without a comment in front. -/
theorem ListPart.parameterAt_cases (i : ℕ) :
    parameterAt f' i t' = { parameterAt f i t with type := (parameterAt f' i t').type } ∧
      ((∀ r ∈ typeOf? t' .type, ¬ IsComment r) → parameterAt f' i t' = parameterAt f i t) := by
  have hkept : parameterAt f' i t' =
      { parameterAt f i t with type := (parameterAt f' i t').type } := by
    unfold parameterAt
    rw [h.declaredName?_eq, h.isOmittable_eq, h.isRest_eq]
  refine ⟨hkept, fun hfirst => ?_⟩
  have htype : (parameterAt f' i t').type = (parameterAt f i t).type := by
    rcases h.typeOf?_cases with hrel | ⟨c, hc, hcomment⟩
    · simp only [parameterAt, declaredType]
      rw [h.similar.is_eq, map_text_eq hrel]
    · exact absurd hcomment (hfirst c hc)
  rw [hkept, htype]

end Parameter

namespace Signature

/-- No annotation of the signature has a comment in front of its type. -/
def TypesFirst (function : Tree) : Prop :=
  ∀ r ∈ types function, ¬ IsComment r

instance (function : Tree) : Decidable (TypesFirst function) :=
  inferInstanceAs (Decidable (∀ r ∈ types function, _))

theorem TypesFirst.returnType (h : TypesFirst t) : ∀ r ∈ returnType? t, ¬ IsComment r :=
  fun r hr => h r (List.mem_append_right _ (Option.mem_toList.mpr hr))

theorem TypesFirst.parameter (h : TypesFirst t) {p : Tree} (hp : p ∈ parameterNodes t) :
    ∀ r ∈ typeOf? p .type, ¬ IsComment r :=
  fun r hr => h r (List.mem_append_left _ (List.mem_filterMap.mpr ⟨p, hp, hr⟩))

section Function
variable (h : Commented (FunctionPart f f') t t')
include h

theorem passed_rel : List.Forall₂ (ListPart f f') (passed t) (passed t') := by
  refine List.rel_filter (fun p p' hp => ?_) (parameterNodes_rel h)
  exact Bool.eq_iff_iff.mp hp.isPassed_eq

theorem parameters_rel : List.Forall₂ (fun p p' : Parameter => p' = { p with type := p'.type })
    (parameters f t) (parameters f' t') := by
  have hpassed := passed_rel h
  rw [parameters_eq, parameters_eq]
  refine List.forall₂_iff_get.mpr ⟨by simpa using hpassed.length_eq, fun i hi hi' => ?_⟩
  simp only [List.length_mapIdx] at hi hi'
  have hi := (List.forall₂_iff_get.mp hpassed).2 i hi hi'
  simpa using (hi.parameterAt_cases i).1

theorem parameters_eq_of_typesFirst (hfirst : TypesFirst t') :
    parameters f t = parameters f' t' := by
  have hpassed := passed_rel h
  rw [parameters_eq, parameters_eq]
  refine List.ext_get (by simpa using hpassed.length_eq) fun i hi hi' => ?_
  simp only [List.length_mapIdx] at hi hi'
  have hpart := (List.forall₂_iff_get.mp hpassed).2 i hi hi'
  have hmem : (passed t').get ⟨i, hi'⟩ ∈ parameterNodes t' :=
    List.mem_of_mem_filter (List.get_mem _ _)
  simpa using ((hpart.parameterAt_cases i).2 (hfirst.parameter hmem)).symm

omit h in
theorem namesIn_types_eq {ps ps' : List Tree} (h : List.Forall₂ (ListPart f f') ps ps')
    (hfirst : ∀ p ∈ ps', ∀ r ∈ typeOf? p .type, ¬ IsComment r) :
    (ps.filterMap (typeOf? · .type)).flatMap (namesIn f) =
      (ps'.filterMap (typeOf? · .type)).flatMap (namesIn f') := by
  induction h with
  | nil => simp only [List.filterMap_nil, List.flatMap_nil]
  | @cons p p' ps ps' hp _ ih =>
    have ih := ih fun q hq => hfirst q (.tail _ hq)
    have htype : Option.Rel (Alike f f') (typeOf? p .type) (typeOf? p' .type) := by
      rcases hp.typeOf?_cases with hrel | ⟨c, hc, hcomment⟩
      · exact hrel
      · exact absurd hcomment (hfirst p' List.mem_cons_self c hc)
    rw [List.filterMap_cons, List.filterMap_cons]
    generalize typeOf? p .type = o at htype
    generalize typeOf? p' .type = o' at htype
    cases htype with
    | none => exact ih
    | some hr => rw [List.flatMap_cons, List.flatMap_cons, namesIn_alike hr, ih]

theorem mentioned_eq (hfirst : TypesFirst t') : mentioned f t = mentioned f' t' := by
  have hparameters := namesIn_types_eq (parameterNodes_rel h) fun _ => hfirst.parameter
  have hresult : (returnType? t).toList.flatMap (namesIn f) =
      (returnType? t').toList.flatMap (namesIn f') := by
    rcases returnType?_cases h with hrel | ⟨c, hc, hcomment⟩
    · generalize returnType? t = o at hrel
      generalize returnType? t' = o' at hrel
      cases hrel with
      | none => simp only [Option.toList_none, List.flatMap_nil]
      | some hr =>
        simp only [Option.toList_some, List.flatMap_cons, List.flatMap_nil,
          namesIn_returnedType hr]
    · exact absurd hcomment (hfirst.returnType c hc)
  unfold mentioned types
  rw [typeNamesAll_map, typeNamesAll_map, List.flatMap_append, List.flatMap_append, hparameters,
    hresult]

end Function

end Signature

namespace ReturnShape

def firstArgument (f : SourceFile) (t : Tree) : String :=
  (((((t.child? .typeArguments).map Tree.nodes).getD []).find? fun a => !a.is .comment).map
    f.text).getD unknownType

def ofGeneric? (outer first : String) : Option ReturnShape :=
  if outer == asyncValueType then some (.asyncValue first)
  else if asyncStreamTypes.contains outer then some (.asyncStream first)
  else none

theorem ofType_eq (f : SourceFile) (t : Tree) :
    ofType f t = ((if t.is .genericType then
      ((t.child? .name).map f.text).bind fun outer => ofGeneric? outer (firstArgument f t)
      else none).getD (.value (f.text t))) := by
  unfold ofType
  simp only [Option.bind_eq_bind]
  cases t.is .genericType with
  | false => simp only [Bool.not_false, if_true, Bool.false_eq_true, if_false, Option.bind_none]
  | true =>
    cases t.child? .name with
    | none => simp
    | some name =>
      simp only [Bool.not_true, Bool.false_eq_true, if_false, if_true, Option.map_some,
        Option.bind_some, ofGeneric?, firstArgument]
      rfl

theorem firstArgument_eq (h : ReturnedType f f' t t') : firstArgument f t = firstArgument f' t' := by
  have hlist := h.commented.child? (fun _ _ => GenericPart.similar) .typeArguments
  unfold firstArgument
  generalize t.child? .typeArguments = o at hlist
  generalize t'.child? .typeArguments = o' at hlist
  cases hlist with
  | none => simp only [Option.map_none, Option.getD_none, List.find?_nil]
  | @some list list' hlist =>
    have hfirst : Option.Rel (Alike f f') (list.nodes.find? fun a => !a.is .comment)
        (list'.nodes.find? fun a => !a.is .comment) := by
      rw [← List.head?_filter, ← List.head?_filter]
      refine Tree.rel_head? (hlist.commented.nodes_filter (fun _ _ => Alike.similar) ?_ ?_)
      · exact fun _ _ ha => by rw [ha.similar.is_eq]
      · intro c hc
        obtain ⟨s, rfl⟩ := hc.eq
        rfl
    have htext := map_text_eq hfirst
    simp only [Option.map_some, Option.getD_some, htext]

/-- A type with comments in it has the shape that it had, or is taken as it is written. -/
theorem ofType_cases (h : ReturnedType f f' t t') :
    ofType f' t' = ofType f t ∨
      ofType f t = .value (f.text t) ∧ ofType f' t' = .value (f'.text t') := by
  have hname : (t.child? .name).map f.text = (t'.child? .name).map f'.text := by
    refine map_text_eq (h.commented.child?_of (fun _ _ => GenericPart.similar) .name
      fun p p' hfield hpart => ?_)
    rcases hpart with hsame | ⟨⟨-, hlist⟩, -⟩
    · exact hsame
    · rw [hfield] at hlist
      cases hlist
  rw [ofType_eq, ofType_eq, h.commented.1.is_eq, hname, firstArgument_eq h]
  cases (if t'.is .genericType then
      ((t'.child? .name).map f'.text).bind fun outer => ofGeneric? outer (firstArgument f' t')
      else none) with
  | none => exact .inr ⟨Option.getD_none, Option.getD_none⟩
  | some q => exact .inl (by rw [Option.getD_some, Option.getD_some])

/-- A plain value conflicts with a declaration whatever its text is. -/
theorem isSome_conflict?_value (type type' : String) (async generator : Bool) :
    ((value type).conflict? async generator).isSome =
      ((value type').conflict? async generator).isSome := by
  cases async <;> cases generator <;> rfl

theorem ofType_comment {c : Tree} (hc : IsComment c) (f : SourceFile) :
    ofType f c = .value (f.text c) := by
  rw [ofType_eq, hc.is_eq_false (by decide)]
  rfl

end ReturnShape

end Trees

end CallBridge
