import CallBridge.Proofs.Extraction.TypeReferences
import CallBridge.Proofs.Generated.TypeConflicts

/-! # Types that a record shows

References are collected from all types that a declaration gives, and the record shows only some of
them. The type of the object that a method is called on is not shown. Of a result that comes later
only the first type argument is, in a wrapper that the type declaration module chooses. A name that
is mentioned nowhere else is referred to all the same: it is imported, warned of, and may clash with
a name of another signature.
-/
namespace CallBridge

open Syntax (Tree)

namespace ReturnShape

def wraps (f : SourceFile) (t : Tree) : Bool :=
  t.is .genericType && ((t.child? .name).map f.text).any fun outer =>
    outer == asyncValueType || asyncStreamTypes.contains outer

def firstArgument? (t : Tree) : Option Tree :=
  (((t.child? .typeArguments).map Tree.nodes).getD []).find? fun a => !a.is .comment

theorem firstArgument_eq_getD (f : SourceFile) (t : Tree) :
    firstArgument f t = ((firstArgument? t).map f.text).getD unknownType :=
  rfl

theorem inner_ofType_eq (f : SourceFile) (t : Tree) : (ofType f t).inner =
    if wraps f t then ((firstArgument? t).map f.text).getD unknownType else f.text t := by
  rw [ofType_eq, wraps, ← firstArgument_eq_getD]
  cases t.is .genericType with
  | false => simp [inner]
  | true =>
    cases (t.child? .name).map f.text with
    | none => simp [inner]
    | some outer =>
      simp only [if_true, Option.bind_some, ofGeneric?, Bool.true_and, Option.any_some,
        Bool.or_eq_true]
      by_cases hvalue : (outer == asyncValueType) = true
      · simp [hvalue, inner]
      · by_cases hstream : asyncStreamTypes.contains outer = true
        · simp only [hvalue, hstream, if_true, Bool.false_eq_true, if_false, Option.getD_some, inner,
            false_or]
        · simp only [hvalue, hstream, Bool.false_eq_true, if_false, Option.getD_none, inner, or_self]

def wrapperName : ReturnShape → String
  | .value _ | .asyncValue _ => "Promise"
  | .asyncStream _ => "AsyncGenerator"

theorem surfaceType_eq_wrapperName (r : ReturnShape) : Generated.surfaceType r =
    r.wrapperName ++ "<" ++ r.inner ++ if r.isStream then ", void, unknown>" else ">" := by
  cases r <;> rfl

end ReturnShape

def Method.typeTexts (m : Method) : List String :=
  m.parameters.map Parameter.type ++ [m.shape.inner]

namespace Signature

def showsType (p : Tree) : Bool :=
  !p.is .identifier && (p.child? .pattern).any fun pattern => !pattern.is .this

/-- A type whose text stands in the record of a function. -/
inductive Shown (f : SourceFile) (function : Tree) : Tree → Prop where
  | parameter {p type : Tree} (mem : p ∈ parameterNodes function) (shows : showsType p = true)
    (declared : typeOf? p .type = some type) : Shown f function type
  | result {type : Tree} (declared : returnType? function = some type)
    (plain : ReturnShape.wraps f type = false) : Shown f function type
  | argument {type first : Tree} (declared : returnType? function = some type)
    (wrapped : ReturnShape.wraps f type = true)
    (given : ReturnShape.firstArgument? type = some first) : Shown f function first

def shownTypes (f : SourceFile) (function : Tree) : List Tree :=
  ((parameterNodes function).filter showsType).filterMap (typeOf? · .type) ++
    (returnType? function).toList.flatMap fun t =>
      if ReturnShape.wraps f t then (ReturnShape.firstArgument? t).toList else [t]

/-- A type name that a function mentions where its record shows nothing of it. -/
inductive Dropped (f : SourceFile) (function : Tree) : Tree → Prop where
  | parameter {p type name : Tree} (mem : p ∈ parameterNodes function) (hides : showsType p = false)
    (declared : typeOf? p .type = some type) (mentions : type.Mentions name) :
    Dropped f function name
  | result {type name : Tree} (declared : returnType? function = some type)
    (wrapped : ReturnShape.wraps f type = true) (mentions : type.Mentions name)
    (outside : ∀ first, ReturnShape.firstArgument? type = some first → ¬ first.Mentions name) :
    Dropped f function name

variable {f : SourceFile} {function : Tree}

theorem mem_shownTypes_iff {type : Tree} : type ∈ shownTypes f function ↔ Shown f function type := by
  simp only [shownTypes, List.mem_append, List.mem_filterMap, List.mem_filter, List.mem_flatMap,
    Option.mem_toList]
  constructor
  · rintro (⟨p, ⟨hmem, hshows⟩, hdeclared⟩ | ⟨t, hdeclared, htype⟩)
    · exact .parameter hmem hshows hdeclared
    · split_ifs at htype with hwraps
      · exact .argument hdeclared hwraps (Option.mem_toList.mp htype)
      · obtain rfl := List.mem_singleton.mp htype
        exact .result hdeclared (by simpa using hwraps)
  · rintro (⟨hmem, hshows, hdeclared⟩ | ⟨hdeclared, hplain⟩ | ⟨hdeclared, hwraps, hfirst⟩)
    · exact .inl ⟨_, ⟨hmem, hshows⟩, hdeclared⟩
    · exact .inr ⟨type, hdeclared, by simp [hplain]⟩
    · exact .inr ⟨_, hdeclared, by simp [hwraps, hfirst]⟩

theorem parameterTypes_eq (f : SourceFile) (function : Tree) :
    (parameters f function).map Parameter.type = (passed function).map (declaredType f) := by
  rw [parameters_eq]
  refine List.ext_getElem? fun i => ?_
  simp [parameterAt, Function.comp_def]

/-- The types of the parameters of a record are the texts that are shown. -/
theorem mem_parameterTypes {text : String}
    (h : text ∈ (parameters f function).map Parameter.type) :
    text = unknownType ∨ ∃ type, Shown f function type ∧ f.text type = text := by
  rw [parameterTypes_eq] at h
  obtain ⟨p, hp, rfl⟩ := List.mem_map.mp h
  obtain ⟨hmem, hpassed⟩ := List.mem_filter.mp hp
  unfold declaredType
  by_cases hbare : p.is .identifier = true
  · exact .inl (if_pos hbare)
  · rw [if_neg hbare]
    cases htype : typeOf? p .type with
    | none => exact .inl rfl
    | some type =>
      have hshows : showsType p = true := by simpa [showsType, isPassed, hbare] using hpassed
      rw [Option.map_some, Option.getD_some]
      exact .inr ⟨type, .parameter hmem hshows htype, rfl⟩

theorem text_mem_parameterTypes {p type : Tree} (hmem : p ∈ parameterNodes function)
    (hshows : showsType p = true) (hdeclared : typeOf? p .type = some type) :
    f.text type ∈ (parameters f function).map Parameter.type := by
  obtain ⟨hbare, hpattern⟩ := Bool.and_eq_true_iff.mp hshows
  have hpassed : isPassed p = true := Bool.or_eq_true_iff.mpr (.inr hpattern)
  have hbare' : p.is .identifier = false := by simpa using hbare
  rw [parameterTypes_eq]
  refine List.mem_map.mpr ⟨p, List.mem_filter.mpr ⟨hmem, hpassed⟩, ?_⟩
  simp [declaredType, hbare', hdeclared]

/-- A name in a declared type is in a type that is shown, or is dropped. -/
theorem shown_or_dropped {type name : Tree} (htype : type ∈ types function)
    (hmentions : type.Mentions name) :
    (∃ shown, Shown f function shown ∧ shown.Mentions name) ∨ Dropped f function name := by
  rcases List.mem_append.mp htype with htype | htype
  · obtain ⟨p, hp, hdeclared⟩ := List.mem_filterMap.mp htype
    cases hshows : showsType p with
    | true => exact .inl ⟨type, .parameter hp hshows hdeclared, hmentions⟩
    | false => exact .inr (.parameter hp hshows hdeclared hmentions)
  · have hdeclared := Option.mem_toList.mp htype
    cases hwraps : ReturnShape.wraps f type with
    | false => exact .inl ⟨type, .result hdeclared hwraps, hmentions⟩
    | true =>
      by_cases hinside : ∃ first, ReturnShape.firstArgument? type = some first ∧ first.Mentions name
      · obtain ⟨first, hfirst, hname⟩ := hinside
        exact .inl ⟨first, .argument hdeclared hwraps hfirst, hname⟩
      · refine .inr (.result hdeclared hwraps hmentions fun first hfirst hname => ?_)
        exact hinside ⟨first, hfirst, hname⟩

theorem Dropped.exists_type {name : Tree} (h : Dropped f function name) :
    ∃ type ∈ types function, type.Mentions name := by
  cases h with
  | parameter mem _ declared mentions =>
    exact ⟨_, List.mem_append_left _ (List.mem_filterMap.mpr ⟨_, mem, declared⟩), mentions⟩
  | result declared _ mentions _ =>
    exact ⟨_, List.mem_append_right _ (Option.mem_toList.mpr declared), mentions⟩

end Signature

namespace Candidate

variable {f : SourceFile} {c : Candidate} {m : Method} {name : String}

/-- The signature that is written for the record mentions the name. -/
def Shows (f : SourceFile) (c : Candidate) (m : Method) (name : String) : Prop :=
  name = m.shape.wrapperName ∨
    ∃ type, Signature.Shown f c.function type ∧ ∃ n, type.Mentions n ∧ f.text n = name

def Drops (f : SourceFile) (c : Candidate) (name : String) : Prop :=
  ∃ n, Signature.Dropped f c.function n ∧ f.text n = name

theorem shows_iff : c.Shows f m name ↔ name = m.shape.wrapperName ∨
    name ∈ (Signature.typeNamesAll (Signature.shownTypes f c.function)).map f.text := by
  refine or_congr_right ⟨?_, fun h => ?_⟩
  · rintro ⟨type, htype, n, hmentions, rfl⟩
    have hmem := Signature.mem_shownTypes_iff.mpr htype
    exact List.mem_map_of_mem
      (Signature.mem_typeNamesAll_of_mem hmem (Signature.mem_typeNames_iff.mpr hmentions))
  · obtain ⟨n, hn, hname⟩ := List.mem_map.mp h
    obtain ⟨type, htype, hmentions⟩ := Signature.mentions_of_mem_typeNamesAll hn
    exact ⟨type, Signature.mem_shownTypes_iff.mp htype, n, hmentions, hname⟩

instance : Decidable (c.Shows f m name) :=
  decidable_of_iff _ shows_iff.symm

/-- What the record of a declaration shows and refers to. -/
structure RefersAs (f : SourceFile) (c : Candidate) (declaration : Tree) (m : Method) : Prop where
  result : Generated.surfaceType m.shape = m.shape.wrapperName ++ "<" ++ m.shape.inner ++
    if m.shape.isStream then ", void, unknown>" else ">"
  texts : ∀ text ∈ m.typeTexts,
    text = unknownType ∨ ∃ type, Signature.Shown f c.function type ∧ f.text type = text
  shown : ∀ type, Signature.Shown f c.function type → f.text type ∈ m.typeTexts
  referred : ∀ r ∈ m.typeRefs, c.Shows f m r.name ∨ c.Drops f r.name
  dropped : ∀ name, c.Drops f name → ¬ f.BindsType declaration c.function name →
    (Scope.ofFile f).resolve name ≠ .global → ∃ r ∈ m.typeRefs, r.name = name

theorem inner_mem_shown {shape : ReturnShape} (h : c.shape f = .ok shape) :
    shape.inner = unknownType ∨
      ∃ type, Signature.Shown f c.function type ∧ f.text type = shape.inner := by
  unfold Candidate.shape at h
  split at h
  · obtain rfl := Except.ok.inj h
    refine .inl ?_
    unfold ReturnShape.unannotated
    split_ifs <;> rfl
  · next type hdeclared =>
    dsimp only at h
    split at h
    · cases h
    · obtain rfl := Except.ok.inj h
      rw [ReturnShape.inner_ofType_eq]
      cases hwraps : ReturnShape.wraps f type with
      | false =>
        rw [if_neg Bool.false_ne_true]
        exact .inr ⟨type, .result hdeclared hwraps, rfl⟩
      | true =>
        rw [if_pos rfl]
        cases hfirst : ReturnShape.firstArgument? type with
        | none =>
          rw [Option.map_none, Option.getD_none]
          exact .inl rfl
        | some first =>
          rw [Option.map_some, Option.getD_some]
          exact .inr ⟨first, .argument hdeclared hwraps hfirst, rfl⟩

theorem shape_eq_ofType {shape : ReturnShape} {type : Tree} (h : c.shape f = .ok shape)
    (hdeclared : Signature.returnType? c.function = some type) : shape = .ofType f type := by
  unfold Candidate.shape at h
  rw [hdeclared] at h
  dsimp only at h
  split at h
  · cases h
  · exact (Except.ok.inj h).symm

theorem refersAs_of_judge {marking : Marking} {warnings : List Diagnostic} {declaration : Tree}
    {declared : Export} (hread : c.ReadFrom f (Scope.ofFile f) declaration declared)
    (h : c.judge marking f (Scope.ofFile f) = .exposed m warnings) : c.RefersAs f declaration m := by
  obtain ⟨namespaceName, shape, -, hshape, rfl, -⟩ := judge_eq_exposed h
  exact {
    result := shape.surfaceType_eq_wrapperName
    texts := by
      intro text htext
      rcases List.mem_append.mp htext with htext | htext
      · exact Signature.mem_parameterTypes htext
      · obtain rfl := List.mem_singleton.mp htext
        exact inner_mem_shown hshape
    shown := by
      intro type htype
      cases htype with
      | parameter mem shows declared =>
        exact List.mem_append_left _ (Signature.text_mem_parameterTypes mem shows declared)
      | result declared plain =>
        refine List.mem_append_right _ (List.mem_singleton.mpr ?_)
        change f.text type = shape.inner
        rw [shape_eq_ofType hshape declared, ReturnShape.inner_ofType_eq, plain,
          if_neg Bool.false_ne_true]
      | argument declared wrapped given =>
        refine List.mem_append_right _ (List.mem_singleton.mpr ?_)
        change f.text type = shape.inner
        rw [shape_eq_ofType hshape declared, ReturnShape.inner_ofType_eq, wrapped, if_pos rfl, given,
          Option.map_some, Option.getD_some]
    referred := by
      intro r hr
      obtain ⟨hmentioned, -, -⟩ := mem_typeRefs_iff.mp hr
      obtain ⟨type, htype, n, hmentions, hname⟩ := Signature.mem_mentioned_iff.mp hmentioned
      rcases Signature.shown_or_dropped (f := f) htype hmentions with ⟨shown, hshown, hn⟩ | hdropped
      · exact .inl (.inr ⟨shown, hshown, n, hn, hname⟩)
      · exact .inr ⟨n, hdropped, hname⟩
    dropped := by
      rintro name ⟨n, hdropped, hname⟩ hfree hfound
      obtain ⟨type, htype, hmentions⟩ := hdropped.exists_type
      obtain ⟨r, href⟩ := Option.isSome_iff_exists.mp (isSome_typeRef?_iff (f := f).mpr hfound)
      have hrname : r.name = name := typeRef?_name href
      subst hrname
      have hlisted := mt (hread.mem_typeParameters_iff _).mp hfree
      refine ⟨r, mem_typeRefs_iff.mpr ⟨?_, hlisted, href⟩, rfl⟩
      exact Signature.mem_mentioned_iff.mpr ⟨type, htype, n, hmentions, hname⟩ }

end Candidate

/-- A record refers to names that its signature mentions and to names that its declaration mentions
where the record shows nothing of them, and to all of the latter that can be found. Warnings on types
and clashes of types are about names that records refer to. -/
theorem references_shown_or_dropped (marking : Marking) :
    (∀ (f : SourceFile), ∀ m ∈ (f.extract marking).methods, ∃ c ∈ f.candidates,
      (∃ warnings, c.judge marking f (Scope.ofFile f) = .exposed m warnings) ∧
      ∃ declaration ∈ f.declarations, c.PlacedIn f declaration ∧ c.RefersAs f declaration m) ∧
    (∀ (f : SourceFile), ∀ d ∈ (f.extract marking).diagnostics, d.problem = .typeNotExported →
      ∃ m ∈ (f.extract marking).methods, ∃ r ∈ m.typeRefs, d = m.typeNotExported r.name) ∧
    (∀ s output failure, Generated.Types.ofSurface s output = .error failure →
      ∃ m ∈ s.methods, ∃ r ∈ m.typeRefs, ∃ m' ∈ s.methods, ∃ r' ∈ m'.typeRefs, r.name = r'.name ∧
        failure = .importCollision r.name output.text ⟨r.module.specifier output, r.imported⟩
          ⟨r'.module.specifier output, r'.imported⟩) := by
  refine ⟨fun f m hm => ?_, fun f d hd hproblem => ?_, fun s output failure h => ?_⟩
  · obtain ⟨-, -, -, g, -, hg, c, hc, warnings, hjudge⟩ := f.exists_judged hm
    have hcandidate : c ∈ f.candidates := List.mem_flatMap.mpr ⟨g, hg, hc⟩
    obtain ⟨declaration, hdeclaration, hplaced, declared, hread⟩ :=
      Candidate.exists_placedIn hcandidate
    exact ⟨c, hcandidate, ⟨warnings, hjudge⟩, declaration, hdeclaration, hplaced,
      Candidate.refersAs_of_judge hread hjudge⟩
  · have hfilter : d ∈ (f.extract marking).methods.flatMap (Method.unexportedTypes f) := by
      rw [← SourceFile.filter_extract]
      exact List.mem_filter.mpr ⟨hd, beq_iff_eq.mpr hproblem⟩
    obtain ⟨m, hm, hwarned⟩ := List.mem_flatMap.mp hfilter
    obtain ⟨r, hr, rfl⟩ := List.mem_map.mp hwarned
    exact ⟨m, hm, r, (List.mem_filter.mp hr).1, rfl⟩
  · obtain ⟨m, hm, r, hr, m', hm', r', hr', hclash, rfl⟩ := Generated.Types.of_ofSurface_eq_error h
    exact ⟨m, hm, r, hr, m', hm', r', hr', hclash.1, rfl⟩

/-- A function that declares the type of the object it is called on. -/
def receiverFile : SourceFile :=
  let source : Syntax.Source := ⟨("interface Session \x7b\x7d\n// @expose\n" ++
    "export function load(this: Session, id: number): void \x7b\x7d\n").toUTF8⟩
  ⟨⟨"/app/src/a.ts"⟩, source, Syntax.Dialect.plain.parse source⟩

/-- The record of such a function refers to a type that its signature does not mention, and the type
is warned of. -/
theorem receiver_type_referred :
    receiverFile.faultLine? = none ∧ ∃ c ∈ receiverFile.candidates,
      ∃ m ∈ (receiverFile.extract {}).methods,
        (∃ warnings, c.judge {} receiverFile (Scope.ofFile receiverFile) = .exposed m warnings) ∧
        m.typeTexts = ["number", "void"] ∧
        (∃ r ∈ m.typeRefs, r.name = "Session" ∧ ¬ c.Shows receiverFile m r.name) ∧
        m.typeNotExported "Session" ∈ (receiverFile.extract {}).diagnostics := by
  have hfile : receiverFile.faultLine? = none ∧ ∃ m ∈ (receiverFile.extract {}).methods,
      m.typeTexts = ["number", "void"] ∧
      (∃ r ∈ m.typeRefs, r.name = "Session" ∧
        ∀ c ∈ receiverFile.candidates, ¬ c.Shows receiverFile m r.name) ∧
      m.typeNotExported "Session" ∈ (receiverFile.extract {}).diagnostics := by
    decide +kernel
  obtain ⟨hfault, m, hm, htexts, ⟨r, hr, hname, hshows⟩, hwarned⟩ := hfile
  obtain ⟨-, -, -, g, -, hg, c, hc, hjudge⟩ := receiverFile.exists_judged hm
  have hcandidate : c ∈ receiverFile.candidates := List.mem_flatMap.mpr ⟨g, hg, hc⟩
  exact ⟨hfault, c, hcandidate, m, hm, hjudge, htexts, ⟨r, hr, hname, hshows c hcandidate⟩, hwarned⟩

end CallBridge
