import CallBridge.Proofs.Extraction.Exports
import CallBridge.Proofs.Extraction.Parameters

/-! # Type names of a signature

The types that a signature declares go into the record of its method as texts. The names in them
that have no qualifier and are no type parameters are collected, and each of them that the file
declares or imports becomes a reference.
-/
namespace CallBridge

open Syntax (Tree)

/-- A type name stands in a tree, without a qualifier in front. -/
inductive Syntax.Tree.Mentions : Tree → Tree → Prop where
  | self {role : Option Syntax.Field} {span : Syntax.Span} {parts : List Tree} :
    Mentions (.node .typeIdentifier role span parts) (.node .typeIdentifier role span parts)
  | within {kind : Syntax.Kind} {role : Option Syntax.Field} {span : Syntax.Span}
    {parts : List Tree} {part name : Tree} (unqualified : kind ≠ .nestedTypeIdentifier)
    (inner : kind ≠ .typeIdentifier) (mem : part ∈ parts) (mentions : Mentions part name) :
    Mentions (.node kind role span parts) name

namespace Signature

theorem typeNames_node {kind : Syntax.Kind} {role : Option Syntax.Field} {span : Syntax.Span}
    {parts : List Tree} (hqualified : kind ≠ .nestedTypeIdentifier)
    (hname : kind ≠ .typeIdentifier) :
    typeNames (.node kind role span parts) = typeNamesAll parts := by
  unfold typeNames
  split
  · next h =>
    cases h
    exact absurd rfl hqualified
  · next h =>
    cases h
    exact absurd rfl hname
  · next h =>
    cases h
    rfl
  · next h => exact absurd rfl (h kind role span parts)

mutual

theorem mentions_of_mem_typeNames : ∀ {t name : Tree}, name ∈ typeNames t → t.Mentions name
  | .node kind role span parts, name, h => by
    by_cases hqualified : kind = .nestedTypeIdentifier
    · subst hqualified
      cases h
    · by_cases hname : kind = .typeIdentifier
      · subst hname
        obtain rfl := List.mem_singleton.mp h
        exact .self
      · rw [typeNames_node hqualified hname] at h
        obtain ⟨part, hpart, hmentions⟩ := mentions_of_mem_typeNamesAll h
        exact .within hqualified hname hpart hmentions
  | .token _ _, _, h => by cases h
  | .missing _, _, h => by cases h

theorem mentions_of_mem_typeNamesAll :
    ∀ {ts : List Tree} {name : Tree}, name ∈ typeNamesAll ts → ∃ t ∈ ts, t.Mentions name
  | [], _, h => by cases h
  | t :: ts, name, h => by
    rcases List.mem_append.mp h with h | h
    · exact ⟨t, List.mem_cons_self, mentions_of_mem_typeNames h⟩
    · obtain ⟨u, hu, hmentions⟩ := mentions_of_mem_typeNamesAll h
      exact ⟨u, List.mem_cons_of_mem _ hu, hmentions⟩

end

theorem mem_typeNamesAll_of_mem {t name : Tree} {ts : List Tree} (ht : t ∈ ts)
    (h : name ∈ typeNames t) : name ∈ typeNamesAll ts := by
  induction ts with
  | nil => cases ht
  | cons u ts ih =>
    rcases List.mem_cons.mp ht with rfl | ht
    · exact List.mem_append_left _ h
    · exact List.mem_append_right _ (ih ht)

theorem mem_typeNames_iff {t name : Tree} : name ∈ typeNames t ↔ t.Mentions name := by
  constructor
  · exact mentions_of_mem_typeNames
  · intro h
    induction h with
    | self => exact List.mem_singleton_self _
    | within unqualified inner mem _ ih =>
      rw [typeNames_node unqualified inner]
      exact mem_typeNamesAll_of_mem mem ih

theorem mem_distinct {name : String} {names : List String} : name ∈ distinct names ↔ name ∈ names := by
  have hgen : ∀ (names seen : List String), name ∈ names.foldl
      (fun seen n => if seen.contains n then seen else seen ++ [n]) seen ↔
        name ∈ seen ∨ name ∈ names := by
    intro names
    induction names with
    | nil => simp
    | cons n names ih =>
      intro seen
      rw [List.foldl_cons, ih]
      split_ifs with hseen
      · have hmem : n ∈ seen := by simpa using hseen
        constructor
        · rintro (h | h)
          · exact .inl h
          · exact .inr (List.mem_cons_of_mem _ h)
        · rintro (h | h)
          · exact .inl h
          · rcases List.mem_cons.mp h with rfl | h
            · exact .inl hmem
            · exact .inr h
      · simp only [List.mem_append, List.mem_cons]
        tauto
  have h := hgen names []
  simpa [distinct] using h

/-- The mentioned names are the unqualified names in the declared types. -/
theorem mem_mentioned_iff {f : SourceFile} {function : Tree} {name : String} :
    name ∈ mentioned f function ↔
      ∃ declared ∈ types function, ∃ n, declared.Mentions n ∧ f.text n = name := by
  rw [mentioned, mem_distinct, List.mem_map]
  constructor
  · rintro ⟨n, hn, rfl⟩
    obtain ⟨declared, hdeclared, hmentions⟩ := mentions_of_mem_typeNamesAll hn
    exact ⟨declared, hdeclared, n, hmentions, rfl⟩
  · rintro ⟨declared, hdeclared, n, hmentions, rfl⟩
    exact ⟨n, mem_typeNamesAll_of_mem hdeclared (mem_typeNames_iff.mpr hmentions), rfl⟩

/-- What of a declared type is written into a record: all of it, or an argument of it. -/
inductive Written (declared : Tree) : Tree → Prop where
  | whole : Written declared declared
  | argument {arguments part : Tree} (generic : declared.is .genericType = true)
    (given : declared.child? .typeArguments = some arguments) (mem : part ∈ arguments.nodes) :
    Written declared part

/-- A text is one of what a signature declares, or stands for a type that is not declared. -/
def Declares (f : SourceFile) (function : Tree) (text : String) : Prop :=
  text = unknownType ∨
    ∃ declared ∈ types function, ∃ part, Written declared part ∧ text = f.text part

theorem declares_of_mem_parameters {f : SourceFile} {function : Tree} {p : Parameter}
    (h : p ∈ parameters f function) : Declares f function p.type := by
  rw [parameters_eq, List.mem_mapIdx] at h
  obtain ⟨i, hi, rfl⟩ := h
  have hnode := (List.mem_filter.mp (List.getElem_mem hi)).1
  simp only [parameterAt, declaredType]
  split_ifs
  · exact .inl rfl
  · cases htype : typeOf? (passed function)[i] .type with
    | none => exact .inl rfl
    | some declared =>
      rw [Option.map_some, Option.getD_some]
      refine .inr ⟨declared, List.mem_append_left _ ?_, declared, .whole, rfl⟩
      exact List.mem_filterMap.mpr ⟨_, hnode, htype⟩

theorem inner_ofType (f : SourceFile) (declared : Tree) :
    (ReturnShape.ofType f declared).inner = f.text declared ∨
      declared.is .genericType = true ∧ (ReturnShape.ofType f declared).inner =
        (((((declared.child? .typeArguments).map Tree.nodes).getD []).find?
          fun a => !a.is .comment).map f.text).getD unknownType := by
  unfold ReturnShape.ofType
  dsimp only
  by_cases hgeneric : declared.is .genericType = true
  · cases hname : declared.child? .name with
    | none => simp [hgeneric, ReturnShape.inner]
    | some name =>
      simp only [hgeneric, Bool.not_true, Bool.false_eq_true, if_false, Option.bind_eq_bind,
        Option.bind_some, true_and]
      split_ifs
      · exact .inr rfl
      · exact .inr rfl
      · exact .inl rfl
  · simp [hgeneric, ReturnShape.inner]

theorem declares_inner_ofType {f : SourceFile} {function declared : Tree}
    (h : returnType? function = some declared) :
    Declares f function (ReturnShape.ofType f declared).inner := by
  have hmem : declared ∈ types function :=
    List.mem_append_right _ (Option.mem_toList.mpr h)
  rcases inner_ofType f declared with hinner | ⟨hgeneric, hinner⟩
  · exact .inr ⟨declared, hmem, declared, .whole, hinner⟩
  · rw [hinner]
    cases harguments : declared.child? .typeArguments with
    | none => exact .inl (by rw [Option.map_none, Option.getD_none, List.find?_nil]; rfl)
    | some arguments =>
      rw [Option.map_some, Option.getD_some]
      cases hfirst : arguments.nodes.find? (fun a => !a.is .comment) with
      | none => exact .inl (by rw [Option.map_none, Option.getD_none])
      | some part =>
        rw [Option.map_some, Option.getD_some]
        have hpart := List.mem_of_find?_eq_some hfirst
        exact .inr ⟨declared, hmem, part, .argument hgeneric harguments hpart, rfl⟩

end Signature

namespace Candidate

variable {f : SourceFile} {s : Scope} {c : Candidate} {namespaceName : String}
  {shape : ReturnShape} {r : TypeRef} {name : String}

theorem declares_of_shape (h : c.shape f = .ok shape) :
    Signature.Declares f c.function shape.inner := by
  unfold Candidate.shape at h
  split at h
  · obtain rfl := Except.ok.inj h
    refine .inl ?_
    unfold ReturnShape.unannotated
    split_ifs <;> rfl
  · next declared hdeclared =>
    dsimp only at h
    split at h
    · cases h
    · obtain rfl := Except.ok.inj h
      exact Signature.declares_inner_ofType hdeclared

/-- The references of a record are those of the mentioned names that are no type parameters. -/
theorem mem_typeRefs_iff : r ∈ (c.toMethod f s namespaceName shape).typeRefs ↔
    r.name ∈ Signature.mentioned f c.function ∧ r.name ∉ c.typeParameters f ∧
      typeRef? f s r.name = some r := by
  constructor
  · intro h
    obtain ⟨name, hname, href⟩ := List.mem_filterMap.mp h
    obtain rfl := typeRef?_name href
    obtain ⟨hmentioned, hfree⟩ := List.mem_filter.mp hname
    exact ⟨hmentioned, by simpa using hfree, href⟩
  · rintro ⟨hmentioned, hfree, href⟩
    refine List.mem_filterMap.mpr ⟨r.name, List.mem_filter.mpr ⟨hmentioned, ?_⟩, href⟩
    simpa using hfree

end Candidate

end CallBridge
