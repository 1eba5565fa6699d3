import CallBridge.Proofs.Extraction.Accounting

/-! # Type parameters by their places

A name in a signature stands for a type parameter if the list of the function has a parameter of that
name, or, for a method, the list of its class. A candidate carries the names of both lists with it,
and here they are found where they stand in the tree.
-/
namespace CallBridge

open Syntax (Tree)

namespace SourceFile

/-- The list of type parameters of a declaration has one with the name. -/
def ListsTypeParameter (f : SourceFile) (declaration : Tree) (name : String) : Prop :=
  ∃ list ∈ (declaration.child? .typeParameters).toList, ∃ parameter ∈ list.nodes,
    parameter.is .typeParameter = true ∧ ∃ n ∈ (parameter.child? .name).toList, f.text n = name

/-- In a function that a declaration gives, the name stands for a type parameter: of the function, or
of the class of which it is a method. -/
def BindsType (f : SourceFile) (declaration function : Tree) (name : String) : Prop :=
  f.ListsTypeParameter function name ∨
    (declaration.is .classDeclaration || declaration.is .abstractClassDeclaration) = true ∧
      f.ListsTypeParameter declaration name

instance (f : SourceFile) (declaration : Tree) (name : String) :
    Decidable (f.ListsTypeParameter declaration name) :=
  inferInstanceAs (Decidable (∃ _ ∈ _, _))

instance (f : SourceFile) (declaration function : Tree) (name : String) :
    Decidable (f.BindsType declaration function name) :=
  inferInstanceAs (Decidable (_ ∨ _))

/-- The function of a part that may be exposed: the value of a variable, or the part itself. -/
def functionOf? (part : Tree) : Option Tree :=
  if part.is .variableDeclarator then part.child? .value else some part

theorem mem_typeParameters_iff {f : SourceFile} {declaration : Tree} {name : String} :
    name ∈ Signature.typeParameters f declaration ↔ f.ListsTypeParameter declaration name := by
  unfold Signature.typeParameters ListsTypeParameter
  cases declaration.child? .typeParameters with
  | none => simp
  | some list =>
    simp only [Option.map_some, Option.getD_some, List.mem_filterMap, List.mem_filter,
      Option.map_eq_some_iff, Option.toList_some, List.mem_singleton, exists_eq_left,
      Option.mem_toList, and_assoc]

end SourceFile

namespace Candidate

/-- A candidate is a part of the declaration that may be exposed, and has the function of that
part. -/
structure PlacedIn (f : SourceFile) (declaration : Tree) (c : Candidate) : Prop where
  node : c.node ∈ f.exposableParts declaration
  function : SourceFile.functionOf? c.node = some c.function

section Placed
variable {f : SourceFile} {s : Scope} {declaration : Tree} {declared : Export} {before : List Tree}
  {g : CandidateGroup} {c : Candidate}

theorem functionOf?_of_mem (h : groupOf? f s declaration declared before = some g)
    (hc : c ∈ g.candidates) : SourceFile.functionOf? c.node = some c.function := by
  unfold groupOf? at h
  split_ifs at h with hfunction hclass hvariable
  · cases h
    obtain rfl := List.mem_singleton.mp hc
    refine if_neg ?_
    simp only [Tree.is, Bool.or_eq_true, beq_iff_eq] at hfunction ⊢
    rcases hfunction with h | h <;> simp [h]
  · obtain ⟨⟨info, body⟩, -, h⟩ := Option.bind_eq_some_iff.mp h
    cases h
    obtain ⟨⟨member, front⟩, hmember, rfl⟩ := List.mem_map.mp hc
    have hmethod : member.is .methodDefinition = true :=
      ((Bool.and_eq_true _ _).mp (List.mem_filter.mp hmember).2).1
    refine if_neg ?_
    simp only [Tree.is, beq_iff_eq] at hmethod ⊢
    simp [method, hmethod]
  · cases h
    obtain ⟨d, hd, hc⟩ := List.mem_filterMap.mp hc
    have hdeclarator := (List.mem_filter.mp hd).2
    cases hvalue : d.child? .value with
    | none => simp [hvalue] at hc
    | some value =>
      simp only [hvalue, Option.bind_eq_bind, Option.bind_some] at hc
      split_ifs at hc
      cases hc
      exact (if_pos hdeclarator).trans hvalue

theorem classInfo?_typeParameters {info : ClassInfo} {body : Tree}
    (h : classInfo? f s declaration declared = some (info, body)) :
    info.typeParameters = Signature.typeParameters f declaration := by
  unfold classInfo? at h
  obtain ⟨n, -, h⟩ := Option.bind_eq_some_iff.mp h
  obtain ⟨b, -, h⟩ := Option.bind_eq_some_iff.mp h
  obtain ⟨hinfo, -⟩ := Prod.mk.inj (Option.some.inj h)
  rw [← hinfo]

/-- The names that a candidate carries with it are those of the type parameters in the tree. -/
theorem ReadFrom.mem_typeParameters_iff (h : c.ReadFrom f s declaration declared) (name : String) :
    name ∈ c.typeParameters f ↔ f.BindsType declaration c.function name := by
  have hnoClass : ∀ {k k' : Syntax.Kind}, (declaration.is k || declaration.is k') = true →
      k ≠ .classDeclaration ∧ k ≠ .abstractClassDeclaration →
      k' ≠ .classDeclaration ∧ k' ≠ .abstractClassDeclaration →
      ¬ (declaration.is .classDeclaration || declaration.is .abstractClassDeclaration) = true := by
    intro k k' hkind hk hk'
    simp only [Tree.is, Bool.or_eq_true, beq_iff_eq] at hkind ⊢
    rcases hkind with hkind | hkind <;> simp [hkind, hk, hk']
  rw [typeParameters, List.mem_append, SourceFile.mem_typeParameters_iff, SourceFile.BindsType]
  refine or_congr_right ?_
  cases h with
  | ofFunction owner _ _ _ kind =>
    simp [owner, hnoClass kind (by decide) (by decide)]
  | ofMember info body made owner _ _ kind =>
    rw [owner, Option.map_some, Option.getD_some, classInfo?_typeParameters made,
      SourceFile.mem_typeParameters_iff]
    exact (and_iff_right kind).symm
  | ofVariable _ _ _ owner _ _ _ kind =>
    simp [owner, hnoClass kind (by decide) (by decide)]

end Placed

theorem exists_placedIn {f : SourceFile} {c : Candidate} (hc : c ∈ f.candidates) :
    ∃ declaration ∈ f.declarations, c.PlacedIn f declaration ∧
      ∃ declared, c.ReadFrom f (Scope.ofFile f) declaration declared := by
  obtain ⟨g, hg, hcg⟩ := List.mem_flatMap.mp hc
  obtain ⟨⟨statement, before⟩, hstatement, hgroup⟩ := List.mem_filterMap.mp hg
  obtain ⟨declaration, declared, hdeclaration, hread, -⟩ := readFrom_of_mem_group hgroup hcg
  dsimp only at hgroup
  rw [group?_eq, hdeclaration, Option.bind_some] at hgroup
  have hparts := groupOf?_map_node f (Scope.ofFile f) declaration declared before
  rw [hgroup, Option.map_some, Option.getD_some] at hparts
  refine ⟨declaration, ?_, ⟨?_, functionOf?_of_mem hgroup hcg⟩, declared, hread⟩
  · refine List.mem_map.mpr ⟨(declaration, declared), List.mem_filterMap.mpr ?_, rfl⟩
    exact ⟨statement, mem_of_mem_withBefore hstatement, hdeclaration⟩
  · exact hparts ▸ List.mem_map_of_mem hcg

end Candidate

end CallBridge
