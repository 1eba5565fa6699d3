import CallBridge.Proofs.Extraction.CommentedSignatures
import CallBridge.Proofs.Extraction.ScopeNames
import CallBridge.Proofs.Extraction.TypeParameters

/-! # Type references of a record

A record refers to the types that its signature mentions and that the file declares or imports, each
once, in the order in which they are mentioned first. Types of the file that are not exported are
warned of, each once.
-/
namespace CallBridge

open Syntax (Tree Kind)
open Syntax.Tree (IsComment)

namespace Syntax.Tree

mutual

/-- All trees within a tree in source order, each with the kinds of the trees around it. -/
def surrounded (around : List Kind) : Tree → List (List Kind × Tree)
  | node k f s cs => (around, node k f s cs) :: surroundedAll (k :: around) cs
  | t => [(around, t)]

def surroundedAll (around : List Kind) : List Tree → List (List Kind × Tree)
  | [] => []
  | t :: ts => surrounded around t ++ surroundedAll around ts

end

mutual

theorem surrounded_map_snd : ∀ (around : List Kind) (t : Tree),
    (t.surrounded around).map Prod.snd = t.preorder
  | around, node k f s cs => by
    rw [surrounded, preorder, List.map_cons, surroundedAll_map_snd]
  | _, token _ _ => rfl
  | _, missing _ => rfl

theorem surroundedAll_map_snd : ∀ (around : List Kind) (ts : List Tree),
    (surroundedAll around ts).map Prod.snd = preorderAll ts
  | _, [] => rfl
  | around, t :: ts => by
    rw [surroundedAll, preorderAll, List.map_append, surrounded_map_snd, surroundedAll_map_snd]

end

mutual

theorem subset_of_mem_surrounded : ∀ {around : List Kind} {t : Tree} {place : List Kind × Tree},
    place ∈ t.surrounded around → around ⊆ place.1
  | around, node k f s cs, place, h => by
    rcases List.mem_cons.mp h with rfl | h
    · exact List.Subset.refl _
    · exact List.Subset.trans (List.subset_cons_self k around) (subset_of_mem_surroundedAll h)
  | _, token _ _, _, h => by
    obtain rfl := List.mem_singleton.mp h
    exact List.Subset.refl _
  | _, missing _, _, h => by
    obtain rfl := List.mem_singleton.mp h
    exact List.Subset.refl _

theorem subset_of_mem_surroundedAll : ∀ {around : List Kind} {ts : List Tree}
    {place : List Kind × Tree}, place ∈ surroundedAll around ts → around ⊆ place.1
  | _, [], _, h => by cases h
  | _, t :: ts, _, h => by
    rcases List.mem_append.mp h with h | h
    · exact subset_of_mem_surrounded h
    · exact subset_of_mem_surroundedAll h

end

end Syntax.Tree

namespace Signature

def isFreeName (place : List Kind × Tree) : Bool :=
  place.2.is .typeIdentifier && !place.1.contains .nestedTypeIdentifier &&
    !place.1.contains .typeIdentifier

def freeNames (t : Tree) : List Tree :=
  ((t.surrounded []).filter isFreeName).map Prod.snd

theorem filter_surroundedAll_eq_nil {around : List Kind} (ts : List Tree)
    (h : .nestedTypeIdentifier ∈ around ∨ .typeIdentifier ∈ around) :
    (Tree.surroundedAll around ts).filter isFreeName = [] := by
  refine List.filter_eq_nil_iff.mpr fun place hplace => ?_
  have hsubset := Tree.subset_of_mem_surroundedAll hplace
  rcases h with h | h <;> simp [isFreeName, hsubset h]

mutual

theorem typeNames_eq_filter : ∀ {around : List Kind}, .nestedTypeIdentifier ∉ around →
    .typeIdentifier ∉ around → ∀ t : Tree,
      typeNames t = ((t.surrounded around).filter isFreeName).map Prod.snd
  | around, hqualified, hname, .node k f s cs => by
    rw [Tree.surrounded]
    by_cases hk : k = .nestedTypeIdentifier
    · subst hk
      rw [List.filter_cons_of_neg (by simp [isFreeName, Tree.is, Tree.kind?]),
        filter_surroundedAll_eq_nil cs (.inl List.mem_cons_self)]
      rfl
    · by_cases hi : k = .typeIdentifier
      · subst hi
        rw [List.filter_cons_of_pos (by simp [isFreeName, Tree.is, Tree.kind?, hqualified, hname]),
          filter_surroundedAll_eq_nil cs (.inr List.mem_cons_self)]
        rfl
      · rw [List.filter_cons_of_neg (by simp [isFreeName, Tree.is, Tree.kind?, hi]),
          typeNames_node hk hi]
        exact typeNamesAll_eq_filter (by simp [Ne.symm hk, hqualified]) (by simp [Ne.symm hi, hname]) cs
  | _, _, _, .token _ _ => rfl
  | _, _, _, .missing _ => rfl

theorem typeNamesAll_eq_filter : ∀ {around : List Kind}, .nestedTypeIdentifier ∉ around →
    .typeIdentifier ∉ around → ∀ ts : List Tree,
      typeNamesAll ts = ((Tree.surroundedAll around ts).filter isFreeName).map Prod.snd
  | _, _, _, [] => rfl
  | _, hqualified, hname, t :: ts => by
    rw [typeNamesAll, Tree.surroundedAll, List.filter_append, List.map_append,
      typeNames_eq_filter hqualified hname, typeNamesAll_eq_filter hqualified hname]

end

theorem typeNames_eq (t : Tree) : typeNames t = freeNames t :=
  typeNames_eq_filter List.not_mem_nil List.not_mem_nil t

theorem distinct_eq_eraseDups (names : List String) : distinct names = names.eraseDups := by
  have hfold : ∀ seen : List String,
      names.foldl (fun seen n => if seen.contains n then seen else seen ++ [n]) seen =
        seen ++ (names.filter fun n => !seen.contains n).eraseDups := by
    induction names with
    | nil => simp
    | cons n names ih =>
      intro seen
      rw [List.foldl_cons, ih]
      by_cases hn : n ∈ seen
      · rw [if_pos (List.contains_iff_mem.mpr hn), List.filter_cons_of_neg (by simp [hn])]
      · have hlater : (names.filter fun m => !(seen ++ [n]).contains m) =
            (names.filter fun m => !seen.contains m).filter fun m => !m == n := by
          rw [List.filter_filter]
          refine List.filter_congr fun m _ => ?_
          simp [Bool.and_comm, Bool.beq_eq_decide_eq]
        rw [if_neg (mt List.contains_iff_mem.mp hn), List.filter_cons_of_pos (by simp [hn]),
          List.eraseDups_cons, hlater, List.append_assoc, List.singleton_append]
  simpa [distinct] using hfold []

theorem nodup_distinct (names : List String) : (distinct names).Nodup := by
  have hfold : ∀ seen : List String, seen.Nodup →
      (names.foldl (fun seen n => if seen.contains n then seen else seen ++ [n]) seen).Nodup := by
    induction names with
    | nil => exact fun _ h => h
    | cons n names ih =>
      intro seen hseen
      rw [List.foldl_cons]
      refine ih _ ?_
      split_ifs with hn
      · exact hseen
      · refine hseen.append (List.nodup_singleton n) (List.disjoint_singleton.mpr ?_)
        exact mt List.contains_iff_mem.mpr hn
  exact hfold [] List.nodup_nil

/-- The type that an annotation of a role gives. Comments in front of it are passed over. -/
def annotatedType? (t : Tree) (role : Syntax.Field) : Option Tree :=
  (t.child? role).bind fun annotation => annotation.nodes.find? fun part => !decide (IsComment part)

/-- The types that the parameters declare from the left to the right, and the return type. -/
def declaredTypes (function : Tree) : List Tree :=
  (declaredParameters function).filterMap (annotatedType? · .type) ++
    (annotatedType? function .returnType).toList

/-- The free type names in the declared types, in source order. -/
def declaredTypeNames (f : SourceFile) (function : Tree) : List String :=
  ((declaredTypes function).flatMap freeNames).map f.text

theorem annotatedType?_eq {t : Tree} {role : Syntax.Field}
    (h : ∀ r ∈ typeOf? t role, ¬ IsComment r) : annotatedType? t role = typeOf? t role := by
  cases hannotation : t.child? role with
  | none => simp [annotatedType?, typeOf?, hannotation]
  | some annotation =>
    have htype : typeOf? t role = annotation.nodes.head? := by
      rw [typeOf?, hannotation, Option.bind_some, Tree.firstNode?]
    rw [htype] at h ⊢
    rw [annotatedType?, hannotation, Option.bind_some]
    cases hnodes : annotation.nodes with
    | nil => rfl
    | cons r rest =>
      have hr : ¬ IsComment r := h r (by rw [hnodes]; rfl)
      rw [List.find?_cons_of_pos (by simpa using hr), List.head?_cons]

theorem declaredTypes_eq {function : Tree} (h : TypesFirst function) :
    declaredTypes function = types function := by
  rw [declaredTypes, types, returnType?, declaredParameters_eq, annotatedType?_eq]
  · refine congrArg (· ++ _) (List.filterMap_congr fun p hp => annotatedType?_eq fun r hr => ?_)
    exact h r (List.mem_append_left _ (List.mem_filterMap.mpr ⟨p, hp, hr⟩))
  · exact fun r hr => h r (List.mem_append_right _ (Option.mem_toList.mpr hr))

theorem typeNamesAll_eq (ts : List Tree) : typeNamesAll ts = ts.flatMap freeNames := by
  induction ts with
  | nil => rfl
  | cons t ts ih => rw [typeNamesAll, typeNames_eq, ih, List.flatMap_cons]

theorem mentioned_eq_eraseDups {f : SourceFile} {function : Tree} (h : TypesFirst function) :
    mentioned f function = (declaredTypeNames f function).eraseDups := by
  rw [mentioned, distinct_eq_eraseDups, typeNamesAll_eq, declaredTypeNames, declaredTypes_eq h]

end Signature

/-- The file declares a type of the name at its top, or imports the name. -/
def SourceFile.HasType (f : SourceFile) (name : String) : Prop :=
  f.DeclaresBare name ∨ f.DeclaresExported name ∨ ∃ i, f.ImportsFrom Scope.unquoted name i

theorem SourceFile.hasType_iff {f : SourceFile} {name : String} :
    f.HasType name ↔ (Scope.ofFile f).resolve name ≠ .global := by
  rw [Ne, Scope.resolve_eq_global_iff, not_and_or, HasType, ← or_assoc, ← exists_mem_types_iff]
  simp only [mem_imports_iff, not_forall, not_not]

instance (f : SourceFile) (name : String) : Decidable (f.HasType name) :=
  decidable_of_iff _ SourceFile.hasType_iff.symm

/-- What is reported of the types of a record that its file declares and does not export. -/
def Method.unexportedTypes (f : SourceFile) (m : Method) : List Diagnostic :=
  (m.typeRefs.filter fun r => (Scope.ofFile f).resolve r.name == .declared .none).map fun r =>
    m.typeNotExported r.name

/-- A reference leads to where the scope finds its name. -/
inductive TypeRef.LeadsFrom (f : SourceFile) (r : TypeRef) : Prop
  | declared {e : Export} (found : (Scope.ofFile f).resolve r.name = .declared e)
    (module : r.module = .file f.path)
    (imported : r.imported = if e = .default then .default else .named r.name)
  | imported {i : Import} (found : (Scope.ofFile f).resolve r.name = .imported i)
    (module : r.module = i.module) (imported : r.imported = i.imported)

namespace Candidate
variable {f : SourceFile} {s : Scope} {c : Candidate} {namespaceName : String} {shape : ReturnShape}

theorem isSome_typeRef?_iff {name : String} :
    (typeRef? f s name).isSome = true ↔ s.resolve name ≠ .global := by
  unfold typeRef?
  cases s.resolve name with
  | declared e => cases e <;> simp
  | imported i => simp
  | global => simp

theorem leadsFrom_of_typeRef? {name : String} {r : TypeRef}
    (h : typeRef? f (Scope.ofFile f) name = some r) : r.LeadsFrom f := by
  have hname := typeRef?_name h
  unfold typeRef? at h
  split at h
  · next hfound =>
    cases h
    exact .declared hfound rfl rfl
  · next e hne hfound =>
    cases h
    exact .declared hfound rfl (if_neg hne).symm
  · next i hfound =>
    cases h
    exact .imported hfound rfl rfl
  · cases h

theorem map_name_typeRefs (names : List String) :
    (names.filterMap (typeRef? f s)).map TypeRef.name =
      names.filter fun n => s.resolve n ≠ .global := by
  induction names with
  | nil => rfl
  | cons n names ih =>
    have hsome : (typeRef? f s n).isSome = true ↔ s.resolve n ≠ .global := isSome_typeRef?_iff
    cases href : typeRef? f s n with
    | none =>
      rw [href] at hsome
      rw [List.filterMap_cons_none href, ih, List.filter_cons_of_neg]
      simpa using hsome
    | some r =>
      rw [href] at hsome
      rw [List.filterMap_cons_some href, List.map_cons, ih, typeRef?_name href,
        List.filter_cons_of_pos]
      simpa using hsome

theorem unexportedTypes_toMethod :
    (c.toMethod f (Scope.ofFile f) namespaceName shape).unexportedTypes f =
      c.typeWarnings f (Scope.ofFile f) := by
  have hreport : ∀ n, (c.toMethod f (Scope.ofFile f) namespaceName shape).typeNotExported n =
      c.diagnose f .typeNotExported
        ("type " ++ n ++ " is used in an exposed signature but is not exported") := by
    intro n
    rw [Method.typeNotExported, toMethod_qualifier]
    rfl
  have hrefs : (c.toMethod f (Scope.ofFile f) namespaceName shape).typeRefs.map TypeRef.name =
      (c.freeTypes f).filter fun n => (Scope.ofFile f).resolve n ≠ .global :=
    map_name_typeRefs _
  have hnames : ∀ refs : List TypeRef,
      (refs.filter fun r => (Scope.ofFile f).resolve r.name == .declared .none).map TypeRef.name =
        (refs.map TypeRef.name).filter fun n => (Scope.ofFile f).resolve n == .declared .none := by
    intro refs
    rw [List.filter_map]
    rfl
  rw [Method.unexportedTypes, ← Function.comp_def (Method.typeNotExported _) TypeRef.name,
    ← List.map_map, hnames, hrefs, List.filter_filter, typeWarnings, funext hreport]
  refine congrArg (List.map _) (List.filter_congr fun n _ => ?_)
  cases (Scope.ofFile f).resolve n <;> simp

/-- Of the warnings on a candidate, those on its types are what its record calls for. -/
theorem filter_warnings :
    (c.typeWarnings f s ++ c.exportWarnings f s).filter (·.problem == .typeNotExported) =
      c.typeWarnings f s := by
  have htypes : (c.typeWarnings f s).filter (·.problem == .typeNotExported) = c.typeWarnings f s := by
    refine List.filter_eq_self.mpr fun d hd => ?_
    obtain ⟨n, -, rfl⟩ := List.mem_map.mp hd
    rfl
  have hexports : (c.exportWarnings f s).filter (·.problem == .typeNotExported) = [] := by
    unfold exportWarnings
    split_ifs <;> rfl
  rw [List.filter_append, htypes, hexports, List.append_nil]

theorem filter_yield (marking : Marking) :
    (c.judge marking f (Scope.ofFile f)).yield.diagnostics.filter (·.problem == .typeNotExported) =
      (c.judge marking f (Scope.ofFile f)).yield.methods.flatMap (Method.unexportedTypes f) := by
  have hshare : c.Share marking f (c.judge marking f (Scope.ofFile f)).yield := share_judge
  cases hjudge : c.judge marking f (Scope.ofFile f) with
  | notAnnotated => rfl
  | dropped d =>
    rw [hjudge] at hshare
    obtain ⟨problem, severity, message, file, line, qualifier⟩ := d
    cases hshare with
    | dropped _ _ drops => cases problem <;> first | rfl | cases drops
  | exposed m warnings =>
    obtain ⟨namespaceName, shape, -, -, rfl, rfl⟩ := judge_eq_exposed hjudge
    change (typeWarnings f _ c ++ exportWarnings f _ c).filter _ = [_].flatMap _
    rw [List.flatMap_singleton, unexportedTypes_toMethod, filter_warnings]

end Candidate

/-- The warnings on the types of a group are what its records call for. -/
theorem CandidateGroup.filter_extract (marking : Marking) (f : SourceFile) (g : CandidateGroup) :
    (g.extract marking f (Scope.ofFile f)).diagnostics.filter (·.problem == .typeNotExported) =
      (g.extract marking f (Scope.ofFile f)).methods.flatMap (Method.unexportedTypes f) := by
  obtain ⟨late, hdiagnostics, hneedy, hsilent⟩ := g.extract_diagnostics marking f
  have hlate : late.filter (·.problem == .typeNotExported) = [] := by
    by_cases hnone : g.needyOwner? = none ∨ (g.extract marking f (Scope.ofFile f)).methods = []
    · rw [hsilent hnone, List.filter_nil]
    · obtain ⟨howner, hmethods⟩ := not_or.mp hnone
      obtain ⟨o, ho⟩ := Option.ne_none_iff_exists'.mp howner
      obtain ⟨message, rfl⟩ := hneedy o ho hmethods
      rfl
  rw [hdiagnostics, g.extract_methods, List.filter_append, hlate, List.append_nil, shares]
  induction g.candidates with
  | nil => rfl
  | cons c cs ih =>
    simp only [List.map_cons, List.flatMap_cons, List.filter_append, List.flatMap_append]
    rw [Candidate.filter_yield, ih]

namespace SourceFile
variable {f : SourceFile} {marking : Marking}

theorem filter_extract (f : SourceFile) (marking : Marking) :
    (f.extract marking).diagnostics.filter (·.problem == .typeNotExported) =
      (f.extract marking).methods.flatMap (Method.unexportedTypes f) := by
  unfold extract
  dsimp only
  induction Candidate.ofFile f (Scope.ofFile f) with
  | nil => rfl
  | cons g gs ih =>
    simp only [List.map_cons, List.flatMap_cons, List.filter_append, List.flatMap_append]
    rw [CandidateGroup.filter_extract, ih]

/-- A candidate that is exposed gives its record to the methods of the file. -/
theorem mem_extract_of_judge {c : Candidate} {m : Method} {warnings : List Diagnostic}
    (hc : c ∈ f.candidates) (h : c.judge marking f (Scope.ofFile f) = .exposed m warnings) :
    m ∈ (f.extract marking).methods := by
  obtain ⟨g, hg, hcg⟩ := List.mem_flatMap.mp hc
  refine List.mem_flatMap.mpr ⟨_, List.mem_map_of_mem hg, ?_⟩
  exact List.mem_filterMap.mpr ⟨_, List.mem_map_of_mem hcg, by rw [h]; rfl⟩

/-- The record of a declaration refers, each once and in the order in which they stand first in the
declared types, to exactly the type names that are no part of a qualified name, stand for no type
parameter of the function or of its class, and are declared or imported by the file. A reference
leads to where its name is found. Of the types, those that the file declares and does not export are
warned of, each once, and no other warnings of that kind are given for the file. -/
theorem type_references_exact {c : Candidate} {m : Method} {warnings : List Diagnostic}
    (hc : c ∈ f.candidates) (hjudge : c.judge marking f (Scope.ofFile f) = .exposed m warnings)
    (hfirst : Signature.TypesFirst c.function) :
    m ∈ (f.extract marking).methods ∧ (m.typeRefs.map TypeRef.name).Nodup ∧
      (∃ declaration ∈ f.declarations, c.PlacedIn f declaration ∧
        m.typeRefs.map TypeRef.name = (Signature.declaredTypeNames f c.function).eraseDups.filter
          fun n => ¬ f.BindsType declaration c.function n ∧ f.HasType n) ∧
      (∀ r ∈ m.typeRefs, r.LeadsFrom f) ∧
      warnings.filter (·.problem == .typeNotExported) = m.unexportedTypes f ∧
      (f.extract marking).diagnostics.filter (·.problem == .typeNotExported) =
        (f.extract marking).methods.flatMap (Method.unexportedTypes f) := by
  obtain ⟨namespaceName, shape, -, -, hm, hwarnings⟩ := Candidate.judge_eq_exposed hjudge
  obtain ⟨declaration, hdeclaration, hplaced, declared, hread⟩ := Candidate.exists_placedIn hc
  have hnames : m.typeRefs.map TypeRef.name =
      (c.freeTypes f).filter fun n => (Scope.ofFile f).resolve n ≠ .global := by
    rw [hm]
    exact Candidate.map_name_typeRefs _
  refine ⟨mem_extract_of_judge hc hjudge, ?_, ⟨declaration, hdeclaration, hplaced, ?_⟩, ?_, ?_,
    filter_extract f marking⟩
  · rw [hnames]
    exact ((Signature.nodup_distinct _).filter _).filter _
  · rw [hnames, Candidate.freeTypes, Signature.mentioned_eq_eraseDups hfirst, List.filter_filter]
    refine List.filter_congr fun n _ => ?_
    simp [Bool.and_comm, ← hread.mem_typeParameters_iff, SourceFile.hasType_iff]
  · intro r hr
    rw [hm] at hr
    obtain ⟨n, -, href⟩ := List.mem_filterMap.mp hr
    exact Candidate.leadsFrom_of_typeRef? href
  · rw [hwarnings, hm, Candidate.unexportedTypes_toMethod, Candidate.filter_warnings]

/-- A method whose class has a type parameter that is named like an imported type, and which has one
itself that is named like a type of the file. -/
def referringFile : SourceFile :=
  let source : Syntax.Source := ⟨("import \x7b User \x7d from './user';\n" ++
    "interface Key \x7b\x7d\ninterface Page \x7b\x7d\nexport class Store<User> \x7b\n" ++
    "/** @expose */\nfind<Key>(page: Page, key: Key): User \x7b\x7d\n\x7d\n").toUTF8⟩
  ⟨⟨"/app/src/a.ts"⟩, source, Syntax.Dialect.plain.parse source⟩

theorem referring_references_exact :
    (∃ declaration ∈ referringFile.declarations,
      referringFile.ListsTypeParameter declaration "User") ∧
    (Scope.ofFile referringFile).resolve "User" ≠ .global ∧
    (Scope.ofFile referringFile).resolve "Key" = .declared .none ∧
    ∃ c ∈ referringFile.candidates, ∃ m warnings,
      c.judge {} referringFile (Scope.ofFile referringFile) = .exposed m warnings ∧
      Signature.TypesFirst c.function ∧ referringFile.ListsTypeParameter c.function "Key" ∧
      Signature.declaredTypeNames referringFile c.function = ["Page", "Key", "User"] ∧
      m ∈ (referringFile.extract {}).methods ∧ m.typeRefs.map TypeRef.name = ["Page"] ∧
      warnings.filter (·.problem == .typeNotExported) = [m.typeNotExported "Page"] := by
  have hfile : (∃ declaration ∈ referringFile.declarations,
        referringFile.ListsTypeParameter declaration "User") ∧
      (Scope.ofFile referringFile).resolve "User" ≠ .global ∧
      (Scope.ofFile referringFile).resolve "Key" = .declared .none ∧
      ∃ c ∈ referringFile.candidates, Signature.TypesFirst c.function ∧
        referringFile.ListsTypeParameter c.function "Key" ∧
        Signature.declaredTypeNames referringFile c.function = ["Page", "Key", "User"] ∧
        (c.judge {} referringFile (Scope.ofFile referringFile)).method?.any fun m =>
          m.typeRefs.map TypeRef.name = ["Page"] ∧
            m.unexportedTypes referringFile = [m.typeNotExported "Page"] := by
    decide +kernel
  obtain ⟨hclass, huser, hkey, c, hc, hfirst, hmethod, htypes, hrecord⟩ := hfile
  cases hjudge : c.judge {} referringFile (Scope.ofFile referringFile) with
  | notAnnotated => simp [hjudge, Verdict.method?] at hrecord
  | dropped d => simp [hjudge, Verdict.method?] at hrecord
  | exposed m warnings =>
    obtain ⟨hnames, hreports⟩ :
        m.typeRefs.map TypeRef.name = ["Page"] ∧
          m.unexportedTypes referringFile = [m.typeNotExported "Page"] := by
      simpa [hjudge, Verdict.method?] using hrecord
    obtain ⟨hm, -, -, -, hwarnings, -⟩ := type_references_exact hc hjudge hfirst
    exact ⟨hclass, huser, hkey, c, hc, m, warnings, hjudge, hfirst, hmethod, htypes, hm, hnames,
      hwarnings.trans hreports⟩

end SourceFile

end CallBridge
