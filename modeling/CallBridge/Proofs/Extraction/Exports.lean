import CallBridge.Generated.Backend
import CallBridge.Proofs.Extraction.Candidates

/-! # Exports

What a source file exports as a module is read off its statements: a declaration exports the names
that it binds, and an export list gives away a name of the file under its own name or another one.
The records of a file say under which name to import a binding. That name is right unless an export
list gives the binding a name that is neither its own nor `default`.
-/
namespace CallBridge

open Syntax (Tree)

/-- An export of a module: a name in the file, and the name that it has outside. -/
structure ModuleExport where
  binding : String
  exported : ImportedName
  typeOnly : Bool
  deriving DecidableEq, Repr

mutual

def patternNames : Tree → List Tree
  | .node .identifier r s cs => [.node .identifier r s cs]
  | .node .assignmentPattern _ _ (target :: _) => patternNames target
  | .node .objectPattern _ _ cs => patternNamesAll cs
  | .node .pairPattern _ _ cs => patternNamesAll cs
  | .node .arrayPattern _ _ cs => patternNamesAll cs
  | .node .restPattern _ _ cs => patternNamesAll cs
  | _ => []

def patternNamesAll : List Tree → List Tree
  | [] => []
  | t :: ts => patternNames t ++ patternNamesAll ts

end

theorem patternNamesAll_eq_flatMap (ts : List Tree) :
    patternNamesAll ts = ts.flatMap patternNames := by
  induction ts with
  | nil => rfl
  | cons t ts ih => rw [patternNamesAll, ih, List.flatMap_cons]

theorem Syntax.Tree.is_of_is {t : Tree} {k : Syntax.Kind} (h : t.is k = true) (k' : Syntax.Kind) :
    t.is k' = decide (k = k') := by
  unfold Tree.is at h ⊢
  rw [beq_iff_eq.mp h, Bool.eq_iff_iff, beq_iff_eq, Option.some_inj, decide_eq_true_eq]

theorem patternNames_of_identifier {t : Tree} (h : t.is .identifier = true) :
    patternNames t = [t] := by
  cases t with
  | node k r s cs =>
    obtain rfl : k = .identifier := by simpa [Tree.is, Tree.kind?] using h
    rfl
  | token => cases h
  | missing => cases h

def boundNames (declaration : Tree) : List Tree :=
  if declaration.is .lexicalDeclaration || declaration.is .variableDeclaration then
    ((declaration.nodes.filter (·.is .variableDeclarator)).filterMap (·.child? .name)).flatMap
      patternNames
  else (declaration.child? .name).toList

namespace SourceFile

def boundBy (f : SourceFile) (declaration : Tree) : List String :=
  (if declaration.is .ambientDeclaration then declaration.nodes.flatMap boundNames
    else boundNames declaration).map f.text

def declarationExports (f : SourceFile) (statement : Tree) : List ModuleExport :=
  if statement.is .exportStatement then
    match statement.child? .declaration with
    | some d => (f.boundBy d).map fun name =>
      ⟨name, if statement.hasToken "default" then .default else .named name,
        d.is .interfaceDeclaration || d.is .typeAliasDeclaration⟩
    | none => []
  else []

def outsideName (f : SourceFile) (item : Tree) (name : String) : ImportedName :=
  match (item.child? .alias).map f.text with
  | none => .named name
  | some outside => if outside == "default" then .default else .named outside

def listItems (statement : Tree) : List Tree :=
  ((statement.nodes.filter (·.is .exportClause)).flatMap Tree.nodes).filter (·.is .exportSpecifier)

/-- The exports of a statement that exports a name of the file, or a list of them. A list with a
source exports names of another file. -/
def listExports (f : SourceFile) (statement : Tree) : List ModuleExport :=
  if statement.is .exportStatement && (statement.child? .declaration).isNone then
    match statement.child? .value with
    | some value => if value.is .identifier then [⟨f.text value, .default, false⟩] else []
    | none =>
      if (statement.child? .source).isSome then []
      else
        (listItems statement).filterMap fun item => (item.child? .name).map fun name =>
          ⟨f.text name, f.outsideName item (f.text name),
            statement.hasToken "type" || item.hasToken "type"⟩
  else []

/-- The exports of a file that give away names of the file itself. -/
def exports (f : SourceFile) : List ModuleExport :=
  f.tree.nodes.flatMap fun statement => f.declarationExports statement ++ f.listExports statement

/-- No export list gives a name away under another one than its own and `default`. -/
def KeepsName (f : SourceFile) (name : String) : Prop :=
  ∀ statement ∈ f.tree.nodes, ∀ e ∈ f.listExports statement, e.binding = name →
    e.exported = .named name ∨ e.exported = .default

instance (f : SourceFile) (name : String) : Decidable (f.KeepsName name) :=
  inferInstanceAs (Decidable (∀ statement ∈ f.tree.nodes, ∀ e ∈ f.listExports statement,
    e.binding = name → e.exported = .named name ∨ e.exported = .default))

/-- A name is given away as that of a value: under its own name or as `default`, not as a type
only, and not as the text of a pattern. -/
structure KeepsValue (f : SourceFile) (name : String) : Prop where
  named : name ≠ ""
  keeps : f.KeepsName name
  value : ∀ statement ∈ f.tree.nodes, ∀ e ∈ f.listExports statement, e.binding = name →
    e.typeOnly = false
  plain : ∀ statement ∈ f.tree.nodes, ∀ d ∈ statement.child? .declaration, ∀ v ∈ d.nodes,
    v.is .variableDeclarator = true → ∀ n ∈ v.child? .name, f.text n = name →
      n.is .identifier = true

instance (f : SourceFile) (name : String) : Decidable (f.KeepsValue name) :=
  decidable_of_iff (name ≠ "" ∧ f.KeepsName name ∧
    (∀ statement ∈ f.tree.nodes, ∀ e ∈ f.listExports statement, e.binding = name →
      e.typeOnly = false) ∧
    ∀ statement ∈ f.tree.nodes, ∀ d ∈ statement.child? .declaration, ∀ v ∈ d.nodes,
      v.is .variableDeclarator = true → ∀ n ∈ v.child? .name, f.text n = name →
        n.is .identifier = true)
    ⟨fun ⟨named, keeps, value, plain⟩ => ⟨named, keeps, value, plain⟩,
      fun h => ⟨h.named, h.keeps, h.value, h.plain⟩⟩

/-- A type of a name is declared at the top of the file. -/
def DeclaresType (f : SourceFile) (name : String) : Prop :=
  ∃ statement ∈ f.tree.nodes, (Scope.declaredType? f statement).map Prod.fst = some name

instance (f : SourceFile) (name : String) : Decidable (f.DeclaresType name) :=
  inferInstanceAs (Decidable (∃ statement ∈ f.tree.nodes, _ = some name))

end SourceFile

section Scope
variable {f : SourceFile} {statement declaration : Tree} {name : String} {declared e : Export}

theorem Scope.last?_eq_some {α : Type} {entries : List (String × α)} {name : String} {a : α}
    (h : Scope.last? entries name = some a) : (name, a) ∈ entries := by
  obtain ⟨entry, hfind, rfl⟩ := Option.map_eq_some_iff.mp h
  have hname : entry.1 = name := by simpa using List.find?_some hfind
  have hmem := List.mem_of_find?_eq_some hfind
  rw [List.mem_reverse] at hmem
  exact hname ▸ hmem

theorem Scope.exists_last? {α : Type} {entries : List (String × α)} {name : String} {a : α}
    (h : (name, a) ∈ entries) : ∃ b, Scope.last? entries name = some b := by
  unfold Scope.last?
  cases hfind : entries.reverse.find? (·.1 == name) with
  | none => exact absurd (List.find?_eq_none.mp hfind _ (List.mem_reverse.mpr h)) (by simp)
  | some entry => exact ⟨entry.2, rfl⟩

def Export.outside : Export → String → ImportedName
  | .default, _ => .default
  | _, name => .named name

theorem Export.eq_none_of_not_isExported {e : Export} (h : ¬ e.isExported = true) : e = .none := by
  cases e with
  | none => rfl
  | named => exact absurd rfl h
  | default => exact absurd rfl h

/-- The names that the scope finds in an export statement without a declaration. -/
theorem mem_listedExports (h : (name, e) ∈ Scope.listedExports f statement) :
    statement.is .exportStatement = true ∧ statement.child? .declaration = none ∧
    ((∃ value, statement.child? .value = some value ∧ value.is .identifier = true ∧
        f.text value = name ∧ e = .default) ∨
      (statement.child? .value = none ∧ statement.child? .source = none ∧
        ∃ item ∈ SourceFile.listItems statement, ∃ n, item.child? .name = some n ∧
          f.text n = name ∧
          e = if (item.child? .alias).any fun a => f.text a == "default" then .default
            else .named)) := by
  unfold Scope.listedExports at h
  by_cases hlist : (!statement.is .exportStatement || (statement.child? .declaration).isSome) = true
  · rw [if_pos hlist] at h
    cases h
  · rw [if_neg hlist] at h
    simp only [Bool.or_eq_true, Bool.not_eq_true', not_or, Bool.not_eq_false,
      Option.not_isSome_iff_eq_none] at hlist
    refine ⟨hlist.1, hlist.2, ?_⟩
    cases hvalue : statement.child? .value with
    | some value =>
      rw [hvalue] at h
      dsimp only at h
      split_ifs at h with hidentifier
      · obtain ⟨htext, hstatus⟩ := Prod.mk.inj (List.mem_singleton.mp h)
        exact .inl ⟨value, rfl, hidentifier, htext.symm, hstatus⟩
      · cases h
    | none =>
      rw [hvalue] at h
      dsimp only at h
      by_cases hsource : (statement.child? .source).isSome = true
      · rw [if_pos hsource] at h
        cases h
      · rw [if_neg hsource] at h
        obtain ⟨item, hitem, hpair⟩ := List.mem_filterMap.mp h
        obtain ⟨n, hn, hpair⟩ := Option.map_eq_some_iff.mp hpair
        obtain ⟨htext, hstatus⟩ := Prod.mk.inj hpair
        exact .inr ⟨rfl, by simpa using hsource, item, hitem, n, hn, htext, hstatus.symm⟩

/-- The scope takes an item of an export list for a default export exactly if it is one. -/
theorem outsideName_cases {item : Tree} (name : String)
    (he : e = if (item.child? .alias).any fun a => f.text a == "default" then .default
      else .named) :
    f.outsideName item name = .default ∧ e = .default ∨
      f.outsideName item name ≠ .default ∧ e = .named := by
  unfold SourceFile.outsideName
  cases halias : item.child? .alias with
  | none =>
    rw [halias, Option.any_none, if_neg Bool.false_ne_true] at he
    rw [Option.map_none]
    exact .inr ⟨ImportedName.noConfusion, he⟩
  | some a =>
    rw [halias, Option.any_some] at he
    rw [Option.map_some]
    dsimp only
    split_ifs at he ⊢
    · exact .inl ⟨rfl, he⟩
    · exact .inr ⟨ImportedName.noConfusion, he⟩

/-- A name that the scope finds in an export list is exported as the scope says, unless the list
gives it a name that is neither its own nor `default`. -/
theorem exists_listExport (hname : e = .default ∨ f.KeepsName name) (hs : statement ∈ f.tree.nodes)
    (h : (name, e) ∈ Scope.listedExports f statement) :
    ∃ x ∈ f.listExports statement, x.binding = name ∧ x.exported = e.outside name := by
  obtain ⟨hexport, hdeclaration, ⟨value, hvalue, hidentifier, htext, rfl⟩ |
    ⟨hvalue, hsource, item, hitem, n, hn, htext, he⟩⟩ := mem_listedExports h
  · have hlisted : f.listExports statement = [⟨name, .default, false⟩] := by
      simp [SourceFile.listExports, hexport, hdeclaration, hvalue, hidentifier, htext]
    rw [hlisted]
    exact ⟨_, List.mem_singleton_self _, rfl, rfl⟩
  · have hlisted : ⟨name, f.outsideName item name,
        statement.hasToken "type" || item.hasToken "type"⟩ ∈ f.listExports statement := by
      simp only [SourceFile.listExports, hexport, hdeclaration, hvalue, hsource, Option.isNone_none,
        Bool.and_self, if_true, Option.isSome_none, Bool.false_eq_true, if_false]
      refine List.mem_filterMap.mpr ⟨item, hitem, ?_⟩
      rw [hn, Option.map_some, htext]
    refine ⟨_, hlisted, rfl, ?_⟩
    rcases outsideName_cases name he with ⟨hdefault, rfl⟩ | ⟨hnot, rfl⟩
    · exact hdefault
    · have hkeeps : f.KeepsName name := hname.resolve_left Export.noConfusion
      exact (hkeeps statement hs _ hlisted rfl).resolve_right hnot

theorem exists_declarationExport (h : declarationOf? statement = some (declaration, declared))
    (hexported : declared.isExported = true) (hname : name ∈ f.boundBy declaration) :
    ∃ x ∈ f.declarationExports statement, x.binding = name ∧ x.exported = declared.outside name ∧
      x.typeOnly = (declaration.is .interfaceDeclaration || declaration.is .typeAliasDeclaration) := by
  rcases declarationOf?_eq_some h with ⟨hexport, hdeclaration, rfl⟩ | ⟨-, -, rfl⟩
  · unfold SourceFile.declarationExports
    rw [if_pos hexport, hdeclaration]
    refine ⟨_, List.mem_map_of_mem hname, rfl, ?_, rfl⟩
    unfold Scope.statementExport
    split_ifs <;> rfl
  · cases hexported

/-- A binding is exported by its declaration, or its name is found in an export list. -/
theorem exportOf_cases (h : (Scope.ofFile f).exportOf name declared = e)
    (hexported : e.isExported = true) :
    declared = e ∨ ∃ statement ∈ f.tree.nodes, (name, e) ∈ Scope.listedExports f statement := by
  unfold Scope.exportOf Scope.exportApart at h
  split_ifs at h with hdeclared
  · exact .inl h
  · cases hlast : Scope.last? (Scope.ofFile f).exports name with
    | none =>
      rw [hlast] at h
      cases h
      cases hexported
    | some found =>
      rw [hlast] at h
      obtain rfl : found = e := h
      exact .inr (List.mem_flatMap.mp (Scope.last?_eq_some hlast))

theorem mem_exports_of_declaration {x : ModuleExport} (hs : statement ∈ f.tree.nodes)
    (hx : x ∈ f.declarationExports statement) : x ∈ f.exports :=
  List.mem_flatMap.mpr ⟨statement, hs, List.mem_append_left _ hx⟩

theorem mem_exports_of_list {x : ModuleExport} (hs : statement ∈ f.tree.nodes)
    (hx : x ∈ f.listExports statement) : x ∈ f.exports :=
  List.mem_flatMap.mpr ⟨statement, hs, List.mem_append_right _ hx⟩

theorem mem_boundBy_of_name {n : Tree} (hn : declaration.child? .name = some n)
    (hambient : declaration.is .ambientDeclaration = false)
    (hvariables : (declaration.is .lexicalDeclaration ||
      declaration.is .variableDeclaration) = false) : f.text n ∈ f.boundBy declaration := by
  rw [SourceFile.boundBy, hambient, if_neg Bool.false_ne_true, boundNames, hvariables,
    if_neg Bool.false_ne_true, hn]
  exact List.mem_singleton_self _

theorem mem_boundBy_of_declarator {declarator n : Tree} (hpart : declarator ∈ declaration.nodes)
    (hdeclarator : declarator.is .variableDeclarator = true)
    (hn : declarator.child? .name = some n) (hidentifier : n.is .identifier = true)
    (hambient : declaration.is .ambientDeclaration = false)
    (hvariables : (declaration.is .lexicalDeclaration ||
      declaration.is .variableDeclaration) = true) : f.text n ∈ f.boundBy declaration := by
  rw [SourceFile.boundBy, hambient, if_neg Bool.false_ne_true, boundNames, if_pos hvariables]
  refine List.mem_map_of_mem (List.mem_flatMap.mpr ⟨n, ?_, ?_⟩)
  · exact List.mem_filterMap.mpr ⟨declarator, List.mem_filter.mpr ⟨hpart, hdeclarator⟩, hn⟩
  · rw [patternNames_of_identifier hidentifier]
    exact List.mem_singleton_self n

end Scope

section Owner
variable {f : SourceFile} {s : Scope} {statement declaration : Tree} {declared : Export}
  {c : Candidate}

/-- The declaration that a candidate is read from binds what has to be imported to call it, and
it binds values. -/
theorem Candidate.ReadFrom.binds (hc : c.ReadFrom f s declaration declared)
    (hdeclaration : declarationOf? statement = some (declaration, declared))
    (hexported : declared.isExported = true) (hs : statement ∈ f.tree.nodes)
    (hkeeps : f.KeepsValue (c.binding f)) :
    c.binding f ∈ f.boundBy declaration ∧
      (declaration.is .interfaceDeclaration || declaration.is .typeAliasDeclaration) = false := by
  cases hc with
  | ofFunction owner function name declared kind =>
    have hbinding : c.binding f = ((declaration.child? .name).map f.text).getD "" := by
      rw [Candidate.binding, owner, Candidate.name, name]
      rfl
    cases hn : declaration.child? .name with
    | none =>
      rw [hn] at hbinding
      exact absurd hbinding hkeeps.named
    | some n =>
      rw [hbinding, hn, Option.map_some, Option.getD_some]
      rcases (Bool.or_eq_true _ _).mp kind with h | h
      · refine ⟨mem_boundBy_of_name hn ?_ ?_, ?_⟩ <;> simp [Tree.is_of_is h]
      · refine ⟨mem_boundBy_of_name hn ?_ ?_, ?_⟩ <;> simp [Tree.is_of_is h]
  | ofMember info body made owner function name kind =>
    have hbinding : c.binding f = info.name := by
      rw [Candidate.binding, owner]
      rfl
    obtain ⟨n, hn, hinfo, -⟩ := Candidate.classInfo?_eq_some made
    rw [hbinding, hinfo]
    rcases (Bool.or_eq_true _ _).mp kind with h | h
    · refine ⟨mem_boundBy_of_name hn ?_ ?_, ?_⟩ <;> simp [Tree.is_of_is h]
    · refine ⟨mem_boundBy_of_name hn ?_ ?_, ?_⟩ <;> simp [Tree.is_of_is h]
  | ofVariable declarator part isDeclarator owner function name declared kind =>
    have hbinding : c.binding f = ((declarator.child? .name).map f.text).getD "" := by
      rw [Candidate.binding, owner, Candidate.name, name]
      rfl
    cases hn : declarator.child? .name with
    | none =>
      rw [hn] at hbinding
      exact absurd hbinding hkeeps.named
    | some n =>
      rw [hn, Option.map_some, Option.getD_some] at hbinding
      have hdeclared : statement.child? .declaration = some declaration := by
        rcases declarationOf?_eq_some hdeclaration with ⟨-, h, -⟩ | ⟨-, -, rfl⟩
        · exact h
        · cases hexported
      -- Only a pattern binds something else than the text that stands for its name.
      have hidentifier := hkeeps.plain statement hs declaration hdeclared declarator part
        isDeclarator n hn hbinding.symm
      rw [hbinding]
      rcases (Bool.or_eq_true _ _).mp kind with h | h
      · refine ⟨mem_boundBy_of_declarator part isDeclarator hn hidentifier ?_ kind, ?_⟩ <;>
          simp [Tree.is_of_is h]
      · refine ⟨mem_boundBy_of_declarator part isDeclarator hn hidentifier ?_ kind, ?_⟩ <;>
          simp [Tree.is_of_is h]

theorem Candidate.ReadFrom.exported_eq (hc : c.ReadFrom f s declaration declared) :
    c.exported f s = s.exportOf (c.binding f) declared := by
  cases hc with
  | ofFunction owner function name given kind =>
    rw [Candidate.exported, Candidate.binding, owner, given]
    rfl
  | ofMember info body made owner function name kind =>
    obtain ⟨-, -, -, hexported⟩ := Candidate.classInfo?_eq_some made
    rw [Candidate.exported, Candidate.binding, owner]
    exact hexported
  | ofVariable declarator part isDeclarator owner function name given kind =>
    rw [Candidate.exported, Candidate.binding, owner, given]
    rfl

/-- An owner that counts as exported is exported as a value, as its status says. -/
theorem Candidate.ReadFrom.exists_export (hc : c.ReadFrom f (Scope.ofFile f) declaration declared)
    (hdeclaration : declarationOf? statement = some (declaration, declared))
    (hs : statement ∈ f.tree.nodes) (hkeeps : f.KeepsValue (c.binding f))
    (hexported : (c.exported f (Scope.ofFile f)).isExported = true) :
    ∃ x ∈ f.exports, x.binding = c.binding f ∧
      x.exported = (c.exported f (Scope.ofFile f)).outside (c.binding f) ∧ x.typeOnly = false := by
  rcases exportOf_cases hc.exported_eq.symm hexported with hdeclared | ⟨list, hlist, hlisted⟩
  · rw [← hdeclared] at hexported ⊢
    obtain ⟨hbound, hvalue⟩ := hc.binds hdeclaration hexported hs hkeeps
    obtain ⟨x, hx, hname, houtside, htype⟩ :=
      exists_declarationExport hdeclaration hexported hbound
    exact ⟨x, mem_exports_of_declaration hs hx, hname, houtside, htype.trans hvalue⟩
  · obtain ⟨x, hx, hname, houtside⟩ := exists_listExport (.inr hkeeps.keeps) hlist hlisted
    exact ⟨x, mem_exports_of_list hlist hx, hname, houtside, hkeeps.value list hlist x hx hname⟩

end Owner

section Types
variable {f : SourceFile} {statement declaration : Tree} {name : String} {declared e : Export}

theorem declaredType?_eq (f : SourceFile) (statement : Tree) : Scope.declaredType? f statement =
    (declarationOf? statement).bind fun d =>
      if Scope.declaresType d.1 then (d.1.child? .name).bind fun n => some (f.text n, d.2)
      else none := by
  unfold Scope.declaredType? declarationOf?
  split_ifs
  · cases statement.child? .declaration with
    | none => rfl
    | some d => rfl
  · rfl

theorem declaredType?_eq_some (h : Scope.declaredType? f statement = some (name, declared)) :
    ∃ declaration n, declarationOf? statement = some (declaration, declared) ∧
      Scope.declaresType declaration = true ∧ declaration.child? .name = some n ∧
      f.text n = name := by
  rw [declaredType?_eq] at h
  obtain ⟨⟨declaration, given⟩, hdeclaration, h⟩ := Option.bind_eq_some_iff.mp h
  dsimp only at h
  split_ifs at h with htype
  obtain ⟨n, hn, hpair⟩ := Option.bind_eq_some_iff.mp h
  obtain ⟨htext, rfl⟩ := Prod.mk.inj (Option.some.inj hpair)
  exact ⟨declaration, n, hdeclaration, htype, hn, htext⟩

theorem mem_boundBy_of_declaresType {n : Tree} (h : Scope.declaresType declaration = true)
    (hn : declaration.child? .name = some n) : f.text n ∈ f.boundBy declaration := by
  simp only [Scope.declaresType, Bool.or_eq_true] at h
  rcases h with (((h | h) | h) | h) | h <;>
    exact mem_boundBy_of_name hn (by simp [Tree.is_of_is h]) (by simp [Tree.is_of_is h])

theorem exists_typeExport (hkeeps : e = .default ∨ f.KeepsName name)
    (h : (Scope.ofFile f).typeExport? name = some e) (hexported : e.isExported = true) :
    ∃ x ∈ f.exports, x.binding = name ∧ x.exported = e.outside name := by
  unfold Scope.typeExport? at h
  split_ifs at h with hdeclared
  rcases exportOf_cases (Option.some.inj h) hexported with hdirect | ⟨list, hlist, hlisted⟩
  · -- The last declaration that is exported by itself decides.
    cases hlast : Scope.last? ((Scope.ofFile f).types.filter (·.2.isExported)) name with
    | none =>
      rw [hlast] at hdirect
      cases hdirect
      cases hexported
    | some given =>
      rw [hlast] at hdirect
      obtain rfl : given = e := hdirect
      have htype := (List.mem_filter.mp (Scope.last?_eq_some hlast)).1
      obtain ⟨statement, hs, hsome⟩ := List.mem_filterMap.mp htype
      obtain ⟨declaration, n, hdeclaration, hkind, hn, rfl⟩ := declaredType?_eq_some hsome
      obtain ⟨x, hx, hname, houtside, -⟩ := exists_declarationExport hdeclaration hexported
        (mem_boundBy_of_declaresType hkind hn)
      exact ⟨x, mem_exports_of_declaration hs hx, hname, houtside⟩
  · obtain ⟨x, hx, hname, houtside⟩ := exists_listExport hkeeps hlist hlisted
    exact ⟨x, mem_exports_of_list hlist hx, hname, houtside⟩

theorem exists_typeExport? (h : f.DeclaresType name) :
    ∃ e, (Scope.ofFile f).typeExport? name = some e := by
  obtain ⟨statement, hs, hname⟩ := h
  obtain ⟨entry, hsome, rfl⟩ := Option.map_eq_some_iff.mp hname
  have hany : (Scope.ofFile f).types.any (·.1 == entry.1) = true :=
    List.any_eq_true.mpr
      ⟨entry, List.mem_filterMap.mpr ⟨statement, hs, hsome⟩, beq_self_eq_true entry.1⟩
  unfold Scope.typeExport?
  rw [if_pos hany]
  exact ⟨_, rfl⟩

theorem Candidate.typeRef?_name {s : Scope} {r : TypeRef} (h : typeRef? f s name = some r) :
    r.name = name := by
  unfold typeRef? at h
  split at h <;> cases h <;> rfl

/-- A type that the file declares is asked for from the file, as its status says. -/
theorem typeRef?_of_typeExport? (h : (Scope.ofFile f).typeExport? name = some e) :
    (Scope.ofFile f).resolve name = .declared e ∧
      Candidate.typeRef? f (Scope.ofFile f) name = some ⟨name, e.outside name, .file f.path⟩ := by
  have hresolve : (Scope.ofFile f).resolve name = .declared e := by
    rw [Scope.resolve, h]
  refine ⟨hresolve, ?_⟩
  rw [Candidate.typeRef?, hresolve]
  cases e <;> rfl

end Types

namespace Method

/-- What is reported of a method whose owner is not exported. -/
def notExported (m : Method) : Diagnostic :=
  .of .notExported m.file.text m.line
    (m.binding ++ " is not exported; the generated backend import will not resolve")
    (some m.qualifier)

/-- What is reported of a method whose signature mentions a type that is not exported. -/
def typeNotExported (m : Method) (name : String) : Diagnostic :=
  .of .typeNotExported m.file.text m.line
    ("type " ++ name ++ " is used in an exposed signature but is not exported") (some m.qualifier)

end Method

theorem importedName_eq (m : Method) :
    Generated.Backend.importedName m = m.exported.outside m.binding := by
  unfold Generated.Backend.importedName
  cases m.exported <;> rfl

theorem typeNotExported_mem {f : SourceFile} {s : Scope} {c : Candidate} {namespaceName name : String}
    {shape : ReturnShape} (hfree : name ∈ c.freeTypes f)
    (hresolve : s.resolve name = .declared .none) :
    (c.toMethod f s namespaceName shape).typeNotExported name ∈ c.typeWarnings f s := by
  rw [Method.typeNotExported, Candidate.toMethod_qualifier]
  refine List.mem_map.mpr ⟨name, List.mem_filter.mpr ⟨hfree, ?_⟩, rfl⟩
  rw [hresolve]
  rfl

/-- A mentioned type of the file is exported as its status says, or it has none and is warned of. -/
theorem exists_typeExport_or_warned {f : SourceFile} {c : Candidate} {namespaceName name : String}
    {shape : ReturnShape} {e : Export} (hfree : name ∈ c.freeTypes f)
    (he : (Scope.ofFile f).typeExport? name = some e) :
    (f.KeepsName name → ∃ x ∈ f.exports, x.binding = name ∧ x.exported = e.outside name) ∨
      e = .none ∧ (c.toMethod f (Scope.ofFile f) namespaceName shape).typeNotExported name ∈
        c.typeWarnings f (Scope.ofFile f) := by
  by_cases hexported : e.isExported = true
  · exact .inl fun hkeeps => exists_typeExport (.inr hkeeps) he hexported
  · obtain rfl := Export.eq_none_of_not_isExported hexported
    exact .inr ⟨rfl, typeNotExported_mem hfree (typeRef?_of_typeExport? he).1⟩

/-- What the records of a file ask to be imported is exported by the file, or reported. The owner of
a method is exported as a value under the name that the backend imports, unless it is reported not
to be exported; and a type that a signature mentions and that the file declares is asked for from
the file itself, and is exported under the name that is imported, unless it is reported. Both hold
of names that no export list changes. -/
theorem imports_resolve {f : SourceFile} {marking : Marking} {m : Method}
    (hm : m ∈ (f.extract marking).methods) :
    (m.exported = .none → m.notExported ∈ (f.extract marking).diagnostics) ∧
    (m.exported ≠ .none → f.KeepsValue m.binding → ∃ x ∈ f.exports, x.binding = m.binding ∧
      x.exported = Generated.Backend.importedName m ∧ x.typeOnly = false) ∧
    ∀ r ∈ m.typeRefs, f.DeclaresType r.name → r.module = .file m.file ∧
      (m.typeNotExported r.name ∈ (f.extract marking).diagnostics ∨
        (f.KeepsName r.name → ∃ x ∈ f.exports, x.binding = r.name ∧ x.exported = r.imported)) := by
  obtain ⟨statement, hs, declaration, declared, c, namespaceName, shape, hdeclaration, hread, -, -,
    rfl, hreported⟩ := SourceFile.exists_candidate hm
  refine ⟨fun hnone => ?_, fun hsome hkeeps => ?_, fun r hr htype => ?_⟩
  · refine hreported (List.mem_append_right _ ?_)
    change c.exported f (Scope.ofFile f) = .none at hnone
    unfold Candidate.exportWarnings
    rw [hnone, Method.notExported, Candidate.toMethod_qualifier]
    exact List.mem_singleton_self _
  · have hexported : (c.exported f (Scope.ofFile f)).isExported = true := by
      change c.exported f (Scope.ofFile f) ≠ .none at hsome
      cases h : c.exported f (Scope.ofFile f) with
      | none => exact absurd h hsome
      | named => rfl
      | default => rfl
    obtain ⟨x, hx, hname, houtside, hvalue⟩ :=
      hread.exists_export hdeclaration hs hkeeps hexported
    refine ⟨x, hx, hname, ?_, hvalue⟩
    rw [importedName_eq, Candidate.toMethod_binding]
    exact houtside
  · obtain ⟨n, hn, href⟩ := List.mem_filterMap.mp hr
    have hname := Candidate.typeRef?_name href
    rw [hname] at htype ⊢
    obtain ⟨e, he⟩ := exists_typeExport? htype
    rw [(typeRef?_of_typeExport? he).2] at href
    obtain rfl := Option.some.inj href
    refine ⟨rfl, ?_⟩
    rcases exists_typeExport_or_warned hn he with hexport | ⟨-, hwarned⟩
    · exact .inr hexport
    · exact .inl (hreported (List.mem_append_left _ hwarned))

/-- A file whose export list keeps the name of a function and makes a type its default. -/
def plainFile : SourceFile :=
  let source : Syntax.Source := ⟨("/** @expose */\nfunction get(): User \x7b\x7d\n" ++
    "interface User \x7b\x7d\nexport \x7b get, User as default \x7d;\n").toUTF8⟩
  ⟨⟨"/app/src/a.ts"⟩, source, Syntax.Dialect.plain.parse source⟩

theorem plain_imports_resolve :
    ∃ m ∈ (plainFile.extract {}).methods, m.exported ≠ .none ∧ plainFile.KeepsValue m.binding ∧
      (∃ x ∈ plainFile.exports, x.binding = m.binding ∧
        x.exported = Generated.Backend.importedName m ∧ x.typeOnly = false) ∧
      ∃ r ∈ m.typeRefs, plainFile.DeclaresType r.name ∧ plainFile.KeepsName r.name ∧
        r.module = .file m.file := by
  have hfile : ∃ m ∈ (plainFile.extract {}).methods, m.exported ≠ .none ∧
      plainFile.KeepsValue m.binding ∧
      ∃ r ∈ m.typeRefs, plainFile.DeclaresType r.name ∧ plainFile.KeepsName r.name := by
    decide +kernel
  obtain ⟨m, hm, hexported, hkeeps, r, hr, htype, hname⟩ := hfile
  obtain ⟨-, howner, htypes⟩ := imports_resolve hm
  exact ⟨m, hm, hexported, hkeeps, howner hexported hkeeps, r, hr, htype, hname,
    (htypes r hr htype).1⟩

/-- A file that exports a function and its type under other names. -/
def renamingFile : SourceFile :=
  let source : Syntax.Source := ⟨("/** @expose */\nfunction get(): User \x7b\x7d\n" ++
    "interface User \x7b\x7d\nexport \x7b get as fetch, User as Account \x7d;\n").toUTF8⟩
  ⟨⟨"/app/src/a.ts"⟩, source, Syntax.Dialect.plain.parse source⟩

/-- The names that such a file exports are not the ones that its records ask for, and nothing is
reported. -/
theorem renamed_exports_unresolved :
    renamingFile.faultLine? = none ∧ (renamingFile.extract {}).diagnostics = [] ∧
    ∃ m ∈ (renamingFile.extract {}).methods, m.exported = .named ∧
      (∀ x ∈ renamingFile.exports, x.exported ≠ Generated.Backend.importedName m) ∧
      ∃ r ∈ m.typeRefs, renamingFile.DeclaresType r.name ∧
        ∀ x ∈ renamingFile.exports, x.exported ≠ r.imported := by
  decide +kernel

end CallBridge
