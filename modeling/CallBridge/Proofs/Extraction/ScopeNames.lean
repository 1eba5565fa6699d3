import CallBridge.Proofs.Extraction.Exports
import Mathlib.Data.List.DropRight
import Mathlib.Data.List.Nodup

/-! # Names of a scope

What a scope says of a name is read off the statements of its file: the type declarations at the top,
with or without an export in front, the names that are given away by a statement of their own, and
the items of the import clauses. Nothing depends on where an entry stands, as long as imports bind
different names.

The text of an import source is stripped of all quotes at its ends. That is the text between the
quotes unless the latter begins or ends with a quote itself.
-/
namespace CallBridge

open Syntax (Tree)

namespace Scope

section Entries
variable {α : Type} {entries : List (String × α)} {name : String} {a : α}

theorem last?_eq_none_iff : last? entries name = none ↔ ∀ a, (name, a) ∉ entries := by
  constructor
  · intro h a ha
    obtain ⟨b, hb⟩ := exists_last? ha
    rw [h] at hb
    cases hb
  · intro h
    exact Option.eq_none_iff_forall_not_mem.mpr fun a ha => h a (last?_eq_some ha)

theorem last?_eq_some_iff (hnodup : (entries.map Prod.fst).Nodup) :
    last? entries name = some a ↔ (name, a) ∈ entries := by
  refine ⟨last?_eq_some, fun ha => ?_⟩
  obtain ⟨b, hb⟩ := exists_last? ha
  have hsame := List.inj_on_of_nodup_map hnodup ha (last?_eq_some hb) rfl
  rw [hb, (Prod.mk.inj hsame).2]

end Entries

section Answers
variable {s : Scope} {name : String} {declared e : Export} {i : Import}

theorem typeExport?_eq_none_iff : s.typeExport? name = none ↔ ∀ e, (name, e) ∉ s.types := by
  have hany : s.types.any (·.1 == name) = true ↔ ∃ e, (name, e) ∈ s.types := by
    simp [List.any_eq_true]
  unfold typeExport?
  split_ifs with h
  · obtain ⟨e, he⟩ := hany.mp h
    exact ⟨nofun, fun hnone => absurd he (hnone e)⟩
  · exact ⟨fun _ e he => h (hany.mpr ⟨e, he⟩), fun _ => rfl⟩

theorem resolve_eq_declared_iff : s.resolve name = .declared e ↔ s.typeExport? name = some e := by
  unfold resolve
  cases s.typeExport? name with
  | some found => simp
  | none => cases last? s.imports name <;> simp

theorem exists_declared_iff : (∃ e, s.resolve name = .declared e) ↔ ∃ e, (name, e) ∈ s.types := by
  simp only [resolve_eq_declared_iff, ← Option.isSome_iff_exists, ← Option.ne_none_iff_isSome, Ne,
    typeExport?_eq_none_iff, not_forall, not_not]

theorem resolve_eq_imported_iff (hnodup : (s.imports.map Prod.fst).Nodup) :
    s.resolve name = .imported i ↔ (∀ e, (name, e) ∉ s.types) ∧ (name, i) ∈ s.imports := by
  rw [← typeExport?_eq_none_iff, ← last?_eq_some_iff hnodup, resolve]
  cases s.typeExport? name with
  | some found => simp
  | none => cases last? s.imports name <;> simp

theorem resolve_eq_global_iff :
    s.resolve name = .global ↔ (∀ e, (name, e) ∉ s.types) ∧ ∀ i, (name, i) ∉ s.imports := by
  rw [← typeExport?_eq_none_iff, ← last?_eq_none_iff, resolve]
  cases s.typeExport? name with
  | some found => simp
  | none => cases last? s.imports name <;> simp

variable (hlisted : ∀ entry ∈ s.exports, entry.2.isExported = true)
include hlisted

theorem isExported_exportOf_iff : (s.exportOf name declared).isExported = true ↔
    declared.isExported = true ∨ ∃ e, (name, e) ∈ s.exports := by
  unfold exportOf exportApart
  split_ifs with hdeclared
  · simp [hdeclared]
  · cases hlast : last? s.exports name with
    | none =>
      have hnone := last?_eq_none_iff.mp hlast
      exact ⟨nofun, fun h => h.elim (fun h => absurd h hdeclared) fun ⟨e, he⟩ => absurd he (hnone e)⟩
    | some found =>
      have hmem := last?_eq_some hlast
      exact ⟨fun _ => .inr ⟨found, hmem⟩, fun _ => hlisted _ hmem⟩

/-- A declared type is exported by one of its declarations, or apart from them. -/
theorem isExported_iff_of_resolve (h : s.resolve name = .declared e) : e.isExported = true ↔
    (∃ given, (name, given) ∈ s.types ∧ given.isExported = true) ∨ ∃ e, (name, e) ∈ s.exports := by
  have hexport := resolve_eq_declared_iff.mp h
  unfold typeExport? at hexport
  split_ifs at hexport
  obtain rfl := Option.some.inj hexport
  rw [isExported_exportOf_iff hlisted]
  refine or_congr_left ?_
  cases hlast : last? (s.types.filter (·.2.isExported)) name with
  | none =>
    have hnone := last?_eq_none_iff.mp hlast
    simp only [List.mem_filter, not_and] at hnone
    simp only [Option.getD_none, Export.isExported, Bool.false_eq_true, false_iff, not_exists,
      not_and]
    exact hnone
  | some given =>
    obtain ⟨hmem, hgiven⟩ := List.mem_filter.mp (last?_eq_some hlast)
    exact ⟨fun _ => ⟨given, hmem, hgiven⟩, fun _ => hgiven⟩

end Answers

/-- The text between the first and the last character. -/
def quotedContent (s : String) : String :=
  String.ofList s.toList.tail.dropLast

/-- The text stands between quotes, and neither begins nor ends with a quote there. -/
def isPlainSource (s : String) : Bool :=
  s.toList.head?.any isQuote && s.toList.tail.getLast?.any isQuote &&
    s.toList.tail.dropLast.head?.all (!isQuote ·) && s.toList.tail.dropLast.getLast?.all (!isQuote ·)

section Quotes
variable {q q' : Char} (hq : isQuote q = true) (hq' : isQuote q' = true) (content : List Char)
include hq hq'

theorem unquoted_between : unquoted (String.ofList (q :: (content ++ [q']))) =
    String.ofList ((content.dropWhile isQuote).rdropWhile isQuote) := by
  have hback : ((content ++ [q']).dropWhile isQuote).rdropWhile isQuote =
      (content.dropWhile isQuote).rdropWhile isQuote := by
    rw [List.dropWhile_append]
    split_ifs with h
    · rw [List.dropWhile_cons_of_pos hq', List.dropWhile_nil, List.isEmpty_iff.mp h]
    · exact List.rdropWhile_concat_pos _ _ _ hq'
  rw [unquoted, String.toList_ofList, List.dropWhile_cons_of_pos hq, ← hback]
  rfl

/-- Of a text between quotes only the quotes are stripped, unless it begins or ends with others. -/
theorem unquoted_between_eq_iff : unquoted (String.ofList (q :: (content ++ [q']))) =
    String.ofList content ↔
      content.head?.all (!isQuote ·) = true ∧ content.getLast?.all (!isQuote ·) = true := by
  have hfirst : content.dropWhile isQuote = content ↔ content.head?.all (!isQuote ·) = true := by
    cases content with
    | nil => simp
    | cons c cs => simp [List.dropWhile_eq_self_iff]
  have hlast : content.rdropWhile isQuote = content ↔
      content.getLast?.all (!isQuote ·) = true := by
    rcases List.eq_nil_or_concat' content with rfl | ⟨cs, c, rfl⟩
    · simp
    · simp [List.rdropWhile_eq_self_iff]
  rw [unquoted_between hq hq', String.ofList_inj, ← hfirst, ← hlast]
  constructor
  · intro h
    have hlength : content.length ≤ (content.dropWhile isQuote).length := by
      conv_lhs => rw [← h]
      exact (List.rdropWhile_prefix _ _).length_le
    have hfront := (List.dropWhile_suffix isQuote).eq_of_length_le hlength
    rw [hfront] at h
    exact ⟨hfront, h⟩
  · rintro ⟨hfront, hback⟩
    rw [hfront, hback]

end Quotes

theorem unquoted_eq_quotedContent {s : String} (h : isPlainSource s = true) :
    unquoted s = quotedContent s := by
  simp only [isPlainSource, Bool.and_eq_true] at h
  obtain ⟨⟨⟨hq, hq'⟩, hfirst⟩, hlast⟩ := h
  unfold quotedContent
  cases hs : s.toList with
  | nil =>
    rw [hs] at hq
    cases hq
  | cons q rest =>
    rw [hs] at hq hq' hfirst hlast
    rcases List.eq_nil_or_concat' rest with rfl | ⟨content, q', rfl⟩
    · cases hq'
    · have htext : s = String.ofList (q :: (content ++ [q'])) := by
        rw [← hs, String.ofList_toList]
      simp only [List.head?_cons, Option.any_some, List.tail_cons, List.getLast?_concat,
        List.dropLast_concat] at hq hq' hfirst hlast ⊢
      rw [htext]
      exact (unquoted_between_eq_iff hq hq' content).mpr ⟨hfirst, hlast⟩

def importedAs (name : String) : ImportedName :=
  if name == "default" then .default else .named name

/-- An import clause binds a name to an export of its module. A name for a whole module is bound to
no export. -/
inductive Binds (f : SourceFile) (clause : Tree) : String → ImportedName → Prop where
  | default {part : Tree} (mem : part ∈ clause.nodes) (bare : part.is .identifier = true) :
    Binds f clause (f.text part) .default
  | named {part item n : Tree} (mem : part ∈ clause.nodes) (list : part.is .namedImports = true)
    (item_mem : item ∈ part.nodes) (specifier : item.is .importSpecifier = true)
    (given : item.child? .name = some n) (plain : item.child? .alias = none) :
    Binds f clause (f.text n) (importedAs (f.text n))
  | renamed {part item n a : Tree} (mem : part ∈ clause.nodes)
    (list : part.is .namedImports = true) (item_mem : item ∈ part.nodes)
    (specifier : item.is .importSpecifier = true) (given : item.child? .name = some n)
    (other : item.child? .alias = some a) : Binds f clause (f.text a) (importedAs (f.text n))

def clauseImports (f : SourceFile) (module : ModuleRef) (clause : Tree) : List (String × Import) :=
  clause.nodes.flatMap fun part =>
    if part.is .identifier then [(f.text part, ⟨.default, module⟩)]
    else if part.is .namedImports then
      (part.nodes.filter (·.is .importSpecifier)).filterMap (specifierImport? f module)
    else []

/-- The names that an import statement binds if the text of its source is read in some way. -/
def importsReading (read : String → String) (f : SourceFile) (statement : Tree) :
    List (String × Import) :=
  let specifier := ((statement.child? .source).map fun t => read (f.text t)).getD ""
  match statement.nodes.find? (·.is .importClause) with
  | some clause =>
    if specifier.isEmpty then []
    else clauseImports f (ModuleRef.ofSpecifier f.directory specifier) clause
  | none => []

theorem importsOf_eq (f : SourceFile) (statement : Tree) :
    importsOf f statement = importsReading unquoted f statement :=
  rfl

section Clauses
variable {f : SourceFile} {clause statement : Tree} {name : String} {i : Import}
  {read : String → String}

theorem specifierImport?_eq_some_iff {item : Tree} {module : ModuleRef} :
    specifierImport? f module item = some (name, i) ↔ ∃ n, item.child? .name = some n ∧
      name = ((item.child? .alias).map f.text).getD (f.text n) ∧
      i.imported = importedAs (f.text n) ∧ i.module = module := by
  obtain ⟨imported, target⟩ := i
  rw [specifierImport?, Option.map_eq_some_iff]
  refine exists_congr fun n => and_congr_right fun _ => ?_
  rw [Prod.mk.injEq, Import.mk.injEq, eq_comm, @eq_comm _ imported, @eq_comm _ target]
  rfl

theorem binds_iff {imported : ImportedName} : Binds f clause name imported ↔
    ∃ part ∈ clause.nodes, (part.is .identifier = true ∧ name = f.text part ∧ imported = .default) ∨
      (part.is .namedImports = true ∧ ∃ item ∈ part.nodes, item.is .importSpecifier = true ∧
        ∃ n, item.child? .name = some n ∧
          name = ((item.child? .alias).map f.text).getD (f.text n) ∧
          imported = importedAs (f.text n)) := by
  constructor
  · rintro (⟨mem, bare⟩ | ⟨mem, list, item_mem, specifier, given, plain⟩ |
      ⟨mem, list, item_mem, specifier, given, other⟩)
    · exact ⟨_, mem, .inl ⟨bare, rfl, rfl⟩⟩
    · exact ⟨_, mem, .inr ⟨list, _, item_mem, specifier, _, given, by simp [plain], rfl⟩⟩
    · exact ⟨_, mem, .inr ⟨list, _, item_mem, specifier, _, given, by simp [other], rfl⟩⟩
  · rintro ⟨part, hpart, ⟨hbare, rfl, rfl⟩ | ⟨hlist, item, hitem, hspecifier, n, hn, rfl, rfl⟩⟩
    · exact .default hpart hbare
    · cases halias : item.child? .alias with
      | none =>
        rw [Option.map_none, Option.getD_none]
        exact .named hpart hlist hitem hspecifier hn halias
      | some a =>
        rw [Option.map_some, Option.getD_some]
        exact .renamed hpart hlist hitem hspecifier hn halias

theorem mem_clauseImports_iff {module : ModuleRef} : (name, i) ∈ clauseImports f module clause ↔
    Binds f clause name i.imported ∧ i.module = module := by
  rw [binds_iff]
  constructor
  · intro h
    obtain ⟨part, hpart, h⟩ := List.mem_flatMap.mp h
    split_ifs at h with hbare hlist
    · obtain ⟨rfl, rfl⟩ := Prod.mk.inj (List.mem_singleton.mp h)
      exact ⟨⟨part, hpart, .inl ⟨hbare, rfl, rfl⟩⟩, rfl⟩
    · obtain ⟨item, hitem, hsome⟩ := List.mem_filterMap.mp h
      obtain ⟨hitem, hspecifier⟩ := List.mem_filter.mp hitem
      obtain ⟨n, hn, hname, himported, hmodule⟩ := specifierImport?_eq_some_iff.mp hsome
      exact ⟨⟨part, hpart, .inr ⟨hlist, item, hitem, hspecifier, n, hn, hname, himported⟩⟩, hmodule⟩
    · cases h
  · rintro ⟨⟨part, hpart, h⟩, hmodule⟩
    refine List.mem_flatMap.mpr ⟨part, hpart, ?_⟩
    rcases h with ⟨hbare, hname, himported⟩ |
      ⟨hlist, item, hitem, hspecifier, n, hn, hname, himported⟩
    · rw [if_pos hbare, List.mem_singleton, hname, ← himported, ← hmodule]
    · have hbare : ¬ part.is .identifier = true := by simp [Tree.is_of_is hlist]
      rw [if_neg hbare, if_pos hlist]
      exact List.mem_filterMap.mpr ⟨item, List.mem_filter.mpr ⟨hitem, hspecifier⟩,
        specifierImport?_eq_some_iff.mpr ⟨n, hn, hname, himported, hmodule⟩⟩

theorem mem_importsReading_iff : (name, i) ∈ importsReading read f statement ↔
    ∃ source clause, statement.child? .source = some source ∧ read (f.text source) ≠ "" ∧
      statement.nodes.find? (·.is .importClause) = some clause ∧ Binds f clause name i.imported ∧
      i.module = ModuleRef.ofSpecifier f.directory (read (f.text source)) := by
  unfold importsReading
  cases statement.nodes.find? (·.is .importClause) with
  | none => simp
  | some clause =>
    cases statement.child? .source with
    | none => simp
    | some source =>
      simp only [Option.map_some, Option.getD_some, String.isEmpty_iff]
      split_ifs with hempty
      · simp [hempty]
      · simp [hempty, mem_clauseImports_iff]

end Clauses

end Scope

namespace SourceFile

section Statements
variable (f : SourceFile)

def DeclaresNamed (declaration : Tree) (name : String) : Prop :=
  Scope.declaresType declaration = true ∧ ∃ n, declaration.child? .name = some n ∧ f.text n = name

def DeclaresBare (name : String) : Prop :=
  ∃ statement ∈ f.tree.nodes, f.DeclaresNamed statement name

def DeclaresExported (name : String) : Prop :=
  ∃ statement ∈ f.tree.nodes, statement.is .exportStatement = true ∧
    ∃ d, statement.child? .declaration = some d ∧ f.DeclaresNamed d name

/-- An export statement at the top makes the name the default, or has it in a list that is not one of
another module. -/
def ExportsApart (name : String) : Prop :=
  ∃ statement ∈ f.tree.nodes, statement.is .exportStatement = true ∧
    statement.child? .declaration = none ∧
    ((∃ value, statement.child? .value = some value ∧ value.is .identifier = true ∧
        f.text value = name) ∨
      statement.child? .value = none ∧ statement.child? .source = none ∧
        ∃ item ∈ listItems statement, ∃ n, item.child? .name = some n ∧ f.text n = name)

/-- A clause of an import statement binds the name. The text of a source is read in some way, and a
source that is read as nothing does not count. -/
def ImportsFrom (read : String → String) (name : String) (i : Import) : Prop :=
  ∃ statement ∈ f.tree.preorder, statement.is .importStatement = true ∧
    ∃ source clause, statement.child? .source = some source ∧ read (f.text source) ≠ "" ∧
      statement.nodes.find? (·.is .importClause) = some clause ∧
      Scope.Binds f clause name i.imported ∧
      i.module = ModuleRef.ofSpecifier f.directory (read (f.text source))

/-- The texts of all import sources can be read as what stands between their quotes. -/
def PlainSources : Prop :=
  ∀ statement ∈ f.tree.preorder, statement.is .importStatement = true →
    ∀ source ∈ statement.child? .source, Scope.isPlainSource (f.text source) = true

instance : Decidable f.PlainSources :=
  inferInstanceAs (Decidable (∀ statement ∈ f.tree.preorder, _ →
    ∀ source ∈ statement.child? .source, _))

end Statements

variable {f : SourceFile} {name : String} {e : Export} {i : Import}

theorem declaredType?_eq_some_iff {statement : Tree} :
    Scope.declaredType? f statement = some (name, e) ↔
      (statement.is .exportStatement = true ∧ e = Scope.statementExport statement ∧
        ∃ d, statement.child? .declaration = some d ∧ f.DeclaresNamed d name) ∨
      f.DeclaresNamed statement name ∧ e = .none := by
  constructor
  · intro h
    obtain ⟨d, n, hd, hkind, hn, htext⟩ := declaredType?_eq_some h
    rcases declarationOf?_eq_some hd with ⟨hexport, hdeclaration, rfl⟩ | ⟨-, rfl, rfl⟩
    · exact .inl ⟨hexport, rfl, d, hdeclaration, hkind, n, hn, htext⟩
    · exact .inr ⟨⟨hkind, n, hn, htext⟩, rfl⟩
  · rintro (⟨hexport, rfl, d, hd, hkind, n, hn, rfl⟩ | ⟨⟨hkind, n, hn, rfl⟩, rfl⟩)
    · simp [Scope.declaredType?, hexport, hd, hkind, hn]
    · have hexport : statement.is .exportStatement = false := by
        simp only [Scope.declaresType, Bool.or_eq_true] at hkind
        rcases hkind with (((h | h) | h) | h) | h <;> simp [Tree.is_of_is h]
      simp [Scope.declaredType?, hexport, hkind, hn]

theorem isExported_statementExport (statement : Tree) :
    (Scope.statementExport statement).isExported = true := by
  unfold Scope.statementExport
  split_ifs <;> rfl

theorem exists_mem_types_iff :
    (∃ e, (name, e) ∈ (Scope.ofFile f).types) ↔ f.DeclaresBare name ∨ f.DeclaresExported name := by
  simp only [Scope.ofFile, List.mem_filterMap, declaredType?_eq_some_iff]
  constructor
  · rintro ⟨e, statement, hs, ⟨hexport, -, hdeclares⟩ | ⟨hdeclares, -⟩⟩
    · exact .inr ⟨statement, hs, hexport, hdeclares⟩
    · exact .inl ⟨statement, hs, hdeclares⟩
  · rintro (⟨statement, hs, hdeclares⟩ | ⟨statement, hs, hexport, hdeclares⟩)
    · exact ⟨_, statement, hs, .inr ⟨hdeclares, rfl⟩⟩
    · exact ⟨_, statement, hs, .inl ⟨hexport, rfl, hdeclares⟩⟩

theorem exists_mem_types_isExported_iff :
    (∃ e, (name, e) ∈ (Scope.ofFile f).types ∧ e.isExported = true) ↔ f.DeclaresExported name := by
  simp only [Scope.ofFile, List.mem_filterMap, declaredType?_eq_some_iff]
  constructor
  · rintro ⟨e, ⟨statement, hs, ⟨hexport, -, hdeclares⟩ | ⟨-, rfl⟩⟩, hexported⟩
    · exact ⟨statement, hs, hexport, hdeclares⟩
    · cases hexported
  · rintro ⟨statement, hs, hexport, hdeclares⟩
    exact ⟨_, ⟨statement, hs, .inl ⟨hexport, rfl, hdeclares⟩⟩, isExported_statementExport statement⟩

theorem isExported_of_mem_exports {entry : String × Export}
    (h : entry ∈ (Scope.ofFile f).exports) : entry.2.isExported = true := by
  obtain ⟨statement, -, hlisted⟩ := List.mem_flatMap.mp h
  obtain ⟨name, e⟩ := entry
  obtain ⟨-, -, ⟨value, -, -, -, rfl⟩ | ⟨-, -, item, -, n, -, -, rfl⟩⟩ := mem_listedExports hlisted
  · rfl
  · split_ifs <;> rfl

theorem exists_mem_exports_iff :
    (∃ e, (name, e) ∈ (Scope.ofFile f).exports) ↔ f.ExportsApart name := by
  constructor
  · rintro ⟨e, he⟩
    obtain ⟨statement, hs, hlisted⟩ := List.mem_flatMap.mp he
    obtain ⟨hexport, hdeclaration, ⟨value, hvalue, hbare, htext, -⟩ |
      ⟨hvalue, hsource, item, hitem, n, hn, htext, -⟩⟩ := mem_listedExports hlisted
    · exact ⟨statement, hs, hexport, hdeclaration, .inl ⟨value, hvalue, hbare, htext⟩⟩
    · exact ⟨statement, hs, hexport, hdeclaration,
        .inr ⟨hvalue, hsource, item, hitem, n, hn, htext⟩⟩
  · rintro ⟨statement, hs, hexport, hdeclaration, ⟨value, hvalue, hbare, rfl⟩ |
      ⟨hvalue, hsource, item, hitem, n, hn, rfl⟩⟩
    · refine ⟨.default, List.mem_flatMap.mpr ⟨statement, hs, ?_⟩⟩
      simp [Scope.listedExports, hexport, hdeclaration, hvalue, hbare]
    · refine ⟨if (item.child? .alias).any fun a => f.text a == "default" then .default else .named,
        List.mem_flatMap.mpr ⟨statement, hs, ?_⟩⟩
      simp only [Scope.listedExports, hexport, hdeclaration, hvalue, hsource, Bool.not_true,
        Option.isSome_none, Bool.or_self, Bool.false_eq_true, if_false]
      refine List.mem_filterMap.mpr ⟨item, hitem, ?_⟩
      rw [hn, Option.map_some]

theorem importsFrom_iff {read : String → String} : f.ImportsFrom read name i ↔
    (name, i) ∈ (f.tree.preorder.filter (·.is .importStatement)).flatMap
      (Scope.importsReading read f) := by
  simp only [List.mem_flatMap, List.mem_filter, Scope.mem_importsReading_iff, and_assoc, ImportsFrom]

instance {read : String → String} : Decidable (f.ImportsFrom read name i) :=
  decidable_of_iff _ importsFrom_iff.symm

theorem mem_imports_iff :
    (name, i) ∈ (Scope.ofFile f).imports ↔ f.ImportsFrom Scope.unquoted name i :=
  importsFrom_iff.symm

theorem importsFrom_quotedContent_iff (h : f.PlainSources) :
    f.ImportsFrom Scope.quotedContent name i ↔ f.ImportsFrom Scope.unquoted name i := by
  refine exists_congr fun statement => and_congr_right fun hs => and_congr_right fun himport => ?_
  refine exists_congr fun source => exists_congr fun clause => and_congr_right fun hsource => ?_
  rw [Scope.unquoted_eq_quotedContent (h statement hs himport source hsource)]

end SourceFile

namespace Scope

/-- The scope of a file says of each name what the statements of the file say of it, the sources of
imports read in some way. -/
structure Answers (f : SourceFile) (read : String → String) : Prop where
  declared_iff : ∀ name, (∃ e, (ofFile f).resolve name = .declared e) ↔
    f.DeclaresBare name ∨ f.DeclaresExported name
  exported_iff : ∀ name e, (ofFile f).resolve name = .declared e →
    (e.isExported = true ↔ f.DeclaresExported name ∨ f.ExportsApart name)
  imported_iff : ∀ name i, (ofFile f).resolve name = .imported i ↔
    ¬ (f.DeclaresBare name ∨ f.DeclaresExported name) ∧ f.ImportsFrom read name i
  global_iff : ∀ name, (ofFile f).resolve name = .global ↔
    ¬ (f.DeclaresBare name ∨ f.DeclaresExported name) ∧ ∀ i, ¬ f.ImportsFrom read name i
  exportOf_iff : ∀ name declared, ((ofFile f).exportOf name declared).isExported = true ↔
    declared.isExported = true ∨ f.ExportsApart name

theorem answers_unquoted {f : SourceFile} (hnodup : ((ofFile f).imports.map Prod.fst).Nodup) :
    Answers f unquoted where
  declared_iff name := exists_declared_iff.trans SourceFile.exists_mem_types_iff
  exported_iff name e h := by
    rw [isExported_iff_of_resolve (fun _ => SourceFile.isExported_of_mem_exports) h,
      SourceFile.exists_mem_types_isExported_iff, SourceFile.exists_mem_exports_iff]
  imported_iff name i := by
    rw [resolve_eq_imported_iff hnodup, SourceFile.mem_imports_iff, ← not_exists,
      SourceFile.exists_mem_types_iff]
  global_iff name := by
    simp only [resolve_eq_global_iff, ← SourceFile.mem_imports_iff, ← not_exists,
      SourceFile.exists_mem_types_iff]
  exportOf_iff name declared := by
    rw [isExported_exportOf_iff (fun _ => SourceFile.isExported_of_mem_exports),
      SourceFile.exists_mem_exports_iff]

/-- Quotes at the ends of the text between the quotes of a source are stripped as well. Any other
source is read as it is written. -/
theorem answers_quotedContent {f : SourceFile} (hnodup : ((ofFile f).imports.map Prod.fst).Nodup)
    (hplain : f.PlainSources) : Answers f quotedContent where
  declared_iff := (answers_unquoted hnodup).declared_iff
  exported_iff := (answers_unquoted hnodup).exported_iff
  imported_iff name i := by
    rw [SourceFile.importsFrom_quotedContent_iff hplain]
    exact (answers_unquoted hnodup).imported_iff name i
  global_iff name := by
    simp only [SourceFile.importsFrom_quotedContent_iff hplain]
    exact (answers_unquoted hnodup).global_iff name
  exportOf_iff := (answers_unquoted hnodup).exportOf_iff

end Scope

end CallBridge
