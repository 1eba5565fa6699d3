import CallBridge.Proofs.Extraction.CommentedSignatures
import CallBridge.Proofs.Extraction.ScopeNames
import Mathlib.Data.List.Rotate

/-! # Order of the statements of a file

A scope that has the same entries in another order says the same of every name, up to the kind of an
export. Statements that read alike give the same entries, so the order of the statements at the top
of a file does not matter, wherever declarations, export lists and imports of a name stand.
-/
namespace CallBridge

open Syntax (Tree)
open Syntax.Tree (Commented)

/-- Names come from the same place, and if they are declared both are exported or none is. -/
inductive Origin.Same : Origin → Origin → Prop where
  | declared {e e' : Export} (exported : e.isExported = e'.isExported) :
    Same (.declared e) (.declared e')
  | imported {i : Import} : Same (.imported i) (.imported i)
  | global : Same .global .global

namespace Scope

structure Shuffled (s s' : Scope) : Prop where
  types : s.types.Perm s'.types
  exports : s.exports.Perm s'.exports
  imports : s.imports.Perm s'.imports

section Shuffled
variable {s s' : Scope} (h : s.Shuffled s')
  (hlisted : ∀ entry ∈ s.exports, entry.2.isExported = true)
include h hlisted

theorem Shuffled.listed : ∀ entry ∈ s'.exports, entry.2.isExported = true :=
  fun entry hentry => hlisted entry (h.exports.mem_iff.mpr hentry)

theorem Shuffled.isExported_exportOf (name : String) (declared : Export) :
    (s.exportOf name declared).isExported = (s'.exportOf name declared).isExported := by
  rw [Bool.eq_iff_iff, isExported_exportOf_iff hlisted, isExported_exportOf_iff (h.listed hlisted)]
  simp only [h.exports.mem_iff]

theorem Shuffled.same_resolve (hnodup : (s.imports.map Prod.fst).Nodup) (name : String) :
    (s.resolve name).Same (s'.resolve name) := by
  have hnodup' : (s'.imports.map Prod.fst).Nodup := (h.imports.map Prod.fst).nodup_iff.mp hnodup
  cases horigin : s.resolve name with
  | declared e =>
    obtain ⟨given, hgiven⟩ := exists_declared_iff.mp ⟨e, horigin⟩
    obtain ⟨e', horigin'⟩ := exists_declared_iff.mpr ⟨given, h.types.mem_iff.mp hgiven⟩
    rw [horigin']
    refine .declared ?_
    rw [Bool.eq_iff_iff, isExported_iff_of_resolve hlisted horigin,
      isExported_iff_of_resolve (h.listed hlisted) horigin']
    simp only [h.types.mem_iff, h.exports.mem_iff]
  | imported i =>
    simp only [resolve_eq_imported_iff hnodup, h.types.mem_iff, h.imports.mem_iff] at horigin
    rw [(resolve_eq_imported_iff hnodup').mpr horigin]
    exact .imported
  | global =>
    simp only [resolve_eq_global_iff, h.types.mem_iff, h.imports.mem_iff] at horigin
    rw [resolve_eq_global_iff.mpr horigin]
    exact .global

end Shuffled

end Scope

section Alike
variable {f f' : SourceFile} {t t' : Tree} {ts ts' : List Tree}

theorem Alike.nodes (h : Alike f f' t t') : List.Forall₂ (Alike f f') t.nodes t'.nodes :=
  Tree.nodes_of_alike h

theorem filter_is_alike (h : List.Forall₂ (Alike f f') ts ts') (k : Syntax.Kind) :
    List.Forall₂ (Alike f f') (ts.filter (·.is k)) (ts'.filter (·.is k)) := by
  refine List.rel_filter (fun t t' ht => ?_) h
  exact Bool.eq_iff_iff.mp (ht.similar.is_eq k)

theorem find?_is_alike (h : List.Forall₂ (Alike f f') ts ts') (k : Syntax.Kind) :
    Option.Rel (Alike f f') (ts.find? (·.is k)) (ts'.find? (·.is k)) := by
  rw [← List.head?_filter, ← List.head?_filter]
  exact Tree.rel_head? (filter_is_alike h k)

theorem Alike.child? (h : Alike f f' t t') (r : Syntax.Field) :
    Option.Rel (Alike f f') (t.child? r) (t'.child? r) :=
  h.commented.child? (fun _ _ => Alike.similar) r

mutual

theorem preorder_alike : ∀ {t t' : Tree}, Alike f f' t t' →
    List.Forall₂ (Alike f f') t.preorder t'.preorder
  | .node k r s cs, t', h => by
    have hparts : List.Forall₂ (Alike f f') cs t'.children := Tree.parts_of_alike h
    rw [Tree.preorder_eq t']
    exact .cons h (preorderAll_alike hparts)
  | .token w s, t', h => by
    have hparts : List.Forall₂ (Alike f f') [] t'.children := Tree.parts_of_alike h
    rw [Tree.preorder_eq t', List.forall₂_nil_left_iff.mp hparts]
    exact .cons h .nil
  | .missing s, t', h => by
    have hparts : List.Forall₂ (Alike f f') [] t'.children := Tree.parts_of_alike h
    rw [Tree.preorder_eq t', List.forall₂_nil_left_iff.mp hparts]
    exact .cons h .nil

theorem preorderAll_alike : ∀ {ts ts' : List Tree}, List.Forall₂ (Alike f f') ts ts' →
    List.Forall₂ (Alike f f') (Tree.preorderAll ts) (Tree.preorderAll ts')
  | [], _, .nil => .nil
  | _ :: _, _, .cons h hs => List.rel_append (preorder_alike h) (preorderAll_alike hs)

end

end Alike

section Entries
variable {f f' : SourceFile} {t t' : Tree}

theorem declarationOf?_alike (h : Alike f f' t t') :
    Option.Rel (fun d d' => Alike f f' d.1 d'.1 ∧ d.2 = d'.2) (declarationOf? t)
      (declarationOf? t') := by
  have hexport : Scope.statementExport t = Scope.statementExport t' := by
    rw [Scope.statementExport, Scope.statementExport,
      h.commented.hasToken_eq (fun _ _ => Alike.similar)]
  unfold declarationOf?
  rw [h.similar.is_eq]
  split_ifs
  · have hdeclaration := h.child? .declaration
    generalize t.child? .declaration = o at hdeclaration
    generalize t'.child? .declaration = o' at hdeclaration
    cases hdeclaration with
    | none => exact .none
    | some hd => exact .some ⟨hd, hexport⟩
  · exact .some ⟨h, rfl⟩

theorem declaredType?_alike (h : Alike f f' t t') :
    Scope.declaredType? f t = Scope.declaredType? f' t' := by
  rw [declaredType?_eq, declaredType?_eq]
  refine bind_eq_of_rel (declarationOf?_alike h) fun d d' hd => ?_
  have htype : Scope.declaresType d.1 = Scope.declaresType d'.1 := by
    simp only [Scope.declaresType, hd.1.similar.is_eq]
  simp only [htype, hd.2]
  refine if_congr Iff.rfl (bind_eq_of_rel (hd.1.child? .name) fun n n' hn => ?_) rfl
  rw [hn.text_eq]

theorem listItems_alike (h : Alike f f' t t') :
    List.Forall₂ (Alike f f') (SourceFile.listItems t) (SourceFile.listItems t') :=
  filter_is_alike
    (List.rel_flatMap (filter_is_alike h.nodes .exportClause) fun _ _ hclause => hclause.nodes) _

def itemExport? (f : SourceFile) (item : Tree) : Option (String × Export) :=
  (item.child? .name).map fun name =>
    (f.text name,
      if (item.child? .alias).any fun a => f.text a == "default" then .default else .named)

theorem itemExport?_alike (h : Alike f f' t t') : itemExport? f t = itemExport? f' t' := by
  have halias : (t.child? .alias).any (fun a => f.text a == "default") =
      (t'.child? .alias).any fun a => f'.text a == "default" :=
    any_eq_of_rel (h.child? .alias) fun a a' ha => by rw [ha.text_eq]
  unfold itemExport?
  rw [halias]
  exact map_eq_of_rel (h.child? .name) fun n n' hn => by rw [hn.text_eq]

theorem listedExports_eq (f : SourceFile) (statement : Tree) : Scope.listedExports f statement =
    if !statement.is .exportStatement || (statement.child? .declaration).isSome then []
    else
      match statement.child? .value with
      | some value => if value.is .identifier then [(f.text value, .default)] else []
      | none =>
        if (statement.child? .source).isSome then []
        else (SourceFile.listItems statement).filterMap (itemExport? f) :=
  rfl

theorem listedExports_alike (h : Alike f f' t t') :
    Scope.listedExports f t = Scope.listedExports f' t' := by
  have hitems : (SourceFile.listItems t).filterMap (itemExport? f) =
      (SourceFile.listItems t').filterMap (itemExport? f') :=
    filterMap_eq_of_forall₂ ((listItems_alike h).imp fun _ _ => itemExport?_alike)
  have hvalue := h.child? .value
  rw [listedExports_eq, listedExports_eq, h.similar.is_eq, hitems,
    isSome_eq_of_rel (h.child? .declaration), isSome_eq_of_rel (h.child? .source)]
  generalize t.child? .value = o at hvalue
  generalize t'.child? .value = o' at hvalue
  cases hvalue with
  | none => rfl
  | some hv => simp only [hv.similar.is_eq, hv.text_eq]

theorem specifierImport?_alike (h : Alike f f' t t') (module : ModuleRef) :
    Scope.specifierImport? f module t = Scope.specifierImport? f' module t' := by
  unfold Scope.specifierImport?
  rw [h.child?_text .alias]
  exact map_eq_of_rel (h.child? .name) fun n n' hn => by rw [hn.text_eq]

theorem clauseImports_alike (h : Alike f f' t t') (module : ModuleRef) :
    Scope.clauseImports f module t = Scope.clauseImports f' module t' := by
  refine flatMap_eq_of_forall₂ (h.nodes.imp fun part part' hpart => ?_)
  have hitems :
      (part.nodes.filter (·.is .importSpecifier)).filterMap (Scope.specifierImport? f module) =
        (part'.nodes.filter (·.is .importSpecifier)).filterMap (Scope.specifierImport? f' module) :=
    filterMap_eq_of_forall₂ ((filter_is_alike hpart.nodes _).imp fun _ _ hitem =>
      specifierImport?_alike hitem module)
  rw [hpart.similar.is_eq, hpart.similar.is_eq, hpart.text_eq, hitems]

theorem importsOf_alike (h : Alike f f' t t') (hpath : f.path = f'.path) :
    Scope.importsOf f t = Scope.importsOf f' t' := by
  have hclause := find?_is_alike h.nodes .importClause
  have hsource : (t.child? .source).map (fun s => Scope.unquoted (f.text s)) =
      (t'.child? .source).map fun s => Scope.unquoted (f'.text s) := by
    simpa [Function.comp_def] using congrArg (Option.map Scope.unquoted) (h.child?_text .source)
  have hdirectory : f.directory = f'.directory := by rw [SourceFile.directory, hpath]; rfl
  rw [Scope.importsOf_eq, Scope.importsOf_eq]
  unfold Scope.importsReading
  rw [hsource, hdirectory]
  generalize t.nodes.find? (·.is .importClause) = o at hclause
  generalize t'.nodes.find? (·.is .importClause) = o' at hclause
  cases hclause with
  | none => rfl
  | some hclause => exact if_congr Iff.rfl rfl (clauseImports_alike hclause _)

end Entries

namespace SourceFile

/-- The file at the same place whose statements at the top read like those of the first one, in some
order. -/
structure Reordered (f f' : SourceFile) : Prop where
  path : f.path = f'.path
  program : f.tree.is .program = true
  program' : f'.tree.is .program = true
  statements : ∃ ts : List Tree, ts.Perm f.tree.children ∧
    List.Forall₂ (Alike f f') ts f'.tree.children

variable {f f' : SourceFile}

/-- Of the trees in a program, the import statements are those in its parts. -/
theorem imports_eq (h : f.tree.is .program = true) : (Scope.ofFile f).imports =
    ((f.tree.children.flatMap Tree.preorder).filter (·.is .importStatement)).flatMap
      (Scope.importsOf f) := by
  change (f.tree.preorder.filter (·.is .importStatement)).flatMap (Scope.importsOf f) = _
  rw [Tree.preorder_eq, List.filter_cons_of_neg (by simp [Tree.is_of_is h]),
    Tree.preorderAll_eq_flatMap]

theorem Reordered.shuffled (h : f.Reordered f') : (Scope.ofFile f).Shuffled (Scope.ofFile f') := by
  obtain ⟨ts, hperm, halike⟩ := h.statements
  have hnodes : List.Forall₂ (Alike f f') (ts.filter Tree.isNode) f'.tree.nodes := by
    refine List.rel_filter (fun t t' ht => ?_) halike
    have hnode : t.isNode = t'.isNode := by rw [Tree.isNode, Tree.isNode, ht.similar.1]
    exact Bool.eq_iff_iff.mp hnode
  have hperm' : f.tree.nodes.Perm (ts.filter Tree.isNode) := (hperm.filter Tree.isNode).symm
  have htypes : (Scope.ofFile f').types =
      (ts.filter Tree.isNode).filterMap (Scope.declaredType? f) :=
    (filterMap_eq_of_forall₂ (hnodes.imp fun _ _ => declaredType?_alike)).symm
  have hexports : (Scope.ofFile f').exports =
      (ts.filter Tree.isNode).flatMap (Scope.listedExports f) :=
    (flatMap_eq_of_forall₂ (hnodes.imp fun _ _ => listedExports_alike)).symm
  have himports : (Scope.ofFile f').imports =
      ((ts.flatMap Tree.preorder).filter (·.is .importStatement)).flatMap (Scope.importsOf f) := by
    rw [imports_eq h.program']
    have htrees := List.rel_flatMap halike fun _ _ => preorder_alike
    exact (flatMap_eq_of_forall₂ ((filter_is_alike htrees _).imp fun _ _ ht =>
      importsOf_alike ht h.path)).symm
  exact {
    types := by
      rw [htypes]
      exact hperm'.filterMap _
    exports := by
      rw [hexports]
      exact hperm'.flatMap_right _
    imports := by
      rw [himports, imports_eq h.program]
      exact ((hperm.symm.flatMap_right _).filter _).flatMap_right _ }

end SourceFile

/-- The scope of a file whose imports bind different names says of a name what the statements of the
file say of it, wherever they stand. Sources of imports are stripped of all quotes at their ends,
which are the quotes around them unless more follow. -/
theorem scope_order_free {f : SourceFile}
    (hnodup : ((Scope.ofFile f).imports.map Prod.fst).Nodup) :
    Scope.Answers f Scope.unquoted ∧ (f.PlainSources → Scope.Answers f Scope.quotedContent) ∧
      ∀ f', f.Reordered f' → ∀ name,
        ((Scope.ofFile f).resolve name).Same ((Scope.ofFile f').resolve name) ∧
        ∀ declared, ((Scope.ofFile f).exportOf name declared).isExported =
          ((Scope.ofFile f').exportOf name declared).isExported := by
  have hlisted : ∀ entry ∈ (Scope.ofFile f).exports, entry.2.isExported = true :=
    fun _ => SourceFile.isExported_of_mem_exports
  refine ⟨Scope.answers_unquoted hnodup, Scope.answers_quotedContent hnodup,
    fun f' h name => ⟨?_, fun declared => ?_⟩⟩
  · exact h.shuffled.same_resolve hlisted hnodup name
  · exact h.shuffled.isExported_exportOf hlisted name declared

/-- A file that lists an export in front of the declaration. -/
def listingFile : SourceFile :=
  let source : Syntax.Source := ⟨("export \x7b Page \x7d;\ninterface Page \x7b\x7d\n" ++
    "import \x7b User \x7d from './user';\n").toUTF8⟩
  ⟨⟨"/app/src/a.ts"⟩, source, Syntax.Dialect.plain.parse source⟩

def relistingFile : SourceFile :=
  let source : Syntax.Source := ⟨("interface Page \x7b\x7d\n" ++
    "import \x7b User \x7d from './user';\nexport \x7b Page \x7d;\n").toUTF8⟩
  ⟨⟨"/app/src/a.ts"⟩, source, Syntax.Dialect.plain.parse source⟩

theorem listing_order_free :
    ((Scope.ofFile listingFile).imports.map Prod.fst).Nodup ∧ listingFile.PlainSources ∧
    Scope.Answers listingFile Scope.quotedContent ∧ listingFile.Reordered relistingFile ∧
    (Scope.ofFile listingFile).resolve "Page" = .declared .named ∧
    (Scope.ofFile listingFile).resolve "User" = .imported ⟨.named "User", .file ⟨"/app/src/user"⟩⟩ ∧
    ∀ name, ((Scope.ofFile listingFile).resolve name).Same
      ((Scope.ofFile relistingFile).resolve name) := by
  have hfiles : (((Scope.ofFile listingFile).imports.map Prod.fst).Nodup ∧
      listingFile.PlainSources ∧ (Scope.ofFile listingFile).resolve "Page" = .declared .named ∧
      (Scope.ofFile listingFile).resolve "User" =
        .imported ⟨.named "User", .file ⟨"/app/src/user"⟩⟩) ∧
      listingFile.tree.is .program = true ∧ relistingFile.tree.is .program = true ∧
      Tree.alikeAll listingFile.source relistingFile.source (listingFile.tree.children.rotate 1)
        relistingFile.tree.children = true := by
    decide +kernel
  obtain ⟨⟨hnodup, hplain, hpage, huser⟩, hprogram, hprogram', halike⟩ := hfiles
  have hreordered : listingFile.Reordered relistingFile :=
    ⟨rfl, hprogram, hprogram', _, List.rotate_perm _ 1, Tree.alikeAll_iff.mp halike⟩
  obtain ⟨-, hanswers, hsame⟩ := scope_order_free hnodup
  exact ⟨hnodup, hplain, hanswers hplain, hreordered, hpage, huser,
    fun name => (hsame relistingFile hreordered name).1⟩

/-- A file that imports from a path that ends with a quote. -/
def quoteFile : SourceFile :=
  let source : Syntax.Source := ⟨"import \x7b User \x7d from \"./users'\";\n".toUTF8⟩
  ⟨⟨"/app/src/a.ts"⟩, source, Syntax.Dialect.plain.parse source⟩

/-- Such an import is taken for one from the path without the quote. -/
theorem quote_stripped :
    quoteFile.faultLine? = none ∧ ((Scope.ofFile quoteFile).imports.map Prod.fst).Nodup ∧
    quoteFile.ImportsFrom Scope.quotedContent "User" ⟨.named "User", .file ⟨"/app/src/users'"⟩⟩ ∧
    (Scope.ofFile quoteFile).resolve "User" = .imported ⟨.named "User", .file ⟨"/app/src/users"⟩⟩ ∧
    ¬ Scope.Answers quoteFile Scope.quotedContent := by
  have hfile : quoteFile.faultLine? = none ∧
      ((Scope.ofFile quoteFile).imports.map Prod.fst).Nodup ∧
      quoteFile.ImportsFrom Scope.quotedContent "User" ⟨.named "User", .file ⟨"/app/src/users'"⟩⟩ ∧
      (Scope.ofFile quoteFile).resolve "User" =
        .imported ⟨.named "User", .file ⟨"/app/src/users"⟩⟩ ∧
      ¬ quoteFile.ImportsFrom Scope.quotedContent "User"
        ⟨.named "User", .file ⟨"/app/src/users"⟩⟩ := by
    decide +kernel
  obtain ⟨hfault, hnodup, himports, hresolve, hnot⟩ := hfile
  exact ⟨hfault, hnodup, himports, hresolve,
    fun h => hnot ((h.imported_iff _ _).mp hresolve).2⟩

end CallBridge
