import CallBridge.Generated.Bridge
import CallBridge.Generated.Types
import CallBridge.Proofs.Extraction.Candidates
import CallBridge.Proofs.Syntax.DeclaredParts
import CallBridge.Proofs.Syntax.Words

/-! # Names in records

The namespace of a record is in camel case, and its class is there for methods of classes only. Names of
functions, classes and exposed methods are words of the file. A variable may be declared by a pattern
instead; the name in its record is the text of the pattern then.
-/
namespace CallBridge

open Syntax (Tree Head)

structure SourceFile.IsWord (f : SourceFile) (kind : Syntax.Kind) (t : Tree) : Prop where
  kind : t.kind? = some kind
  leaf : t.children = []
  word : Syntax.wordStop? f.source t.span.start = some t.span.stop

section Words
variable {f : SourceFile} {kind : Syntax.Kind} {t : Tree}

theorem SourceFile.IsWord.text (h : f.IsWord kind t) : Text.IsWord (f.text t) :=
  Syntax.isWord_of_wordStop? h.word

theorem isWord_of_fits (h : Head.Fits f.source ⟨kind, some .word⟩ t) : f.IsWord kind t :=
  ⟨h.kind, (h.leaf _ rfl).1, (h.leaf _ rfl).2⟩

/-- The tree of a file that is read has all parts of its declarations. -/
theorem SourceFile.throughout_tree {path : Path} {bytes : ByteArray}
    (hf : SourceFile.read? path bytes = some f) : f.tree.Throughout (Tree.Declared f.source) := by
  obtain ⟨d, -, rfl⟩ := Option.map_eq_some_iff.mp hf
  dsimp only
  exact d.throughout_parse ⟨bytes⟩

theorem Syntax.Tree.is_eq_false {k k' : Syntax.Kind} (h : t.is k = true) (hk : k ≠ k') :
    t.is k' = false := by
  unfold Tree.is at h ⊢
  rw [beq_iff_eq.mp h]
  simpa using hk

theorem Syntax.Tree.Declared.exists_child? {role : Syntax.Field} {heads : List Head}
    (h : t.Declared f.source) (hkind : t.is kind = true)
    (hpart : (role, heads) ∈ Syntax.declaredParts kind) :
    ∃ n, t.child? role = some n ∧ ∃ head ∈ heads, head.Fits f.source n :=
  h kind (beq_iff_eq.mp hkind) (role, heads) hpart

end Words

namespace Candidate

def TakesApart (c : Candidate) : Prop :=
  c.node.is .variableDeclarator = true ∧
    ∃ n ∈ c.name?, n.is .objectPattern = true ∨ n.is .arrayPattern = true

inductive NamedBy (f : SourceFile) (c : Candidate) (n : Tree) : Prop
  | ofFunction (owner : c.owner? = none)
    (kind : c.function.is .functionDeclaration = true ∨
      c.function.is .generatorFunctionDeclaration = true)
    (word : f.IsWord .identifier n)
  | ofMember (info : ClassInfo) (className : Tree) (owner : c.owner? = some info)
    (kind : c.function.is .methodDefinition = true) (name : info.name = f.text className)
    (classWord : f.IsWord .typeIdentifier className)
    (word : n.kind? = some .propertyIdentifier → f.IsWord .propertyIdentifier n)
  | ofVariable (owner : c.owner? = none) (function : isFunctionValue c.function = true)
    (kind : c.node.is .variableDeclarator = true)
    (name : f.IsWord .identifier n ∨ n.is .objectPattern = true ∨ n.is .arrayPattern = true)

section Named
variable {f : SourceFile} {s : Scope} {statement declaration : Tree} {declared : Export}
  {before : List Tree} {g : CandidateGroup} {c : Candidate}

theorem mem_methodsOf_kind {info : ClassInfo} {body : Tree} (h : c ∈ methodsOf f info body) :
    c.function.is .methodDefinition = true := by
  obtain ⟨⟨member, front⟩, hmember, rfl⟩ := List.mem_map.mp h
  have hkind := (List.mem_filter.mp hmember).2
  simp only [Bool.and_eq_true] at hkind
  exact hkind.1

theorem mem_bindingsOf_value (h : c ∈ bindingsOf declaration declared before) :
    c.node ∈ declaration.nodes ∧ c.node.is .variableDeclarator = true ∧ c.owner? = none ∧
      isFunctionValue c.function = true ∧ c.name? = c.node.child? .name := by
  obtain ⟨d, hd, hc⟩ := List.mem_filterMap.mp h
  obtain ⟨hpart, hkind⟩ := List.mem_filter.mp hd
  obtain ⟨value, -, hc⟩ := Option.bind_eq_some_iff.mp hc
  split_ifs at hc with hvalue
  cases hc
  exact ⟨hpart, hkind, rfl, hvalue, rfl⟩

theorem child?_body_of_classInfo? {info : ClassInfo} {body : Tree}
    (h : classInfo? f s declaration declared = some (info, body)) :
    declaration.child? .body = some body := by
  unfold classInfo? at h
  obtain ⟨n, -, h⟩ := Option.bind_eq_some_iff.mp h
  obtain ⟨b, hb, h⟩ := Option.bind_eq_some_iff.mp h
  obtain ⟨-, rfl⟩ := Prod.mk.inj (Option.some.inj h)
  exact hb

/-- A class is named by a word, and its body is a part of the tree. -/
theorem exists_className (h : declaration.Throughout (Tree.Declared f.source))
    (hkind : declaration.is .classDeclaration = true ∨
      declaration.is .abstractClassDeclaration = true) :
    ∃ n, declaration.child? .name = some n ∧ f.IsWord .typeIdentifier n ∧
      ∀ body ∈ declaration.child? .body, body.Throughout (Tree.Declared f.source) := by
  rcases hkind with hkind | hkind
  all_goals
    obtain ⟨n, hn, head, hhead, hfits⟩ := h.self.exists_child? hkind List.mem_cons_self
    obtain rfl := List.mem_singleton.mp hhead
    obtain ⟨b, hb, head, hhead, hbody⟩ :=
      h.self.exists_child? hkind (List.mem_cons_of_mem _ (List.mem_singleton_self _))
    obtain rfl := List.mem_singleton.mp hhead
    refine ⟨n, hn, isWord_of_fits hfits, fun body hmem => ?_⟩
    obtain rfl := Option.some.inj (hb.symm.trans hmem)
    exact h.part (List.mem_of_find?_eq_some hb) (by simp [Tree.is, hbody.kind])

theorem exists_methodName {method : Tree} (h : method.Throughout (Tree.Declared f.source))
    (hkind : method.is .methodDefinition = true) :
    ∃ n, method.child? .name = some n ∧
      (n.kind? = some .propertyIdentifier → f.IsWord .propertyIdentifier n) := by
  obtain ⟨n, hn, head, hhead, hfits⟩ := h.self.exists_child? hkind (List.mem_singleton_self _)
  refine ⟨n, hn, fun hplain => ?_⟩
  have hhead' : head.kind = .propertyIdentifier := Option.some.inj (hfits.kind.symm.trans hplain)
  simp only [List.mem_cons, List.not_mem_nil, or_false] at hhead
  rcases hhead with rfl | rfl | rfl | rfl | rfl
  · exact isWord_of_fits hfits
  all_goals cases hhead'

theorem exists_functionName (h : declaration.Throughout (Tree.Declared f.source))
    (hkind : declaration.is .functionDeclaration = true ∨
      declaration.is .generatorFunctionDeclaration = true) :
    ∃ n, declaration.child? .name = some n ∧ f.IsWord .identifier n := by
  rcases hkind with hkind | hkind
  all_goals
    obtain ⟨n, hn, head, hhead, hfits⟩ := h.self.exists_child? hkind (List.mem_singleton_self _)
    obtain rfl := List.mem_singleton.mp hhead
    exact ⟨n, hn, isWord_of_fits hfits⟩

theorem exists_variableName {declarator : Tree} (h : declarator.Throughout (Tree.Declared f.source))
    (hkind : declarator.is .variableDeclarator = true) :
    ∃ n, declarator.child? .name = some n ∧
      (f.IsWord .identifier n ∨ n.is .objectPattern = true ∨ n.is .arrayPattern = true) := by
  obtain ⟨n, hn, head, hhead, hfits⟩ := h.self.exists_child? hkind (List.mem_singleton_self _)
  refine ⟨n, hn, ?_⟩
  simp only [List.mem_cons, List.not_mem_nil, or_false] at hhead
  rcases hhead with rfl | rfl | rfl
  · exact .inl (isWord_of_fits hfits)
  · exact .inr (.inl (by simp [Tree.is, hfits.kind]))
  · exact .inr (.inr (by simp [Tree.is, hfits.kind]))

/-- Whatever kind a declaration is of, it is a part of the tree that is no comment. -/
theorem throughout_declaration (htree : f.tree.Throughout (Tree.Declared f.source))
    (hstatement : statement ∈ f.tree.children)
    (hdeclaration : declarationOf? statement = some (declaration, declared)) {kind : Syntax.Kind}
    (hkind : declaration.is kind = true) (hne : kind ≠ .comment) :
    declaration.Throughout (Tree.Declared f.source) := by
  rcases declarationOf?_eq_some hdeclaration with ⟨hexport, hchild, -⟩ | ⟨-, rfl, -⟩
  · have hstatement := htree.part hstatement (Tree.is_eq_false hexport (by decide))
    exact hstatement.part (List.mem_of_find?_eq_some hchild) (Tree.is_eq_false hkind hne)
  · exact htree.part hstatement (Tree.is_eq_false hkind hne)

/-- The candidates of a file are named by parts of their declarations. -/
theorem exists_namedBy (htree : f.tree.Throughout (Tree.Declared f.source))
    (hstatement : statement ∈ f.tree.children) (hg : group? f s statement before = some g)
    (hc : c ∈ g.candidates) : ∃ n, c.name? = some n ∧ c.NamedBy f n := by
  rw [group?_eq] at hg
  obtain ⟨⟨declaration, declared⟩, hdeclaration, hg⟩ := Option.bind_eq_some_iff.mp hg
  have hpart : ∀ {kind}, declaration.is kind = true → kind ≠ .comment →
      declaration.Throughout (Tree.Declared f.source) :=
    throughout_declaration htree hstatement hdeclaration
  unfold groupOf? at hg
  split_ifs at hg with hfunction hclass hvariable
  · cases hg
    obtain rfl := List.mem_singleton.mp hc
    have hkind := (Bool.or_eq_true _ _).mp hfunction
    have hdeclaration : declaration.Throughout (Tree.Declared f.source) := by
      rcases hkind with hkind | hkind <;> exact hpart hkind (by decide)
    obtain ⟨n, hn, hword⟩ := exists_functionName hdeclaration hkind
    exact ⟨n, hn, .ofFunction rfl hkind hword⟩
  · obtain ⟨⟨info, body⟩, hinfo, hg⟩ := Option.bind_eq_some_iff.mp hg
    cases hg
    obtain ⟨howner, hmember, hname⟩ := mem_methodsOf hc
    have hmethod := mem_methodsOf_kind hc
    have hkind := (Bool.or_eq_true _ _).mp hclass
    have hdeclaration : declaration.Throughout (Tree.Declared f.source) := by
      rcases hkind with hkind | hkind <;> exact hpart hkind (by decide)
    obtain ⟨className, hclassName, hclassWord, hbody⟩ := exists_className hdeclaration hkind
    obtain ⟨cn, hcn, hinfoName, -⟩ := classInfo?_eq_some hinfo
    obtain rfl := Option.some.inj (hcn.symm.trans hclassName)
    have hfunction := (hbody body (child?_body_of_classInfo? hinfo)).part hmember
      (Tree.is_eq_false hmethod (by decide))
    obtain ⟨n, hn, hword⟩ := exists_methodName hfunction hmethod
    exact ⟨n, hname.trans hn, .ofMember info cn howner hmethod hinfoName hclassWord hword⟩
  · cases hg
    obtain ⟨hd, hkind, howner, hvalue, hname⟩ := mem_bindingsOf_value hc
    have hdeclaration : declaration.Throughout (Tree.Declared f.source) := by
      rcases (Bool.or_eq_true _ _).mp hvariable with hkind | hkind <;> exact hpart hkind (by decide)
    have hnode := hdeclaration.part (List.mem_filter.mp hd).1 (Tree.is_eq_false hkind (by decide))
    obtain ⟨n, hn, hword⟩ := exists_variableName hnode hkind
    exact ⟨n, hname.trans hn, .ofVariable howner hvalue hkind hword⟩

end Named

/-- A method with nothing that keeps it from being exposed is named by one word. -/
theorem NamedBy.word_of_exposed {f : SourceFile} {c : Candidate} {n : Tree} (h : c.NamedBy f n)
    (hname : c.name? = some n) (hobstacle : c.obstacle? f = none) (hwhole : ¬ c.TakesApart) :
    f.IsWord .identifier n ∨ f.IsWord .propertyIdentifier n := by
  cases h with
  | ofFunction _ _ word => exact .inl word
  | ofMember info _ owner _ _ _ word =>
    have hkind := name_kind_of_obstacle? owner hobstacle
    rw [hname, Option.bind_some] at hkind
    exact .inr (word hkind)
  | ofVariable _ _ kind name =>
    rcases name with word | hpattern
    · exact .inl word
    · exact absurd ⟨kind, n, hname, hpattern⟩ hwhole

theorem not_method_of_isFunctionValue {t : Tree} (h : isFunctionValue t = true) :
    t.is .methodDefinition = false := by
  simp only [isFunctionValue, Bool.or_eq_true] at h
  rcases h with (h | h) | h <;> exact Tree.is_eq_false h (by decide)

theorem NamedBy.isSome_owner? {f : SourceFile} {c : Candidate} {n : Tree} (h : c.NamedBy f n) :
    c.owner?.isSome = c.function.is .methodDefinition := by
  cases h with
  | ofFunction owner kind _ =>
    have hmethod : c.function.is .methodDefinition = false := by
      rcases kind with h | h <;> exact Tree.is_eq_false h (by decide)
    rw [owner, hmethod]
    rfl
  | ofMember info _ owner kind _ _ _ =>
    rw [owner, kind]
    rfl
  | ofVariable owner function _ _ =>
    rw [owner, not_method_of_isFunctionValue function]
    rfl

theorem NamedBy.exists_word_of_owner? {f : SourceFile} {c : Candidate} {n : Tree} {info : ClassInfo}
    (h : c.NamedBy f n) (howner : c.owner? = some info) :
    ∃ n, f.IsWord .typeIdentifier n ∧ info.name = f.text n := by
  cases h with
  | ofFunction owner _ _ => cases owner.symm.trans howner
  | ofMember info' className owner _ name classWord _ =>
    obtain rfl := Option.some.inj (owner.symm.trans howner)
    exact ⟨className, classWord, name⟩
  | ofVariable owner _ _ _ => cases owner.symm.trans howner

/-- What a variable that takes its value apart is declared by is no word. -/
theorem TakesApart.not_word {f : SourceFile} {c : Candidate} {n : Tree} (h : c.TakesApart)
    (hname : c.name? = some n) :
    ¬ (f.IsWord .identifier n ∨ f.IsWord .propertyIdentifier n) := by
  obtain ⟨-, u, hu, hpattern⟩ := h
  obtain rfl := Option.some.inj (hname.symm.trans hu)
  rintro (hword | hword)
  all_goals
    rcases hpattern with hpattern | hpattern
    all_goals simp [Tree.is, hword.kind] at hpattern

end Candidate

/-- The namespace of a record is in camel case, and its class is there for methods, as the text of the
word that names it. -/
structure Candidate.Places (f : SourceFile) (c : Candidate) (m : Method) : Prop where
  namespaceName : Text.isCamelCase m.namespaceName = true
  isSome_className : m.className.isSome = c.function.is .methodDefinition
  className : ∀ name ∈ m.className, Text.IsWord name ∧
    ∃ n, f.IsWord .typeIdentifier n ∧ name = f.text n

/-- The name of a record is the text of one word of its file. The key, the member of the bridge and the
signature that are made of it can be taken apart again. -/
structure Candidate.NamesByWord (f : SourceFile) (c : Candidate) (m : Method) : Prop where
  token : ∃ n, c.name? = some n ∧ (f.IsWord .identifier n ∨ f.IsWord .propertyIdentifier n) ∧
    m.name = f.text n
  name : Text.IsWord m.name
  key : m.key.toList.splitOn ':' = [m.namespaceName.toList, m.name.toList]
  member : (Generated.Forwarder.ofMethod m).text.toList.takeWhile (· ≠ ':') = m.name.toList
  signature : (Generated.Signature.ofMethod m).text.toList.takeWhile (· ≠ '(') = m.name.toList

section Written
variable {m : Method}

theorem Method.splitOn_key (hnamespace : Text.isCamelCase m.namespaceName = true)
    (hname : Text.IsWord m.name) :
    m.key.toList.splitOn ':' = [m.namespaceName.toList, m.name.toList] := by
  have hfront : ':' ∉ m.namespaceName.toList := Text.colon_notMem_of_isCamelCase hnamespace
  have hback : ':' ∉ m.name.toList := hname.isName.notMem (by decide)
  have hkey : m.key.toList = [':'].intercalate [m.namespaceName.toList, m.name.toList] := by
    simp [Method.key, List.intercalate]
  rw [hkey, List.splitOn_intercalate ':' _ (List.cons_ne_nil _ _)]
  simp [hfront, hback]

theorem Text.takeWhile_ne {c : Char} {xs : List Char} (hc : c ∉ xs) (ys : List Char) :
    (xs ++ c :: ys).takeWhile (· ≠ c) = xs := by
  have hxs : ∀ x ∈ xs, decide (x ≠ c) = true := fun x hx =>
    decide_eq_true fun he => hc (he ▸ hx)
  rw [List.takeWhile_append_of_pos hxs, List.takeWhile_cons_of_neg (by simp), List.append_nil]

theorem Method.takeWhile_forwarder (hname : Text.IsWord m.name) :
    (Generated.Forwarder.ofMethod m).text.toList.takeWhile (· ≠ ':') = m.name.toList := by
  have hcolon : ':' ∉ m.name.toList := hname.isName.notMem (by decide)
  simp only [Generated.Forwarder.text, Generated.Forwarder.ofMethod, String.toList_append,
    List.append_assoc]
  exact Text.takeWhile_ne hcolon _

theorem Method.takeWhile_signature (hname : Text.IsWord m.name) :
    (Generated.Signature.ofMethod m).text.toList.takeWhile (· ≠ '(') = m.name.toList := by
  have hparen : '(' ∉ m.name.toList := hname.isName.notMem (by decide)
  simp only [Generated.Signature.text, Generated.Signature.ofMethod, String.toList_append,
    List.append_assoc]
  exact Text.takeWhile_ne hparen _

end Written

/-- Whatever the annotation and the default namespace, a record is placed as it should be. Its name is
a word exactly if its candidate is no variable that takes its value apart. -/
theorem SourceFile.names_words_iff {path : Path} {bytes : ByteArray} {f : SourceFile}
    (hf : SourceFile.read? path bytes = some f) {marking : Marking} {m : Method}
    (hm : m ∈ (f.extract marking).methods) :
    ∃ g ∈ Candidate.ofFile f (Scope.ofFile f), ∃ c ∈ g.candidates,
      (∃ warnings, c.judge marking f (Scope.ofFile f) = .exposed m warnings) ∧
      c.Places f m ∧ (c.NamesByWord f m ↔ ¬ c.TakesApart) := by
  obtain ⟨statement, before, hstatement, g, hgroup, hg, c, hc, warnings, hjudge⟩ := f.exists_judged hm
  obtain ⟨n, hn, hnamed⟩ := Candidate.exists_namedBy (throughout_tree hf)
    (Candidate.mem_of_mem_withBefore hstatement) hgroup hc
  obtain ⟨namespaceName, shape, hcase, -, rfl, -⟩ := Candidate.judge_eq_exposed hjudge
  refine ⟨g, hg, c, hc, ⟨warnings, hjudge⟩, ⟨hcase, ?_, ?_⟩, fun h happart => ?_, fun hwhole => ?_⟩
  · rw [← hnamed.isSome_owner?]
    exact Option.isSome_map
  · intro name hname
    obtain ⟨info, hinfo, rfl⟩ := Option.map_eq_some_iff.mp hname
    obtain ⟨u, hu, htext⟩ := hnamed.exists_word_of_owner? hinfo
    exact ⟨htext ▸ hu.text, u, hu, htext⟩
  · obtain ⟨u, hu, hword, -⟩ := h.token
    exact happart.not_word hu hword
  · have hword := hnamed.word_of_exposed hn (Candidate.obstacle?_of_exposed hjudge) hwhole
    have hname : (c.toMethod f (Scope.ofFile f) namespaceName shape).name = f.text n := by
      simp [Candidate.toMethod, Candidate.name, hn]
    have htext : Text.IsWord (c.toMethod f (Scope.ofFile f) namespaceName shape).name := by
      rw [hname]
      exact hword.elim SourceFile.IsWord.text SourceFile.IsWord.text
    exact ⟨⟨n, hn, hword, hname⟩, htext, Method.splitOn_key hcase htext,
      Method.takeWhile_forwarder htext, Method.takeWhile_signature htext⟩

def apiFile : SourceFile :=
  let source : Syntax.Source := ⟨"class Api \x7b\n// @expose\nrun(): void \x7b\x7d\n\x7d".toUTF8⟩
  ⟨⟨"/app/src/a.ts"⟩, source, Syntax.Dialect.plain.parse source⟩

theorem method_names_words :
    SourceFile.read? ⟨"/app/src/a.ts"⟩ apiFile.source.bytes = some apiFile ∧
    ∃ m ∈ (apiFile.extract {}).methods, m.className = some "Api" ∧ m.name = "run" ∧
      ∃ g ∈ Candidate.ofFile apiFile (Scope.ofFile apiFile), ∃ c ∈ g.candidates,
        (∃ warnings, c.judge {} apiFile (Scope.ofFile apiFile) = .exposed m warnings) ∧
        c.Places apiFile m ∧ (c.NamesByWord apiFile m ↔ ¬ c.TakesApart) := by
  have hread : SourceFile.read? ⟨"/app/src/a.ts"⟩ apiFile.source.bytes = some apiFile := rfl
  have hmethods : ((apiFile.extract {}).methods.map fun m => (m.className, m.name)) =
      [(some "Api", "run")] := by
    decide +kernel
  obtain ⟨m, hm, hrecord⟩ := List.mem_map.mp (hmethods ▸ List.mem_singleton_self _)
  obtain ⟨hclass, hname⟩ := Prod.mk.inj hrecord
  exact ⟨hread, m, hm, hclass, hname, SourceFile.names_words_iff hread hm⟩

/-- A file with a variable that takes a function apart. -/
def patternFile : SourceFile :=
  let source : Syntax.Source := ⟨"// @expose\nexport const \x7b run \x7d = () => 1;\n".toUTF8⟩
  ⟨⟨"/app/src/a.ts"⟩, source, Syntax.Dialect.plain.parse source⟩

theorem pattern_names_record :
    SourceFile.read? ⟨"/app/src/a.ts"⟩ patternFile.source.bytes = some patternFile ∧
    patternFile.faultLine? = none ∧
    ((patternFile.extract {}).methods.map Method.name) = ["\x7b run \x7d"] ∧
    ∀ kind n, patternFile.IsWord kind n → patternFile.text n ≠ "\x7b run \x7d" := by
  refine ⟨rfl, by decide +kernel, by decide +kernel, fun kind n hword htext => ?_⟩
  have hblank : ' ' ∉ (patternFile.text n).toList := hword.text.isName.notMem (by decide)
  rw [htext] at hblank
  exact hblank (by decide)

end CallBridge
