import CallBridge.Proofs.Extraction.Candidates

/-! # What is attached to a declaration

The comments in front of a declaration, and for a method the decorators too, form a run. The run is
walked from the declaration on. The first comment that begins on the line on which the part right in
front of it ends closes the walk: neither that comment nor anything in front of it is attached. Only
a part that is no comment closes the walk, so a comment behind another comment never does.
-/
namespace CallBridge

open Syntax (Tree)

namespace Candidate

/-- The tree may stand in the run in front of a declaration. Tokens do not count. -/
def Continues (decorated : Bool) (t : Tree) : Prop :=
  t.isNode = true → decorated = true ∧ t.is .decorator = true ∨ t.is .comment = true

/-- No comment of `near` begins on the line on which the part right in front of it ends. The parts
in front of all of `near` are `far`, and the nearest part stands first in both. -/
def Untrailed : (near far : List Tree) → Prop
  | [], _ => True
  | t :: near, far => (t.is .comment = true → trails t (near ++ far) = false) ∧ Untrailed near far

/-- The walk from a declaration finds a tree behind the parts `near`. -/
def Finds (found near : List Tree) (t : Tree) : Prop :=
  near.filter Tree.isNode ++ [t] <+: found

section Walk
variable {decorated : Bool} {t : Tree} {near far : List Tree}

theorem attached_cons_of_node (ht : t.isNode = true) :
    attached decorated (t :: far) =
      if (decorated && t.is .decorator || t.is .comment && !trails t far) = true then
        t :: attached decorated far
      else [] := by
  simp only [attached, ht, Bool.not_true, Bool.false_eq_true, if_false]

theorem attached_cons_of_not_node (ht : t.isNode = false) :
    attached decorated (t :: far) = attached decorated far := by
  simp only [attached, ht, Bool.not_false, if_true]

theorem not_is_of_not_isNode (ht : t.isNode = false) (k : Syntax.Kind) : t.is k = false := by
  by_contra hk
  rw [Tree.isNode_of_is (by simpa using hk)] at ht
  cases ht

theorem goes_past_iff (ht : t.isNode = true) :
    (decorated && t.is .decorator || t.is .comment && !trails t far) = true ↔
      Continues decorated t ∧ (t.is .comment = true → trails t far = false) := by
  simp only [Bool.or_eq_true, Bool.and_eq_true, Bool.not_eq_true']
  constructor
  · rintro (⟨hdecorated, hkind⟩ | ⟨hkind, htrails⟩)
    · refine ⟨fun _ => .inl ⟨hdecorated, hkind⟩, fun hcomment => ?_⟩
      unfold Tree.is at hkind hcomment
      rw [beq_iff_eq.mp hkind] at hcomment
      cases hcomment
    · exact ⟨fun _ => .inr hkind, fun _ => htrails⟩
  · rintro ⟨hrun, htrails⟩
    rcases hrun ht with hdecorator | hcomment
    · exact .inl hdecorator
    · exact .inr ⟨hcomment, htrails hcomment⟩

/-- The walk goes through parts of the run as long as no comment closes it. -/
theorem attached_append (hrun : ∀ u ∈ near, Continues decorated u) (hopen : Untrailed near far) :
    attached decorated (near ++ far) = near.filter Tree.isNode ++ attached decorated far := by
  induction near with
  | nil => rfl
  | cons t near ih =>
    obtain ⟨htrails, hopen⟩ := hopen
    have hrest := ih (fun u hu => hrun u (List.mem_cons_of_mem _ hu)) hopen
    cases ht : t.isNode with
    | true =>
      have hgoes := (goes_past_iff ht).mpr ⟨hrun t List.mem_cons_self, htrails⟩
      rw [List.cons_append, attached_cons_of_node ht, if_pos hgoes, hrest, List.filter_cons, ht]
      rfl
    | false =>
      rw [List.cons_append, attached_cons_of_not_node ht, hrest, List.filter_cons, ht]
      rfl

/-- What the walk finds stands in the run, and no comment up to it closes the walk. -/
theorem open_of_finds (ht : t.isNode = true)
    (h : Finds (attached decorated (near ++ t :: far)) near t) :
    (∀ u ∈ near ++ [t], Continues decorated u) ∧ Untrailed (near ++ [t]) far := by
  unfold Finds at h
  induction near with
  | nil =>
    rw [List.nil_append, attached_cons_of_node ht] at h
    split_ifs at h with hgoes
    · obtain ⟨hrun, htrails⟩ := (goes_past_iff ht).mp hgoes
      refine ⟨fun u hu => ?_, htrails, trivial⟩
      obtain rfl := List.mem_singleton.mp hu
      exact hrun
    · simp at h
  | cons u near ih =>
    cases hu : u.isNode with
    | true =>
      rw [List.cons_append, attached_cons_of_node hu, List.filter_cons, if_pos hu,
        List.cons_append] at h
      split_ifs at h with hgoes
      · obtain ⟨hcontinues, htrails⟩ := (goes_past_iff hu).mp hgoes
        obtain ⟨hrun, hopen⟩ := ih (List.cons_prefix_cons.mp h).2
        refine ⟨List.forall_mem_cons.mpr ⟨hcontinues, hrun⟩, fun hcomment => ?_, hopen⟩
        simpa using htrails hcomment
      · simp at h
    | false =>
      rw [List.cons_append, attached_cons_of_not_node hu, List.filter_cons, hu] at h
      obtain ⟨hrun, hopen⟩ := ih h
      refine ⟨List.forall_mem_cons.mpr ⟨fun hnode => ?_, hrun⟩, fun hcomment => ?_, hopen⟩
      · rw [hu] at hnode
        cases hnode
      · rw [not_is_of_not_isNode hu] at hcomment
        cases hcomment

theorem attached_prefix (before : List Tree) :
    attached decorated before <+: before.filter Tree.isNode := by
  induction before with
  | nil => exact List.prefix_rfl
  | cons t before ih =>
    cases ht : t.isNode with
    | true =>
      rw [attached_cons_of_node ht, List.filter_cons, if_pos ht]
      split_ifs
      · exact List.prefix_cons_inj t |>.mpr ih
      · exact List.nil_prefix
    | false =>
      rw [attached_cons_of_not_node ht, List.filter_cons, ht]
      exact ih

theorem untrailed_append_singleton :
    Untrailed (near ++ [t]) far ↔
      Untrailed near (t :: far) ∧ (t.is .comment = true → trails t far = false) := by
  induction near with
  | nil => simp [Untrailed]
  | cons u near ih =>
    simp only [List.cons_append, Untrailed, ih, List.append_assoc, List.nil_append, and_assoc]

/-- The walk finds exactly what stands in the run behind no comment that closes it. -/
theorem finds_attached_iff (ht : t.isNode = true) :
    Finds (attached decorated (near ++ t :: far)) near t ↔
      (∀ u ∈ near ++ [t], Continues decorated u) ∧ Untrailed (near ++ [t]) far := by
  refine ⟨open_of_finds ht, fun ⟨hrun, hopen⟩ => ?_⟩
  have hfound := attached_append hrun hopen
  rw [List.append_assoc, List.filter_append, List.singleton_append] at hfound
  unfold Finds
  rw [hfound, List.filter_cons, ht]
  exact ⟨attached decorated far, by simp⟩

end Walk

theorem mem_withBefore_iff {t : Tree} {front before ts : List Tree} :
    (t, front) ∈ withBefore before ts ↔
      ∃ pre post, ts = pre ++ t :: post ∧ front = pre.reverse ++ before := by
  induction ts generalizing before with
  | nil => simp [withBefore]
  | cons u ts ih =>
    rw [withBefore, List.mem_cons, ih]
    constructor
    · rintro (h | ⟨pre, post, rfl, rfl⟩)
      · obtain ⟨rfl, rfl⟩ := Prod.mk.inj h
        exact ⟨[], ts, rfl, rfl⟩
      · exact ⟨u :: pre, post, rfl, by simp⟩
    · rintro ⟨pre, post, hts, rfl⟩
      cases pre with
      | nil =>
        obtain ⟨rfl, rfl⟩ := List.cons.inj hts
        exact .inl rfl
      | cons v pre =>
        obtain ⟨rfl, rfl⟩ := List.cons.inj hts
        exact .inr ⟨pre, post, rfl, by simp⟩

theorem exists_of_mem_withBefore {t : Tree} {before ts : List Tree}
    (h : (t, before) ∈ withBefore [] ts) : ∃ behind, ts = before.reverse ++ t :: behind := by
  obtain ⟨pre, post, rfl, rfl⟩ := mem_withBefore_iff.mp h
  exact ⟨post, by simp⟩

/-- The trees in front of a candidate that are looked at, the nearest first: those in front of the
statement that declares it, or for a method those in front of it in the body of its class. Only
methods are decorated. -/
inductive StandsBehind (f : SourceFile) (s : Scope) (c : Candidate) :
    (decorated : Bool) → (before : List Tree) → Prop where
  | statement {statement declaration : Tree} {declared : Export} {before behind : List Tree}
      (place : f.tree.children = before.reverse ++ statement :: behind)
      (declares : declarationOf? statement = some (declaration, declared))
      (read : c.ReadFrom f s declaration declared) (free : c.owner? = none) :
      StandsBehind f s c false before
  | member {statement declaration body : Tree} {declared : Export} {info : ClassInfo}
      {before behind : List Tree} (mem : statement ∈ f.tree.children)
      (declares : declarationOf? statement = some (declaration, declared))
      (made : classInfo? f s declaration declared = some (info, body))
      (owned : c.owner? = some info)
      (place : body.children = before.reverse ++ c.node :: behind) :
      StandsBehind f s c true before

section Place
variable {f : SourceFile} {s : Scope} {statement : Tree} {before : List Tree} {g : CandidateGroup}
  {c : Candidate}

theorem exists_member {info : ClassInfo} {body : Tree} (hc : c ∈ methodsOf f info body) :
    ∃ member before, (member, before) ∈ withBefore [] body.children ∧
      member.is .methodDefinition = true ∧ isConstructor f member = false ∧
      c = method info member before := by
  obtain ⟨⟨member, before⟩, hmember, rfl⟩ := List.mem_map.mp hc
  obtain ⟨hplace, hkind⟩ := List.mem_filter.mp hmember
  simp only [Bool.and_eq_true, Bool.not_eq_true'] at hkind
  exact ⟨member, before, hplace, hkind.1, hkind.2, rfl⟩

theorem comments_of_free {declaration : Tree} {declared : Export}
    (h : groupOf? f s declaration declared before = some g) (hc : c ∈ g.candidates)
    (hfree : c.owner? = none) : c.comments = attached false before := by
  unfold groupOf? at h
  split_ifs at h
  · cases h
    obtain rfl := List.mem_singleton.mp hc
    rfl
  · obtain ⟨⟨info, body⟩, -, h⟩ := Option.bind_eq_some_iff.mp h
    cases h
    rw [(mem_methodsOf hc).1] at hfree
    cases hfree
  · cases h
    obtain ⟨d, -, hd⟩ := List.mem_filterMap.mp hc
    cases hvalue : d.child? .value with
    | none => simp [hvalue] at hd
    | some value =>
      simp only [hvalue, Option.bind_eq_bind, Option.bind_some] at hd
      split_ifs at hd
      cases hd
      rfl

theorem member_of_owned {declaration : Tree} {declared : Export} {info : ClassInfo}
    (h : groupOf? f s declaration declared before = some g) (hc : c ∈ g.candidates)
    (howned : c.owner? = some info) :
    ∃ body, classInfo? f s declaration declared = some (info, body) ∧
      c ∈ methodsOf f info body := by
  unfold groupOf? at h
  split_ifs at h
  · cases h
    obtain rfl := List.mem_singleton.mp hc
    cases howned
  · obtain ⟨⟨info', body⟩, hinfo, h⟩ := Option.bind_eq_some_iff.mp h
    cases h
    obtain rfl : info' = info := Option.some.inj ((mem_methodsOf hc).1.symm.trans howned)
    exact ⟨body, hinfo, hc⟩
  · cases h
    obtain ⟨-, -, -, hfree, -⟩ := mem_bindingsOf hc
    rw [hfree] at howned
    cases howned

theorem attached_false_filter (before : List Tree) :
    (attached false before).filter (·.is .comment) = attached false before := by
  refine List.filter_eq_self.mpr fun t ht => ?_
  induction before with
  | nil => cases ht
  | cons u before ih =>
    cases hu : u.isNode with
    | true =>
      rw [attached_cons_of_node hu] at ht
      split_ifs at ht with hgoes
      · rcases List.mem_cons.mp ht with rfl | ht
        · rcases ((goes_past_iff hu).mp hgoes).1 hu with ⟨hdecorated, -⟩ | hcomment
          · cases hdecorated
          · exact hcomment
        · exact ih ht
      · cases ht
    | false =>
      rw [attached_cons_of_not_node hu] at ht
      exact ih ht

/-- The comments of a candidate are those that the walk through the parts in front of it finds. -/
theorem standsBehind_of_mem (hg : g ∈ ofFile f s) (hc : c ∈ g.candidates) :
    ∃ decorated before, c.StandsBehind f s decorated before ∧
      c.comments = (attached decorated before).filter (·.is .comment) := by
  obtain ⟨⟨statement, before⟩, hstatement, hgroup⟩ := List.mem_filterMap.mp hg
  obtain ⟨behind, hplace⟩ := exists_of_mem_withBefore hstatement
  obtain ⟨declaration, declared, hdeclaration, hread, -⟩ := readFrom_of_mem_group hgroup hc
  dsimp only at hgroup
  rw [group?_eq, hdeclaration, Option.bind_some] at hgroup
  cases howner : c.owner? with
  | none =>
    refine ⟨false, before, .statement hplace hdeclaration hread howner, ?_⟩
    rw [comments_of_free hgroup hc howner, attached_false_filter]
  | some info =>
    obtain ⟨body, hinfo, hmember⟩ := member_of_owned hgroup hc howner
    obtain ⟨member, front, hfront, -, -, rfl⟩ := exists_member hmember
    obtain ⟨rest, hrest⟩ := exists_of_mem_withBefore hfront
    have hstands : StandsBehind f s (method info member front) true front :=
      .member (hplace ▸ by simp) hdeclaration hinfo howner hrest
    exact ⟨true, front, hstands, rfl⟩

end Place

/-- What a method keeps of the parts in front of it in the body of its class. A decorator or comment
of the run is kept exactly if no comment from it to the method begins on the line on which the part
right in front of that comment ends; and nothing is kept but decorators and comments of the run. -/
theorem kept_by_method_iff {f : SourceFile} {info : ClassInfo} {body : Tree} {c : Candidate}
    (hc : c ∈ methodsOf f info body) :
    ∃ before behind found, body.children = before.reverse ++ c.node :: behind ∧
      c.decorators = c.node.children.filter (·.field? == some .decorator) ++
        found.filter (·.is .decorator) ∧
      c.comments = found.filter (·.is .comment) ∧ found <+: before.filter Tree.isNode ∧
      ∀ near t far, before = near ++ t :: far → t.isNode = true →
        (Finds found near t ↔
          (∀ u ∈ near ++ [t], Continues true u) ∧ Untrailed (near ++ [t]) far) := by
  obtain ⟨member, before, hplace, -, -, rfl⟩ := exists_member hc
  obtain ⟨behind, hbody⟩ := exists_of_mem_withBefore hplace
  refine ⟨before, behind, attached true before, hbody, rfl, rfl, attached_prefix before,
    fun near t far h ht => ?_⟩
  rw [h]
  exact finds_attached_iff ht

/-- A class with a method that has its annotation behind a comment and another decorator. -/
def decoratedFile : SourceFile :=
  let source : Syntax.Source := ⟨("export class A \x7b\n  @expose('userAPI')\n" ++
    "  // cached\n  @cached() getUser(): void \x7b\x7d\n\x7d\n").toUTF8⟩
  ⟨⟨"/app/src/a.ts"⟩, source, Syntax.Dialect.plain.parse source⟩

theorem decorator_kept_behind_comment :
    ∃ info body, ∃ c ∈ methodsOf decoratedFile info body,
      c.decorators.map decoratedFile.text = ["@cached()", "@expose('userAPI')"] ∧
      ∃ before behind found, body.children = before.reverse ++ c.node :: behind ∧
        c.decorators = c.node.children.filter (·.field? == some .decorator) ++
          found.filter (·.is .decorator) ∧
        c.comments = found.filter (·.is .comment) ∧ found <+: before.filter Tree.isNode ∧
        ∀ near t far, before = near ++ t :: far → t.isNode = true →
          (Finds found near t ↔
            (∀ u ∈ near ++ [t], Continues true u) ∧ Untrailed (near ++ [t]) far) := by
  have hfile : ∃ g ∈ ofFile decoratedFile (Scope.ofFile decoratedFile), ∃ c ∈ g.candidates,
      c.owner?.isSome = true ∧
        c.decorators.map decoratedFile.text = ["@cached()", "@expose('userAPI')"] := by
    decide +kernel
  obtain ⟨g, hg, c, hc, hsome, htexts⟩ := hfile
  obtain ⟨info, howned⟩ := Option.isSome_iff_exists.mp hsome
  obtain ⟨⟨statement, before⟩, -, hgroup⟩ := List.mem_filterMap.mp hg
  dsimp only at hgroup
  rw [group?_eq] at hgroup
  obtain ⟨⟨declaration, declared⟩, -, hgroup⟩ := Option.bind_eq_some_iff.mp hgroup
  obtain ⟨body, -, hmember⟩ := member_of_owned hgroup hc howned
  exact ⟨info, body, c, hmember, htexts, kept_by_method_iff hmember⟩

/-- A class with a method that has a comment on the line of its annotation. -/
def annotatedFile : SourceFile :=
  let source : Syntax.Source := ⟨("export class A \x7b\n  @expose('userAPI') // cached\n" ++
    "  getUser(): void \x7b\x7d\n\x7d\n").toUTF8⟩
  ⟨⟨"/app/src/a.ts"⟩, source, Syntax.Dialect.plain.parse source⟩

/-- The decorator in front of the comment is lost, and nothing is reported. -/
theorem decorator_lost_behind_comment :
    annotatedFile.faultLine? = none ∧
    (∃ body ∈ annotatedFile.tree.preorder, body.is .classBody = true ∧
      body.children.map (fun t => (t.kind?, t.span.row, t.span.endRow)) =
        [(none, 0, 0), (some .decorator, 1, 1), (some .comment, 1, 1),
          (some .methodDefinition, 2, 2), (none, 3, 3)]) ∧
    ((ofFile annotatedFile (Scope.ofFile annotatedFile)).flatMap CandidateGroup.candidates).map
      (fun c => (c.name annotatedFile, c.decorators.length, c.comments.length)) =
        [("getUser", 0, 0)] ∧
    (annotatedFile.extract {}).methods = [] ∧ (annotatedFile.extract {}).diagnostics = [] := by
  decide +kernel

/-- A comment that begins on the line on which the nearest part in front of it ends that is no
comment is kept only if another comment stands between the two; and it is kept then if the way from
it to the declaration is open. -/
theorem trailing_comment_kept_iff {f : SourceFile} {s : Scope} {g : CandidateGroup} {c : Candidate}
    (hg : g ∈ ofFile f s) (hc : c ∈ g.candidates) :
    ∃ decorated before found, c.StandsBehind f s decorated before ∧
      c.comments = found.filter (·.is .comment) ∧ found <+: before.filter Tree.isNode ∧
      ∀ near comment between last far,
        before = near ++ comment :: (between ++ last :: far) → comment.is .comment = true →
        (∀ u ∈ between, u.is .comment = true) → last.is .comment = false →
        last.span.endRow = comment.span.row →
        (Finds found near comment ↔ between ≠ [] ∧ (∀ u ∈ near, Continues decorated u) ∧
          Untrailed near (comment :: (between ++ last :: far))) := by
  obtain ⟨decorated, before, hstands, hcomments⟩ := standsBehind_of_mem hg hc
  refine ⟨decorated, before, attached decorated before, hstands, hcomments,
    attached_prefix before, ?_⟩
  intro near comment between last far hbefore hcomment hbetween hlast hrow
  have htrails : trails comment (between ++ last :: far) = false ↔ between ≠ [] := by
    cases between with
    | nil => simp [trails, hlast, hrow]
    | cons u between => simp [trails, hbetween u List.mem_cons_self]
  have hself : Continues decorated comment := fun _ => .inr hcomment
  rw [hbefore, finds_attached_iff (Tree.isNode_of_is hcomment), untrailed_append_singleton, htrails]
  simp only [List.forall_mem_append, List.forall_mem_singleton, hself, hcomment, forall_const,
    and_true]
  tauto

/-- A file with a comment behind a statement on its line, and one behind that on the next line. -/
def spacedFile : SourceFile :=
  let source : Syntax.Source := ⟨("const limit = 1; // @expose limitAPI\n// @expose\n" ++
    "export function reset(): void \x7b\x7d\n").toUTF8⟩
  ⟨⟨"/app/src/a.ts"⟩, source, Syntax.Dialect.plain.parse source⟩

theorem first_trailing_comment_not_kept :
    ∃ g ∈ ofFile spacedFile (Scope.ofFile spacedFile), ∃ c ∈ g.candidates,
      c.comments.map spacedFile.text = ["// @expose"] ∧
      ∃ decorated before found, c.StandsBehind spacedFile (Scope.ofFile spacedFile) decorated before ∧
        c.comments = found.filter (·.is .comment) ∧ found <+: before.filter Tree.isNode ∧
        ∀ near comment between last far,
          before = near ++ comment :: (between ++ last :: far) → comment.is .comment = true →
          (∀ u ∈ between, u.is .comment = true) → last.is .comment = false →
          last.span.endRow = comment.span.row →
          (Finds found near comment ↔ between ≠ [] ∧ (∀ u ∈ near, Continues decorated u) ∧
            Untrailed near (comment :: (between ++ last :: far))) := by
  have hfile : ∃ g ∈ ofFile spacedFile (Scope.ofFile spacedFile), ∃ c ∈ g.candidates,
      c.comments.map spacedFile.text = ["// @expose"] := by
    decide +kernel
  obtain ⟨g, hg, c, hc, htexts⟩ := hfile
  exact ⟨g, hg, c, hc, htexts, trailing_comment_kept_iff hg hc⟩

/-- A file with two comments behind a statement on its line. -/
def trailedFile : SourceFile :=
  let source : Syntax.Source := ⟨("const limit = 1; /* requests */ // @expose\n" ++
    "export function reset(): void \x7b\x7d\n").toUTF8⟩
  ⟨⟨"/app/src/a.ts"⟩, source, Syntax.Dialect.plain.parse source⟩

/-- The second comment exposes the function on the next line. -/
theorem second_trailing_comment_exposes :
    trailedFile.faultLine? = none ∧
    trailedFile.tree.children.map (fun t => (t.kind?, t.span.row, t.span.endRow)) =
      [(some .lexicalDeclaration, 0, 0), (some .comment, 0, 0), (some .comment, 0, 0),
        (some .exportStatement, 1, 1)] ∧
    ((ofFile trailedFile (Scope.ofFile trailedFile)).flatMap CandidateGroup.candidates).map
      (fun c => (c.name trailedFile, c.comments.map trailedFile.text)) =
        [("reset", ["// @expose"])] ∧
    (trailedFile.extract {}).methods.map Method.name = ["reset"] := by
  decide +kernel

end Candidate

end CallBridge
