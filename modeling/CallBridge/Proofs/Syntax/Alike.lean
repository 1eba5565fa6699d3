import CallBridge.Syntax.Source
import CallBridge.Syntax.Tree
import Mathlib.Data.List.Forall2

/-! # Trees that read alike, and comments between their parts

Trees of two sources read alike if they have one shape, one role and one text all over. Comments that
are put between the parts of a tree have no role, so a reader that looks for parts by their role, or
for parts of a kind, finds what it found before. The first part of all may be a comment then.
-/
namespace CallBridge.Syntax

namespace Tree

mutual

/-- The trees have one kind, role and text, in two sources, and so do their parts. -/
def alike (a b : Source) : Tree → Tree → Bool
  | .node k r s cs, .node k' r' s' cs' =>
    k == k' && r == r' && a.text s.start s.stop == b.text s'.start s'.stop && alikeAll a b cs cs'
  | .token w s, .token w' s' => w == w' && a.text s.start s.stop == b.text s'.start s'.stop
  | .missing s, .missing s' => a.text s.start s.stop == b.text s'.start s'.stop
  | _, _ => false

def alikeAll (a b : Source) : List Tree → List Tree → Bool
  | [], [] => true
  | t :: ts, t' :: ts' => alike a b t t' && alikeAll a b ts ts'
  | _, _ => false

end

def word? : Tree → Option String
  | .token w _ => some w
  | _ => none

/-- The trees agree on what a list of parts is searched for. -/
def Similar (t t' : Tree) : Prop :=
  t.kind? = t'.kind? ∧ t.field? = t'.field? ∧ t.word? = t'.word?

instance (t t' : Tree) : Decidable (Similar t t') :=
  inferInstanceAs (Decidable (_ ∧ _))

def IsComment : Tree → Prop
  | .node .comment none _ [] => True
  | _ => False

instance : DecidablePred IsComment := fun t => by
  unfold IsComment
  split <;> infer_instance

/-- The trees of a list, each related to one of the other list, with comments in between. -/
inductive Inserted (R : Tree → Tree → Prop) : List Tree → List Tree → Prop
  | nil : Inserted R [] []
  | keep {t t' : Tree} {ts ts' : List Tree} (ht : R t t') (hts : Inserted R ts ts') :
    Inserted R (t :: ts) (t' :: ts')
  | comment {c : Tree} {ts ts' : List Tree} (hc : IsComment c) (hts : Inserted R ts ts') :
    Inserted R ts (c :: ts')

/-- Similar trees, the parts of the first related to those of the second, with comments in between. -/
def Commented (R : Tree → Tree → Prop) (t t' : Tree) : Prop :=
  t.Similar t' ∧ Inserted R t.children t'.children

instance Inserted.decide (R : Tree → Tree → Prop) [DecidableRel R] :
    ∀ ts ts', Decidable (Inserted R ts ts')
  | [], [] => .isTrue .nil
  | t :: ts, [] => .isFalse (by rintro ⟨⟩)
  | [], c :: ts' =>
    have := Inserted.decide R [] ts'
    decidable_of_iff (IsComment c ∧ Inserted R [] ts')
      ⟨fun h => .comment h.1 h.2, fun h => by
        cases h with
        | comment hc hts => exact ⟨hc, hts⟩⟩
  | t :: ts, t' :: ts' =>
    have := Inserted.decide R ts ts'
    have := Inserted.decide R (t :: ts) ts'
    decidable_of_iff (R t t' ∧ Inserted R ts ts' ∨ IsComment t' ∧ Inserted R (t :: ts) ts')
      ⟨fun h => h.elim (fun h => .keep h.1 h.2) fun h => .comment h.1 h.2, fun h => by
        cases h with
        | keep ht hts => exact .inl ⟨ht, hts⟩
        | comment hc hts => exact .inr ⟨hc, hts⟩⟩

instance (R : Tree → Tree → Prop) [DecidableRel R] : DecidableRel (Commented R) := fun _ _ =>
  inferInstanceAs (Decidable (_ ∧ _))

instance decideRel (R : Tree → Tree → Prop) [DecidableRel R] :
    ∀ o o', Decidable (Option.Rel R o o')
  | none, none => .isTrue .none
  | some t, some t' => decidable_of_iff (R t t') ⟨.some, fun | .some h => h⟩
  | none, some _ => .isFalse (by rintro ⟨⟩)
  | some _, none => .isFalse (by rintro ⟨⟩)

variable {R : Tree → Tree → Prop} {t t' : Tree} {ts ts' : List Tree} {p : Tree → Bool}

theorem IsComment.eq {c : Tree} (hc : IsComment c) : ∃ s, c = .node .comment none s [] := by
  unfold IsComment at hc
  split at hc
  · exact ⟨_, rfl⟩
  · exact hc.elim

theorem Inserted.filter (h : Inserted R ts ts') (hp : ∀ t t', R t t' → p t = p t')
    (hc : ∀ c, IsComment c → p c = false) : List.Forall₂ R (ts.filter p) (ts'.filter p) := by
  induction h with
  | nil => exact .nil
  | @keep t t' ts ts' ht _ ih =>
    rw [List.filter_cons, List.filter_cons, ← hp t t' ht]
    split_ifs
    · exact .cons ht ih
    · exact ih
  | comment hcomment _ ih =>
    rw [List.filter_cons, hc _ hcomment]
    exact ih

theorem rel_head? {ts ts' : List Tree} (h : List.Forall₂ R ts ts') :
    Option.Rel R ts.head? ts'.head? := by
  cases h with
  | nil => exact .none
  | cons ht _ => exact .some ht

theorem Inserted.find? (h : Inserted R ts ts') (hp : ∀ t t', R t t' → p t = p t')
    (hc : ∀ c, IsComment c → p c = false) : Option.Rel R (ts.find? p) (ts'.find? p) := by
  rw [← List.head?_filter, ← List.head?_filter]
  exact rel_head? (h.filter hp hc)

theorem Inserted.any_eq (h : Inserted R ts ts') (hp : ∀ t t', R t t' → p t = p t')
    (hc : ∀ c, IsComment c → p c = false) : ts.any p = ts'.any p := by
  induction h with
  | nil => rfl
  | @keep t t' ts ts' ht _ ih => rw [List.any_cons, List.any_cons, hp t t' ht, ih]
  | comment hcomment _ ih => rw [List.any_cons, hc _ hcomment, Bool.false_or, ih]

theorem Inserted.of_forall₂ (h : List.Forall₂ R ts ts') : Inserted R ts ts' := by
  induction h with
  | nil => exact .nil
  | cons ht _ ih => exact .keep ht ih

theorem Inserted.mono {Q : Tree → Tree → Prop} (h : Inserted R ts ts')
    (hQ : ∀ t t', R t t' → Q t t') : Inserted Q ts ts' := by
  induction h with
  | nil => exact .nil
  | keep ht _ ih => exact .keep (hQ _ _ ht) ih
  | comment hc _ ih => exact .comment hc ih

theorem Commented.mono {Q : Tree → Tree → Prop} (h : Commented R t t')
    (hQ : ∀ t t', R t t' → Q t t') : Commented Q t t' :=
  ⟨h.1, h.2.mono hQ⟩

theorem Similar.isToken_eq (h : t.Similar t') (w : String) : t.isToken w = t'.isToken w := by
  have hword : ∀ u : Tree, u.isToken w = (u.word? == some w) := by
    rintro ⟨⟩ <;> rfl
  rw [hword, hword, h.2.2]

theorem Similar.is_eq (h : t.Similar t') (k : Kind) : t.is k = t'.is k := by
  rw [is, is, h.1]

theorem IsComment.is_eq_false {c : Tree} (hc : IsComment c) {k : Kind} (hk : k ≠ .comment) :
    c.is k = false := by
  obtain ⟨s, rfl⟩ := hc.eq
  simpa [is, kind?] using hk.symm

theorem field?_of_child? {part : Tree} {r : Field} (h : t.child? r = some part) :
    part.field? = some r := by
  simpa using List.find?_some h

section Commented
variable (h : Commented R t t')
include h

variable (hR : ∀ t t', R t t' → t.Similar t')
include hR

theorem Commented.child? (r : Field) : Option.Rel R (t.child? r) (t'.child? r) := by
  refine h.2.find? (fun t t' ht => by rw [(hR t t' ht).2.1]) fun c hc => ?_
  obtain ⟨s, rfl⟩ := hc.eq
  rfl

/-- What the relation says of a part in a role holds of the part with the role. -/
theorem Commented.child?_of {Q : Tree → Tree → Prop} (r : Field)
    (hQ : ∀ p p', p.field? = some r → R p p' → Q p p') : Option.Rel Q (t.child? r) (t'.child? r) := by
  have hpart := h.child? hR r
  generalize hfound : t.child? r = o at hpart
  generalize t'.child? r = o' at hpart
  cases hpart with
  | none => exact .none
  | some hpart => exact .some (hQ _ _ (field?_of_child? hfound) hpart)

theorem Commented.hasToken_eq (w : String) : t.hasToken w = t'.hasToken w := by
  refine h.2.any_eq (fun t t' ht => (hR t t' ht).isToken_eq w) fun c hc => ?_
  obtain ⟨s, rfl⟩ := hc.eq
  rfl

/-- Parts that are looked for and are no comments are those that were there. -/
theorem Commented.nodes_filter (hp : ∀ t t', R t t' → p t = p t')
    (hc : ∀ c, IsComment c → p c = false) :
    List.Forall₂ R (t.nodes.filter p) (t'.nodes.filter p) := by
  unfold nodes
  rw [List.filter_filter, List.filter_filter]
  refine h.2.filter (fun t t' ht => ?_) fun c hcomment => ?_
  · rw [isNode, isNode, (hR t t' ht).1, hp t t' ht]
  · rw [hc c hcomment, Bool.false_and]

/-- The first part that is a node is the one that was there, or a comment in front of it. -/
theorem Commented.firstNode? :
    Option.Rel R t.firstNode? t'.firstNode? ∨ ∃ c ∈ t'.firstNode?, IsComment c := by
  have hparts := h.2
  have hfirst : ∀ u : Tree, u.firstNode? = u.children.find? isNode := fun u => List.head?_filter
  rw [hfirst, hfirst]
  generalize t.children = ts at hparts
  generalize t'.children = ts' at hparts
  induction hparts with
  | nil => exact .inl .none
  | @keep u u' ts ts' hu _ ih =>
    have hnode : u.isNode = u'.isNode := by rw [isNode, isNode, (hR u u' hu).1]
    rw [List.find?_cons, List.find?_cons, ← hnode]
    cases u.isNode with
    | true => exact .inl (.some hu)
    | false => exact ih
  | @comment c ts ts' hc _ _ =>
    obtain ⟨s, rfl⟩ := hc.eq
    exact .inr ⟨_, rfl, trivial⟩

end Commented

section Alike
variable {a b : Source}

theorem alikeAll_iff : alikeAll a b ts ts' = true ↔
    List.Forall₂ (fun t t' => alike a b t t' = true) ts ts' := by
  induction ts generalizing ts' with
  | nil =>
    cases ts' with
    | nil => simp [alikeAll]
    | cons t' ts' => simp [alikeAll]
  | cons t ts ih =>
    cases ts' with
    | nil => simp [alikeAll]
    | cons t' ts' => simp [alikeAll, ih]

variable (h : alike a b t t' = true)
include h

theorem similar_of_alike : t.Similar t' := by
  unfold alike at h
  split at h
  · simp only [Bool.and_eq_true, beq_iff_eq] at h
    obtain ⟨⟨⟨rfl, rfl⟩, -⟩, -⟩ := h
    exact ⟨rfl, rfl, rfl⟩
  · simp only [Bool.and_eq_true, beq_iff_eq] at h
    obtain ⟨rfl, -⟩ := h
    exact ⟨rfl, rfl, rfl⟩
  · exact ⟨rfl, rfl, rfl⟩
  · cases h

theorem text_of_alike : a.text t.span.start t.span.stop = b.text t'.span.start t'.span.stop := by
  unfold alike at h
  split at h
  · simp only [Bool.and_eq_true, beq_iff_eq] at h
    exact h.1.2
  · simp only [Bool.and_eq_true, beq_iff_eq] at h
    exact h.2
  · exact beq_iff_eq.mp h
  · cases h

theorem parts_of_alike :
    List.Forall₂ (fun t t' => alike a b t t' = true) t.children t'.children := by
  unfold alike at h
  split at h
  · simp only [Bool.and_eq_true] at h
    exact alikeAll_iff.mp h.2
  · exact .nil
  · exact .nil
  · cases h

/-- A tree that reads alike is one without comments between its parts. -/
theorem commented_of_alike : Commented (fun t t' => alike a b t t' = true) t t' :=
  ⟨similar_of_alike h, .of_forall₂ (parts_of_alike h)⟩

theorem nodes_of_alike : List.Forall₂ (fun t t' => alike a b t t' = true) t.nodes t'.nodes := by
  refine List.rel_filter (fun t t' ht => ?_) (parts_of_alike h)
  have hnode : t.isNode = t'.isNode := by rw [isNode, isNode, (similar_of_alike ht).1]
  exact Bool.eq_iff_iff.mp hnode

end Alike

end Tree

end CallBridge.Syntax
