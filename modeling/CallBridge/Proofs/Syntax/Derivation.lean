import CallBridge.Syntax.Grammar
import Mathlib.Data.List.TakeWhile

/-! # What a rule derives

A rule derives lists of trees, without the comments that stand among them. What is read by a rule is
derived by it, however far the reader looks ahead and whichever alternative it takes. Facts on all trees
that can be read follow by induction on derivations, and the reader with its bound on steps and its
places is not looked at again.
-/
namespace CallBridge.Syntax

def bare (ts : List Tree) : List Tree :=
  ts.filter fun t => !t.is .comment

def giveRole (role : Option Field) (ts : List Tree) : List Tree :=
  match role with
  | some f => ts.map (Tree.withField f)
  | none => ts

def CommentsApart (ts : List Tree) : Prop :=
  ∀ t ∈ ts, t.is .comment = true → t.field? = none

/-- The trees that a rule gives for some text of a source, without comments. -/
inductive Derives (s : Source) (g : Symbol → Rule) : Rule → List Tree → Prop
  | token (text unlessBefore : String) (span : Span) :
    Derives s g (.token text unlessBefore) [.token text span]
  | leaf {kind : Kind} {lexeme : Lexeme} {span : Span}
    (stop : lexeme.stop? s span.start = some span.stop) :
    Derives s g (.leaf kind lexeme) (bare [.node kind none span []])
  | raw (lexeme : Lexeme) : Derives s g (.raw lexeme) []
  | rawToken (text : String) (span : Span) : Derives s g (.rawToken text) [.token text span]
  | ref {symbol : Symbol} {ts : List Tree} (h : Derives s g (g symbol) ts) :
    Derives s g (.ref symbol) ts
  | nil : Derives s g (.seq []) []
  | cons {r : Rule} {rs : List Rule} {ts us : List Tree} (first : Derives s g r ts)
    (rest : Derives s g (.seq rs) us) : Derives s g (.seq (r :: rs)) (ts ++ us)
  | choice {r : Rule} {rs : List Rule} {ts : List Tree} (mem : r ∈ rs) (h : Derives s g r ts) :
    Derives s g (.choice rs) ts
  | none (r : Rule) : Derives s g (.many r) []
  | more {r : Rule} {ts us : List Tree} (first : Derives s g r ts)
    (rest : Derives s g (.many r) us) : Derives s g (.many r) (ts ++ us)
  | absent (r : Rule) : Derives s g (.optional r) []
  | present {r : Rule} {ts : List Tree} (h : Derives s g r ts) : Derives s g (.optional r) ts
  | node {kind : Kind} {r : Rule} {cs : List Tree} (span : Span) (parts : Derives s g r (bare cs))
    (comments : CommentsApart cs) : Derives s g (.node kind r) (bare [.node kind none span cs])
  | field {f : Field} {r : Rule} {ts : List Tree} (h : Derives s g r ts) :
    Derives s g (.field f r) (ts.map (Tree.withField f))
  | base {r : Rule} {tails : List (Kind × Option Field × Rule)} {ts : List Tree}
    (h : Derives s g r ts) : Derives s g (.chain r tails) ts
  | tail {r : Rule} {tails : List (Kind × Option Field × Rule)} {kind : Kind} {role : Option Field}
    {last : Rule} {ts us cs : List Tree} (span : Span) (mem : (kind, role, last) ∈ tails)
    (inner : Derives s g (.chain r tails) ts) (behind : Derives s g last us)
    (parts : bare cs = giveRole role ts ++ us) :
    Derives s g (.chain r tails) (bare [.node kind none span cs])
  | ahead (r : Rule) : Derives s g (.ahead r) []
  | never (r : Rule) : Derives s g (.never r) []
  | semicolon (operand signature : Bool) (span : Span) :
    Derives s g (.semicolon operand signature) [.token ";" span]
  | unwritten (operand signature : Bool) : Derives s g (.semicolon operand signature) []
  | softEnd : Derives s g .softEnd []
  | joined (operand : Bool) : Derives s g (.joined operand) []
  | within {statement : Bool} {r : Rule} {ts : List Tree} (h : Derives s g r ts) :
    Derives s g (.within statement r) ts
  | construct {r : Rule} {ts : List Tree} (h : Derives s g r ts) : Derives s g (.construct r) ts
  | whole {r : Rule} {ts : List Tree} (h : Derives s g r ts) : Derives s g (.whole r) ts

section Bare
variable {t : Tree} {ts us : List Tree} {f : Field}

@[simp]
theorem bare_append : bare (ts ++ us) = bare ts ++ bare us :=
  List.filter_append ..

theorem mem_bare : t ∈ bare ts ↔ t ∈ ts ∧ t.is .comment = false := by
  rw [bare, List.mem_filter, Bool.not_eq_true']

theorem bare_eq_nil (h : ∀ t ∈ ts, t.is .comment = true) : bare ts = [] :=
  List.filter_eq_nil_iff.mpr fun t ht => by simp [h t ht]

@[simp]
theorem is_withField (k : Kind) : (t.withField f).is k = t.is k := by
  cases t <;> rfl

theorem bare_map_withField : bare (ts.map (Tree.withField f)) = (bare ts).map (Tree.withField f) := by
  rw [bare, bare, List.filter_map]
  congr 1
  refine List.filter_congr fun t _ => ?_
  rw [Function.comp_apply, is_withField]

theorem bare_giveRole (role : Option Field) : bare (giveRole role ts) = giveRole role (bare ts) := by
  cases role with
  | none => rfl
  | some f => exact bare_map_withField

theorem bare_map_field :
    bare (ts.map fun t => if t.is .comment then t else t.withField f) =
      (bare ts).map (Tree.withField f) := by
  induction ts with
  | nil => rfl
  | cons t ts ih =>
    rw [List.map_cons, ← List.singleton_append, bare_append, ih, ← List.singleton_append (l := ts),
      bare_append, List.map_append]
    cases ht : t.is .comment with
    | true => simp [bare, ht]
    | false => simp [bare, ht]

theorem commentsApart_append : CommentsApart (ts ++ us) ↔ CommentsApart ts ∧ CommentsApart us :=
  List.forall_mem_append

theorem commentsApart_node {kind : Kind} {span : Span} {cs : List Tree} :
    CommentsApart [.node kind none span cs] := by
  intro t ht _
  obtain rfl := List.mem_singleton.mp ht
  rfl

theorem CommentsApart.map_field (h : CommentsApart ts) :
    CommentsApart (ts.map fun t => if t.is .comment then t else t.withField f) := by
  intro u hu hcomment
  obtain ⟨t, ht, rfl⟩ := List.mem_map.mp hu
  split_ifs at hcomment ⊢ with hkind
  · exact h t ht hkind
  · rw [is_withField] at hcomment
    exact absurd hcomment hkind

theorem splitComments_append (ts : List Tree) :
    (splitComments ts).1 ++ (splitComments ts).2 = ts :=
  List.takeWhile_append_dropWhile

theorem is_comment_of_front (h : t ∈ (splitComments ts).1) : t.is .comment = true :=
  List.mem_takeWhile_imp (p := fun t : Tree => t.is .comment) h

theorem not_comment_of_behind {rest : List Tree} (h : (splitComments ts).2 = t :: rest) :
    t.is .comment = false := by
  have hfirst := List.find?_eq_head?_dropWhile_not (fun u : Tree => !u.is .comment) ts
  simp only [Bool.not_not] at hfirst
  have hdrop : ts.dropWhile (fun u : Tree => u.is .comment) = t :: rest := h
  rw [hdrop, List.head?_cons] at hfirst
  simpa using List.find?_some hfirst

theorem bare_splitComments (ts : List Tree) : bare (splitComments ts).2 = bare ts := by
  have hfront : bare (splitComments ts).1 = [] := bare_eq_nil fun t ht => is_comment_of_front ht
  have hall := congrArg bare (splitComments_append ts)
  rw [bare_append, hfront, List.nil_append] at hall
  exact hall

theorem CommentsApart.split (h : CommentsApart ts) :
    CommentsApart (splitComments ts).1 ∧ CommentsApart (splitComments ts).2 := by
  rw [← commentsApart_append, splitComments_append]
  exact h

end Bare

inductive Reading.Gives (P : List Tree → Prop) : Reading → Prop
  | read {ts : List Tree} (p : Place) (r : Reach) (h : P ts) : Gives P (.read ts p r)
  | failed (r : Reach) : Gives P (.failed r)

namespace Reading
variable {P Q : List Tree → Prop} {x : Reading}

theorem Gives.of_read {ts : List Tree} {p : Place} {r : Reach}
    (h : (Reading.read ts p r).Gives P) : P ts := by
  cases h with
  | read _ _ h => exact h

theorem Gives.upTo (h : x.Gives P) (r : Reach) : (x.upTo r).Gives P := by
  cases h with
  | read p r' h => exact .read p _ h
  | failed r' => exact .failed _

theorem Gives.mono (h : x.Gives P) (hPQ : ∀ ts, P ts → Q ts) : x.Gives Q := by
  cases h with
  | read p r h => exact .read p r (hPQ _ h)
  | failed r => exact .failed r

theorem Gives.andThen {f : List Tree → Place → Reading} (h : x.Gives P)
    (hf : ∀ ts p, P ts → (f ts p).Gives Q) : (x.andThen f).Gives Q := by
  cases h with
  | read p r h => exact (hf _ p h).upTo r
  | failed r => exact .failed r

end Reading

/-- The trees are derived by a rule, with comments among them that have no role. -/
structure Reads (s : Source) (g : Symbol → Rule) (r : Rule) (ts : List Tree) : Prop where
  derives : Derives s g r (bare ts)
  comments : CommentsApart ts

section Reads
variable {s : Source} {g : Symbol → Rule} {r : Rule} {c : Context} {p q : Place} {ts : List Tree}

theorem commentsFrom_isComment {fuel : Nat} {done : List Tree}
    (hdone : ∀ t ∈ done, t.is .comment = true ∧ t.field? = none) :
    ∀ t ∈ (commentsFrom s fuel p done).1, t.is .comment = true ∧ t.field? = none := by
  induction fuel generalizing p done with
  | zero => exact fun t ht => hdone t (List.mem_reverse.mp ht)
  | succ fuel ih =>
    unfold commentsFrom
    dsimp only
    split
    · exact ih (List.forall_mem_cons.mpr ⟨⟨rfl, rfl⟩, hdone⟩)
    · exact fun t ht => hdone t (List.mem_reverse.mp ht)

theorem semicolonFrom_isComment {operand signature : Bool} {fuel : Nat} {done : List Tree}
    (hdone : ∀ t ∈ done, t.is .comment = true ∧ t.field? = none)
    (h : semicolonFrom c operand signature fuel p done = some (ts, q)) :
    ∀ t ∈ ts, t.is .comment = true ∧ t.field? = none := by
  induction fuel generalizing p done with
  | zero => cases h
  | succ fuel ih =>
    unfold semicolonFrom at h
    dsimp only at h
    split_ifs at h
    · cases h
      exact fun t ht => hdone t (List.mem_reverse.mp ht)
    · split at h
      · exact ih (List.forall_mem_cons.mpr ⟨⟨rfl, rfl⟩, hdone⟩) h
      · cases h

theorem Reads.of_comments {cs ts : List Tree}
    (hcs : ∀ t ∈ cs, t.is .comment = true ∧ t.field? = none) (h : Reads s g r ts) :
    Reads s g r (cs ++ ts) where
  derives := by
    rw [bare_append, bare_eq_nil fun t ht => (hcs t ht).1, List.nil_append]
    exact h.derives
  comments := commentsApart_append.mpr ⟨fun t ht _ => (hcs t ht).2, h.comments⟩

theorem Reads.nil (h : Derives s g r []) : Reads s g r [] :=
  ⟨h, List.forall_mem_nil _⟩

theorem Reads.unwritten {operand signature : Bool} (h : c.unwritten? operand signature p = some (ts, q))
    (hr : Derives s g r []) : Reads s g r ts := by
  have hcs := semicolonFrom_isComment (List.forall_mem_nil _) h
  rw [← List.append_nil ts]
  exact .of_comments hcs (.nil hr)

/-- A node is built around parts. The comments in front of them stay outside. -/
theorem reads_buildNode {kind : Kind} (h : ∀ t ∈ (splitComments ts).1, t.field? = none)
    (hnode : ∀ span, Derives s g r (bare [.node kind none span (splitComments ts).2])) :
    Reads s g r (buildNode kind ts p) :=
  .of_comments (fun t ht => ⟨is_comment_of_front ht, h t ht⟩) ⟨hnode _, commentsApart_node⟩

theorem Reads.front (h : Reads s g r ts) : ∀ t ∈ (splitComments ts).1, t.field? = none :=
  fun t ht => h.comments.split.1 t ht (is_comment_of_front ht)

theorem Reads.node {kind : Kind} (h : Reads s g r ts) :
    Reads s g (.node kind r) (buildNode kind ts p) := by
  refine reads_buildNode h.front fun span => .node span ?_ h.comments.split.2
  rw [bare_splitComments]
  exact h.derives

theorem Reads.field {f : Field} (h : Reads s g r ts) :
    Reads s g (.field f r) (ts.map fun t => if t.is .comment then t else t.withField f) where
  derives := by
    rw [bare_map_field]
    exact .field h.derives
  comments := h.comments.map_field

theorem Reads.append {rs : List Rule} {us : List Tree} (h : Reads s g r ts)
    (hrs : Reads s g (.seq rs) us) : Reads s g (.seq (r :: rs)) (ts ++ us) where
  derives := by
    rw [bare_append]
    exact .cons h.derives hrs.derives
  comments := commentsApart_append.mpr ⟨h.comments, hrs.comments⟩

theorem Reads.more {us : List Tree} (h : Reads s g r ts) (hmany : Reads s g (.many r) us) :
    Reads s g (.many r) (ts ++ us) where
  derives := by
    rw [bare_append]
    exact .more h.derives hmany.derives
  comments := commentsApart_append.mpr ⟨h.comments, hmany.comments⟩

theorem front_giveRole {role : Option Field} {us : List Tree}
    (hus : ∀ t ∈ (splitComments us).1, t.field? = none) :
    ∀ t ∈ (splitComments (giveRole role (splitComments ts).2 ++ us)).1, t.field? = none := by
  cases hparts : (splitComments ts).2 with
  | nil => cases role <;> exact hus
  | cons u parts =>
    -- The first part is no comment, and nothing is in front of it.
    have hfirst := not_comment_of_behind hparts
    cases role <;> simp [giveRole, splitComments, hfirst]

theorem Reads.chain {tails : List (Kind × Option Field × Rule)} {kind : Kind} {role : Option Field}
    {last : Rule} {us : List Tree} (h : Reads s g (.chain r tails) ts)
    (hmem : (kind, role, last) ∈ tails) (hlast : Reads s g last us) :
    Reads s g (.chain r tails)
      ((splitComments ts).1 ++ buildNode kind (giveRole role (splitComments ts).2 ++ us) p) := by
  refine .of_comments (fun t ht => ⟨is_comment_of_front ht, h.front t ht⟩) ?_
  refine reads_buildNode (front_giveRole hlast.front) fun span =>
    .tail span hmem h.derives hlast.derives ?_
  rw [bare_splitComments, bare_append, bare_giveRole, bare_splitComments]

theorem reads_comments (s : Source) (p : Place) :
    ∀ t ∈ (comments s p).1, t.is .comment = true ∧ t.field? = none :=
  commentsFrom_isComment (List.forall_mem_nil _)

theorem gives_stop {stop? : Nat → Option Nat} {tree : Span → Tree}
    (h : ∀ span : Span, stop? span.start = some span.stop →
      Reads c.source c.grammar r [tree span]) :
    (c.stop p stop? tree).Gives (Reads c.source c.grammar r) := by
  unfold Context.stop
  dsimp only
  split
  · next stop hstop => exact .read _ _ (.of_comments (reads_comments c.source p) (h _ hstop))
  · exact .failed _

theorem reads_leaf {kind : Kind} {lexeme : Lexeme} {span : Span}
    (h : lexeme.stop? s span.start = some span.stop) :
    Reads s g (.leaf kind lexeme) [.node kind none span []] :=
  ⟨.leaf h, commentsApart_node⟩

theorem reads_token (text : String) (span : Span) (h : Derives s g r [.token text span]) :
    Reads s g r [.token text span] :=
  ⟨h, fun t ht hcomment => by
    obtain rfl := List.mem_singleton.mp ht
    cases hcomment⟩

end Reads

structure SoundWithin (fuel : Nat) : Prop where
  rule (c : Context) (r : Rule) (p : Place) :
    (readRule fuel c r p).Gives (Reads c.source c.grammar r)
  seq (c : Context) (rs : List Rule) (p : Place) :
    (readSeq fuel c rs p).Gives (Reads c.source c.grammar (.seq rs))
  choice (c : Context) (rs : List Rule) (p : Place) :
    (readChoice fuel c rs p).Gives (Reads c.source c.grammar (.choice rs))
  many (c : Context) (r : Rule) (p : Place) :
    (readMany fuel c r p).Gives (Reads c.source c.grammar (.many r))
  tails (c : Context) (r : Rule) (tails : List (Kind × Option Field × Rule)) (ts : List Tree)
    (p : Place) (h : Reads c.source c.grammar (.chain r tails) ts) :
    (readTails fuel c tails ts p).Gives (Reads c.source c.grammar (.chain r tails))
  tail (c : Context) (r : Rule) (tails some : List (Kind × Option Field × Rule)) (ts : List Tree)
    (p : Place) (hsome : some ⊆ tails) (h : Reads c.source c.grammar (.chain r tails) ts) :
    (readTail fuel c some ts p).Gives (Reads c.source c.grammar (.chain r tails))

namespace SoundWithin
variable {fuel : Nat} (h : SoundWithin fuel) (c : Context) (p : Place)

theorem zero : SoundWithin 0 where
  rule _ _ _ := by rw [readRule]; exact .failed _
  seq _ _ _ := by rw [readSeq]; exact .failed _
  choice _ _ _ := by rw [readChoice]; exact .failed _
  many _ _ _ := by rw [readMany]; exact .failed _
  tails _ _ _ _ _ _ := by rw [readTails]; exact .failed _
  tail _ _ _ _ _ _ _ _ := by rw [readTail]; exact .failed _

include h

theorem rule_succ (r : Rule) : (readRule (fuel + 1) c r p).Gives (Reads c.source c.grammar r) := by
  cases r with
  | token text unlessBefore =>
    rw [readRule]
    exact gives_stop fun span _ => reads_token _ _ (.token ..)
  | leaf kind lexeme =>
    rw [readRule]
    exact gives_stop fun span hstop => reads_leaf hstop
  | raw lexeme =>
    rw [readRule]
    cases lexeme.stop? c.source p.pos with
    | none => exact .failed _
    | some stop => exact .read _ _ (.nil (.raw lexeme))
  | rawToken text =>
    rw [readRule]
    split_ifs
    · exact .read _ _ (reads_token _ _ (.rawToken ..))
    · exact .failed _
  | ref symbol =>
    rw [readRule]
    exact (h.rule c _ p).mono fun ts hts => ⟨.ref hts.derives, hts.comments⟩
  | seq rs =>
    rw [readRule]
    exact h.seq c rs p
  | choice rs =>
    rw [readRule]
    exact h.choice c rs p
  | many r =>
    rw [readRule]
    exact h.many c r p
  | optional r =>
    rw [readRule]
    have hr := h.rule c r p
    split
    · next hread =>
      rw [hread] at hr
      exact .read _ _ ⟨.present hr.of_read.derives, hr.of_read.comments⟩
    · exact .read _ _ (.nil (.absent r))
  | node kind r =>
    rw [readRule]
    exact (h.rule c r p).andThen fun ts q hts => .read _ _ hts.node
  | field f r =>
    rw [readRule]
    exact (h.rule c r p).andThen fun ts q hts => .read _ _ hts.field
  | chain r tails =>
    rw [readRule]
    exact (h.rule c r p).andThen fun ts q hts =>
      h.tails c r tails ts q ⟨.base hts.derives, hts.comments⟩
  | ahead r =>
    rw [readRule]
    split
    · exact .read _ _ (.nil (.ahead r))
    · exact .failed _
  | never r =>
    rw [readRule]
    split
    · exact .failed _
    · exact .read _ _ (.nil (.never r))
  | semicolon operand signature =>
    rw [readRule]
    split
    · next hunwritten => exact .read _ _ (.unwritten hunwritten (.unwritten ..))
    · exact gives_stop fun span _ => reads_token _ _ (.semicolon ..)
  | softEnd =>
    rw [readRule]
    split
    · next hunwritten => exact .read _ _ (.unwritten hunwritten .softEnd)
    · exact .read _ _ (.nil .softEnd)
  | joined operand =>
    rw [readRule]
    split_ifs
    · exact .failed _
    · exact .read _ _ (.nil (.joined operand))
  | within statement r =>
    rw [readRule]
    exact (h.rule _ r p).mono fun ts hts => ⟨.within hts.derives, hts.comments⟩
  | construct r =>
    rw [readRule]
    exact (h.rule _ r p).mono fun ts hts => ⟨.construct hts.derives, hts.comments⟩
  | whole r =>
    rw [readRule]
    exact (h.rule _ r p).mono fun ts hts => ⟨.whole hts.derives, hts.comments⟩

theorem seq_succ (rs : List Rule) :
    (readSeq (fuel + 1) c rs p).Gives (Reads c.source c.grammar (.seq rs)) := by
  cases rs with
  | nil =>
    rw [readSeq]
    exact .read _ _ (.nil .nil)
  | cons r rs =>
    rw [readSeq]
    exact (h.rule c r p).andThen fun ts q hts =>
      (h.seq c rs q).andThen fun us q hus => .read _ _ (hts.append hus)

theorem choice_succ (rs : List Rule) :
    (readChoice (fuel + 1) c rs p).Gives (Reads c.source c.grammar (.choice rs)) := by
  cases rs with
  | nil =>
    rw [readChoice]
    exact .failed _
  | cons r rs =>
    rw [readChoice]
    have hr := h.rule c r p
    split
    · next hread =>
      rw [hread] at hr
      exact .read _ _ ⟨.choice List.mem_cons_self hr.of_read.derives, hr.of_read.comments⟩
    · refine ((h.choice c rs p).mono fun ts hts => ⟨?_, hts.comments⟩).upTo _
      cases hts.derives with
      | choice hmem hr => exact .choice (List.mem_cons_of_mem _ hmem) hr

theorem many_succ (r : Rule) :
    (readMany (fuel + 1) c r p).Gives (Reads c.source c.grammar (.many r)) := by
  rw [readMany]
  have hr := h.rule c r p
  split
  · next ts q reach hread =>
    rw [hread] at hr
    split_ifs
    · exact .read _ _ (.nil (.none r))
    · exact ((h.many c r q).andThen fun us q hus => .read _ _ (hr.of_read.more hus)).upTo _
  · exact .read _ _ (.nil (.none r))

theorem tails_succ (r : Rule) (tails : List (Kind × Option Field × Rule)) (ts : List Tree)
    (hts : Reads c.source c.grammar (.chain r tails) ts) :
    (readTails (fuel + 1) c tails ts p).Gives (Reads c.source c.grammar (.chain r tails)) := by
  rw [readTails]
  have htail := h.tail c r tails tails ts p (List.Subset.refl tails) hts
  split
  · next us q reach hread =>
    rw [hread] at htail
    exact (h.tails c r tails us q htail.of_read).upTo _
  · exact .read _ _ hts

theorem tail_succ (r : Rule) (tails some : List (Kind × Option Field × Rule)) (ts : List Tree)
    (hsome : some ⊆ tails) (hts : Reads c.source c.grammar (.chain r tails) ts) :
    (readTail (fuel + 1) c some ts p).Gives (Reads c.source c.grammar (.chain r tails)) := by
  cases some with
  | nil =>
    rw [readTail]
    exact .failed _
  | cons first some =>
    obtain ⟨kind, role, last⟩ := first
    rw [readTail]
    have hlast := h.rule c last p
    split
    · next us q reach hread =>
      rw [hread] at hlast
      exact .read _ _ (hts.chain (hsome List.mem_cons_self) hlast.of_read)
    · exact (h.tail c r tails some ts p (List.subset_of_cons_subset hsome) hts).upTo _

end SoundWithin

theorem soundWithin (fuel : Nat) : SoundWithin fuel := by
  induction fuel with
  | zero => exact .zero
  | succ fuel h =>
    exact {
      rule := fun c r p => h.rule_succ c p r
      seq := fun c rs p => h.seq_succ c p rs
      choice := fun c rs p => h.choice_succ c p rs
      many := fun c r p => h.many_succ c p r
      tails := fun c r tails ts p => h.tails_succ c p r tails ts
      tail := fun c r tails some ts p => h.tail_succ c p r tails some ts }

theorem derives_of_readRule {fuel : Nat} {c : Context} {r : Rule} {p q : Place} {ts : List Tree}
    {reach : Reach} (h : readRule fuel c r p = .read ts q reach) :
    Derives c.source c.grammar r (bare ts) ∧ CommentsApart ts := by
  have hread := (soundWithin fuel).rule c r p
  rw [h] at hread
  exact ⟨hread.of_read.derives, hread.of_read.comments⟩

/-- The tree of a source has the trees of a program, and an error for what is no part of it. -/
theorem Dialect.bare_parse (d : Dialect) (s : Source) :
    ∃ ts rest : List Tree, bare (d.parse s).children = ts ++ rest ∧
      (ts = [] ∨ Derives s d.rule Grammar.program ts) ∧
      ∀ t ∈ rest, t.is .error = true ∧ t.children = [] := by
  unfold Dialect.parse
  dsimp only
  split
  · next ts p reach hread =>
    obtain ⟨hderives, -⟩ := derives_of_readRule hread
    have hcomments : bare (comments s p).1 = [] :=
      bare_eq_nil fun t ht => (reads_comments s p t ht).1
    rw [Tree.children, bare_append, bare_append, hcomments, List.append_nil]
    refine ⟨bare ts, _, rfl, .inr hderives, fun t ht => ?_⟩
    obtain ⟨ht, -⟩ := mem_bare.mp ht
    split_ifs at ht
    · cases ht
    · obtain rfl := List.mem_singleton.mp ht
      exact ⟨rfl, rfl⟩
  · refine ⟨[], _, rfl, .inl rfl, fun t ht => ?_⟩
    obtain rfl := List.mem_singleton.mp ht
    exact ⟨rfl, rfl⟩

end CallBridge.Syntax
