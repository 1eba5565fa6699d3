import CallBridge.Proofs.Syntax.Derivation

/-! # Parts of declarations

What stands for the name of a function, a class, a method or a variable is found by looking through the
rules of the grammar: for each kind of declaration, the rule that gives the part in the role of the name,
and the nodes that this rule makes. That every rule of the grammar gives such parts is decided once, and
holds of all trees then.
-/
namespace CallBridge.Syntax

/-- A node by what makes it: its kind, and the class that its text belongs to if it is a leaf. -/
structure Head where
  kind : Kind
  lexeme? : Option Lexeme
  deriving DecidableEq

structure Head.Fits (s : Source) (h : Head) (t : Tree) : Prop where
  kind : t.kind? = some h.kind
  leaf : ∀ l ∈ h.lexeme?, t.children = [] ∧ l.stop? s t.span.start = some t.span.stop

/-- The parts that a declaration of a kind has, by their roles, and the nodes that they may be. -/
def declaredParts : Kind → List (Field × List Head)
  | .functionDeclaration | .generatorFunctionDeclaration => [(.name, [⟨.identifier, some .word⟩])]
  | .classDeclaration | .abstractClassDeclaration =>
    [(.name, [⟨.typeIdentifier, some .word⟩]), (.body, [⟨.classBody, none⟩])]
  | .methodDefinition => [(.name, [⟨.propertyIdentifier, some .word⟩,
      ⟨.privatePropertyIdentifier, some .privateWord⟩, ⟨.string, some .string⟩,
      ⟨.number, some .number⟩, ⟨.computedPropertyName, none⟩])]
  | .variableDeclarator => [(.name, [⟨.identifier, some .word⟩, ⟨.objectPattern, none⟩,
      ⟨.arrayPattern, none⟩])]
  | _ => []

namespace Rule

mutual

/-- The nodes that a rule makes, with the rules for their parts if these make all of them. -/
def forms : Rule → List (Kind × Option Rule)
  | .token _ _ | .raw _ | .rawToken _ | .ref _ | .semicolon _ _ | .softEnd | .joined _ => []
  | .leaf kind _ => [(kind, none)]
  | .node kind r => (kind, some r) :: forms r
  | .seq rs | .choice rs => formsAll rs
  | .many r | .optional r | .field _ r | .within _ r | .construct r | .whole r => forms r
  | .ahead _ | .never _ => []
  | .chain r tails => forms r ++ formsOfTails tails

def formsAll : List Rule → List (Kind × Option Rule)
  | [] => []
  | r :: rs => forms r ++ formsAll rs

def formsOfTails : List (Kind × Option Field × Rule) → List (Kind × Option Rule)
  | [] => []
  | (kind, _, r) :: tails => (kind, none) :: forms r ++ formsOfTails tails

end

mutual

def heads? : Rule → Option (List Head)
  | .leaf kind lexeme => some [⟨kind, some lexeme⟩]
  | .node kind _ => some [⟨kind, none⟩]
  | .choice rs => headsOf? rs
  | _ => none

def headsOf? : List Rule → Option (List Head)
  | [] => some []
  | r :: rs => (heads? r).bind fun hs => (headsOf? rs).map (hs ++ ·)

end

def headsIn? (g : Symbol → Rule) : Rule → Option (List Head)
  | .ref symbol => heads? (g symbol)
  | r => heads? r

mutual

def lacks (g : Symbol → Rule) (role : Field) : Rule → Bool
  | .token _ _ | .leaf _ _ | .raw _ | .rawToken _ | .node _ _ | .semicolon _ _ | .softEnd
  | .joined _ | .ahead _ | .never _ => true
  | .ref symbol => (heads? (g symbol)).isSome
  | .seq rs | .choice rs => lackAll g role rs
  | .many r | .optional r | .within _ r | .construct r | .whole r | .chain r _ => lacks g role r
  | .field f _ => f != role

def lackAll (g : Symbol → Rule) (role : Field) : List Rule → Bool
  | [] => true
  | r :: rs => lacks g role r && lackAll g role rs

end

mutual

def part? (g : Symbol → Rule) (role : Field) : Rule → Option Rule
  | .field f r => if f = role then some r else none
  | .seq rs => partOf? g role rs
  | _ => none

def partOf? (g : Symbol → Rule) (role : Field) : List Rule → Option Rule
  | [] => none
  | r :: rs => if lacks g role r then partOf? g role rs else part? g role r

end

/-- A node of a kind that is made by a rule has the parts that it should have. -/
def fits (g : Symbol → Rule) (form : Kind × Option Rule) : Bool :=
  (declaredParts form.1).all fun part =>
    ((form.2.bind (part? g part.1)).bind (headsIn? g)).any fun hs => hs.all part.2.contains

end Rule

theorem Dialect.forms_fit (d : Dialect) :
    (∀ symbol, ∀ form ∈ (d.rule symbol).forms, Rule.fits d.rule form = true) ∧
      ∀ form ∈ Grammar.program.forms, Rule.fits d.rule form = true := by
  have hall : (∀ symbol, (d.rule symbol).forms.all (Rule.fits d.rule) = true) ∧
      Grammar.program.forms.all (Rule.fits d.rule) = true := by
    cases d <;> exact ⟨fun symbol => by cases symbol <;> decide +kernel, by decide +kernel⟩
  exact ⟨fun symbol => List.all_eq_true.mp (hall.1 symbol), List.all_eq_true.mp hall.2⟩

section Derived
variable {s : Source} {g : Symbol → Rule} {r : Rule} {rs : List Rule} {ts : List Tree} {t : Tree}

theorem mem_formsAll {form : Kind × Option Rule} (hr : r ∈ rs) (h : form ∈ r.forms) :
    form ∈ Rule.formsAll rs := by
  induction rs with
  | nil => cases hr
  | cons first rs ih =>
    rw [Rule.formsAll]
    rcases List.mem_cons.mp hr with rfl | hr
    · exact List.mem_append_left _ h
    · exact List.mem_append_right _ (ih hr)

theorem mem_formsOfTails {tails : List (Kind × Option Field × Rule)} {kind : Kind}
    {role : Option Field} (hr : (kind, role, r) ∈ tails) :
    (kind, none) ∈ Rule.formsOfTails tails ∧ ∀ form ∈ r.forms, form ∈ Rule.formsOfTails tails := by
  induction tails with
  | nil => cases hr
  | cons first tails ih =>
    rw [Rule.formsOfTails]
    rcases List.mem_cons.mp hr with rfl | hr
    · exact ⟨List.mem_cons_self,
        fun form h => List.mem_append_left _ (List.mem_cons_of_mem _ h)⟩
    · obtain ⟨hkind, hforms⟩ := ih hr
      exact ⟨List.mem_append_right _ hkind, fun form h => List.mem_append_right _ (hforms form h)⟩

theorem field?_withField {f f' : Field} (h : (t.withField f).field? = some f') : f' = f := by
  cases t with
  | node kind role span cs => exact (Option.some.inj h).symm
  | token text span => cases h
  | missing span => cases h

theorem field?_of_mem_bare_node {kind : Kind} {span : Span} {cs : List Tree}
    (h : t ∈ bare [.node kind none span cs]) : t.field? = none := by
  obtain rfl := List.mem_singleton.mp (mem_bare.mp h).1
  rfl

theorem heads?_of_mem {hs : List Head} (h : Rule.headsOf? rs = some hs) (hr : r ∈ rs) :
    ∃ hs', r.heads? = some hs' ∧ hs' ⊆ hs := by
  induction rs generalizing hs with
  | nil => cases hr
  | cons first rs ih =>
    rw [Rule.headsOf?] at h
    obtain ⟨front, hfront, h⟩ := Option.bind_eq_some_iff.mp h
    obtain ⟨rest, hrest, rfl⟩ := Option.map_eq_some_iff.mp h
    rcases List.mem_cons.mp hr with rfl | hr
    · exact ⟨front, hfront, List.subset_append_left ..⟩
    · obtain ⟨hs', hhs', hsub⟩ := ih hrest hr
      exact ⟨hs', hhs', List.subset_append_of_subset_right _ hsub⟩

theorem exists_node_of_heads? (h : Derives s g r ts) : ∀ hs, r.heads? = some hs →
    ∃ n, ts = bare [n] ∧ n.field? = none ∧ ∃ head ∈ hs, head.Fits s n := by
  induction h with
  | @leaf kind lexeme span hstop =>
    intro hs hhs
    rw [Rule.heads?] at hhs
    obtain rfl := Option.some.inj hhs
    refine ⟨_, rfl, rfl, _, List.mem_singleton_self _, rfl, fun l hl => ?_⟩
    obtain rfl := Option.some.inj hl
    exact ⟨rfl, hstop⟩
  | @node kind r cs span =>
    intro hs hhs
    rw [Rule.heads?] at hhs
    obtain rfl := Option.some.inj hhs
    exact ⟨_, rfl, rfl, _, List.mem_singleton_self _, rfl, nofun⟩
  | choice hmem _ ih =>
    intro hs hhs
    rw [Rule.heads?] at hhs
    obtain ⟨hs', hhs', hsub⟩ := heads?_of_mem hhs hmem
    obtain ⟨n, hn, hrole, head, hhead, hfits⟩ := ih hs' hhs'
    exact ⟨n, hn, hrole, head, hsub hhead, hfits⟩
  | _ => exact nofun

theorem exists_node_of_headsIn? {hs : List Head} (h : Derives s g r ts)
    (hhs : r.headsIn? g = some hs) :
    ∃ n, ts = bare [n] ∧ n.field? = none ∧ ∃ head ∈ hs, head.Fits s n := by
  unfold Rule.headsIn? at hhs
  split at hhs
  · cases h with
    | ref h => exact exists_node_of_heads? h hs hhs
  · exact exists_node_of_heads? h hs hhs

theorem lacks_of_mem {role : Field} (h : Rule.lackAll g role rs = true) (hr : r ∈ rs) :
    r.lacks g role = true := by
  induction rs with
  | nil => cases hr
  | cons first rs ih =>
    rw [Rule.lackAll, Bool.and_eq_true] at h
    rcases List.mem_cons.mp hr with rfl | hr
    · exact h.1
    · exact ih h.2 hr

theorem field?_ne_of_lacks {role : Field} (h : Derives s g r ts) :
    r.lacks g role = true → ∀ t ∈ ts, t.field? ≠ some role := by
  induction h with
  | token | rawToken | semicolon =>
    intro _ t ht
    obtain rfl := List.mem_singleton.mp ht
    exact nofun
  | raw | nil | none | absent | ahead | never | unwritten | softEnd | joined => exact fun _ => nofun
  | leaf | node | tail =>
    intro _ t ht
    rw [field?_of_mem_bare_node ht]
    exact nofun
  | ref h =>
    intro hlacks t ht
    obtain ⟨hs, hhs⟩ := Option.isSome_iff_exists.mp hlacks
    obtain ⟨n, rfl, hrole, -⟩ := exists_node_of_heads? h hs hhs
    obtain rfl := List.mem_singleton.mp (mem_bare.mp ht).1
    rw [hrole]
    exact nofun
  | cons _ _ ihfirst ihrest =>
    intro h
    unfold Rule.lacks Rule.lackAll at h
    rw [Bool.and_eq_true] at h
    exact List.forall_mem_append.mpr ⟨ihfirst h.1, ihrest h.2⟩
  | choice hmem _ ih => exact fun h => ih (lacks_of_mem h hmem)
  | more _ _ ihfirst ihrest => exact fun h => List.forall_mem_append.mpr ⟨ihfirst h, ihrest h⟩
  | present _ ih | base _ ih | within _ ih | construct _ ih | whole _ ih => exact ih
  | field =>
    intro h t ht hrole
    obtain ⟨u, -, rfl⟩ := List.mem_map.mp ht
    rw [Rule.lacks, ← field?_withField hrole] at h
    simp at h

theorem exists_of_part? {role : Field} (h : Derives s g r ts) :
    ∀ part, r.part? g role = some part → ∃ before us behind, Derives s g part us ∧
      ts = before ++ (us.map (Tree.withField role) ++ behind) ∧ ∀ t ∈ before, t.field? ≠ some role := by
  induction h with
  | @field f r us hus =>
    intro part hpart
    rw [Rule.part?] at hpart
    split_ifs at hpart with hf
    obtain rfl := Option.some.inj hpart
    rw [hf]
    exact ⟨[], us, [], hus, by rw [List.nil_append, List.append_nil], List.forall_mem_nil _⟩
  | nil => exact nofun
  | @cons r rs us vs hfirst _ ihfirst ihrest =>
    intro part hpart
    rw [Rule.part?, Rule.partOf?] at hpart
    split_ifs at hpart with hlacks
    · obtain ⟨before, parts, behind, hparts, rfl, hbefore⟩ := ihrest part hpart
      refine ⟨us ++ before, parts, behind, hparts, (List.append_assoc ..).symm, ?_⟩
      exact List.forall_mem_append.mpr ⟨field?_ne_of_lacks hfirst hlacks, hbefore⟩
    · obtain ⟨before, parts, behind, hparts, rfl, hbefore⟩ := ihfirst part hpart
      refine ⟨before, parts, behind ++ vs, hparts, ?_, hbefore⟩
      rw [List.append_assoc, List.append_assoc]
  | _ => exact nofun

theorem declaredParts_ne_comment {kind : Kind} {part : Field × List Head}
    (h : part ∈ declaredParts kind) : ∀ head ∈ part.2, head.kind ≠ .comment := by
  have hall : ∀ part ∈ declaredParts kind, part.2.all (·.kind != .comment) = true := by
    cases kind <;> decide
  intro head hhead hkind
  have hne := List.all_eq_true.mp (hall part h) head hhead
  rw [hkind] at hne
  cases hne

theorem child?_eq_find?_bare {cs : List Tree} (h : CommentsApart cs) (f : Field) :
    cs.find? (·.field? == some f) = (bare cs).find? (·.field? == some f) := by
  rw [bare, ← List.head?_filter, ← List.head?_filter, List.filter_filter]
  congr 1
  refine List.filter_congr fun t ht => ?_
  cases hcomment : t.is .comment with
  | true =>
    rw [h t ht hcomment]
    rfl
  | false => rw [Bool.not_false, Bool.and_true]

theorem Head.Fits.withField {head : Head} (h : head.Fits s t) (f : Field) :
    head.Fits s (t.withField f) := by
  cases t with
  | node => exact ⟨h.kind, h.leaf⟩
  | token => cases h.kind
  | missing => cases h.kind

/-- A node that is made by a rule has a part in a role if the rule gives one. -/
theorem exists_child? {role : Field} {allowed hs : List Head} {part : Rule} {cs : List Tree}
    {kind : Kind} {f : Option Field} {span : Span} (h : Derives s g r (bare cs))
    (hcomments : CommentsApart cs) (hpart : r.part? g role = some part)
    (hhs : part.headsIn? g = some hs) (hsub : hs ⊆ allowed)
    (hallowed : ∀ head ∈ allowed, head.kind ≠ .comment) :
    ∃ n, (Tree.node kind f span cs).child? role = some n ∧ ∃ head ∈ allowed, head.Fits s n := by
  obtain ⟨before, us, behind, hus, hparts, hbefore⟩ := exists_of_part? h part hpart
  obtain ⟨n, rfl, -, head, hhead, hfits⟩ := exists_node_of_headsIn? hus hhs
  have hnode : bare [n] = [n] := by
    have hkind : n.is .comment = false := by
      simpa [Tree.is, hfits.kind] using hallowed head (hsub hhead)
    simp [bare, hkind]
  refine ⟨n.withField role, ?_, head, hsub hhead, hfits.withField role⟩
  have hnone : before.find? (·.field? == some role) = none :=
    List.find?_eq_none.mpr fun t ht => by simpa using hbefore t ht
  have hfound : (n.withField role).field? = some role := by
    cases n with
    | node => rfl
    | token => cases hfits.kind
    | missing => cases hfits.kind
  rw [Tree.child?, Tree.children, child?_eq_find?_bare hcomments, hparts, hnode, List.find?_append,
    hnone, Option.none_or, List.map_singleton, List.singleton_append, List.find?_cons, hfound]
  simp

end Derived

def Tree.Declared (s : Source) (t : Tree) : Prop :=
  ∀ kind ∈ t.kind?, ∀ part ∈ declaredParts kind,
    ∃ n, t.child? part.1 = some n ∧ ∃ head ∈ part.2, head.Fits s n

inductive Tree.Throughout (P : Tree → Prop) : Tree → Prop
  | mk {t : Tree} (self : P t) (parts : ∀ u ∈ bare t.children, Throughout P u) : Throughout P t

theorem Tree.Throughout.self {P : Tree → Prop} {t : Tree} (h : t.Throughout P) : P t := by
  cases h with
  | mk self _ => exact self

theorem Tree.Throughout.part {P : Tree → Prop} {t u : Tree} (h : t.Throughout P)
    (hu : u ∈ t.children) (hcomment : u.is .comment = false) : u.Throughout P := by
  cases h with
  | mk _ parts => exact parts u (mem_bare.mpr ⟨hu, hcomment⟩)

theorem Tree.Throughout.withField {s : Source} {t : Tree} (h : t.Throughout (Declared s)) (f : Field) :
    (t.withField f).Throughout (Declared s) := by
  cases t with
  | node kind role span cs =>
    cases h with
    | mk self parts => exact ⟨self, parts⟩
  | token text span => exact h
  | missing span => exact h

section Throughout
variable {s : Source} {g : Symbol → Rule} {r : Rule} {ts : List Tree}

theorem declared_of_nil {kind : Kind} {role : Option Field} {span : Span} {cs : List Tree}
    (h : declaredParts kind = []) : (Tree.node kind role span cs).Declared s := by
  intro k hk part hpart
  obtain rfl := Option.some.inj hk
  rw [h] at hpart
  cases hpart

theorem throughout_token (text : String) (span : Span) :
    (Tree.token text span).Throughout (Tree.Declared s) :=
  ⟨nofun, nofun⟩

theorem throughout_of_mem_bare_node {kind : Kind} {span : Span} {cs : List Tree} {t : Tree}
    (ht : t ∈ bare [.node kind none span cs]) (hself : (Tree.node kind none span cs).Declared s)
    (hparts : ∀ u ∈ bare cs, u.Throughout (Tree.Declared s)) : t.Throughout (Tree.Declared s) := by
  obtain rfl := List.mem_singleton.mp (mem_bare.mp ht).1
  exact ⟨hself, hparts⟩

/-- All declarations in derived trees have their parts, if the rules of the grammar give them. -/
theorem throughout_of_derives (hg : ∀ symbol, ∀ form ∈ (g symbol).forms, Rule.fits g form = true)
    (h : Derives s g r ts) :
    (∀ form ∈ r.forms, Rule.fits g form = true) → ∀ t ∈ ts, t.Throughout (Tree.Declared s) := by
  have hnone : ∀ {kind : Kind}, Rule.fits g (kind, none) = true → declaredParts kind = [] := by
    intro kind hfits
    refine List.eq_nil_iff_forall_not_mem.mpr fun part hpart => ?_
    cases List.all_eq_true.mp hfits part hpart
  induction h with
  | token | rawToken | semicolon =>
    intro _ t ht
    obtain rfl := List.mem_singleton.mp ht
    exact throughout_token ..
  | raw | nil | none | absent | ahead | never | unwritten | softEnd | joined => exact fun _ => nofun
  | leaf =>
    intro hr t ht
    exact throughout_of_mem_bare_node ht
      (declared_of_nil (hnone (hr _ (List.mem_singleton_self _)))) nofun
  | ref _ ih => exact fun _ => ih (hg _)
  | cons _ _ ihfirst ihrest =>
    intro hr
    unfold Rule.forms Rule.formsAll at hr
    exact List.forall_mem_append.mpr ⟨ihfirst fun form h => hr form (List.mem_append_left _ h),
      ihrest fun form h => hr form (List.mem_append_right _ h)⟩
  | choice hmem _ ih => exact fun hr => ih fun form h => hr form (mem_formsAll hmem h)
  | more _ _ ihfirst ihrest =>
    exact fun hr => List.forall_mem_append.mpr ⟨ihfirst hr, ihrest hr⟩
  | present _ ih | within _ ih | construct _ ih | whole _ ih => exact ih
  | @node kind r cs span hderives hcomments ih =>
    intro hr t ht
    have hparts := ih fun form h => hr form (List.mem_cons_of_mem _ h)
    refine throughout_of_mem_bare_node ht ?_ hparts
    intro k hk part hpart
    obtain rfl := Option.some.inj hk
    have hfits := List.all_eq_true.mp (hr _ List.mem_cons_self) part hpart
    obtain ⟨hs, hhs, hsub⟩ := (Option.any_eq_true _ _).mp hfits
    obtain ⟨inner, hinner, hhs⟩ := Option.bind_eq_some_iff.mp hhs
    refine exists_child? hderives hcomments hinner hhs (fun head hhead => ?_)
      (declaredParts_ne_comment hpart)
    simpa using List.all_eq_true.mp hsub head hhead
  | field _ ih =>
    intro hr t ht
    obtain ⟨u, hu, rfl⟩ := List.mem_map.mp ht
    exact (ih hr u hu).withField _
  | base _ ih => exact fun hr => ih fun form h => hr form (List.mem_append_left _ h)
  | @tail r tails kind role last ts us cs span hmem _ _ hparts ihinner ihbehind =>
    intro hr t ht
    obtain ⟨hkind, hforms⟩ := mem_formsOfTails hmem
    have hempty := hnone (hr _ (List.mem_append_right _ hkind))
    refine throughout_of_mem_bare_node ht (declared_of_nil hempty) fun u hu => ?_
    rw [hparts] at hu
    rcases List.mem_append.mp hu with hu | hu
    · cases role with
      | none => exact ihinner hr u hu
      | some f =>
        obtain ⟨v, hv, rfl⟩ := List.mem_map.mp hu
        exact (ihinner hr v hv).withField f
    · exact ihbehind (fun form h => hr form (List.mem_append_right _ (hforms form h))) u hu

end Throughout

theorem Dialect.throughout_parse (d : Dialect) (s : Source) : (d.parse s).Throughout (Tree.Declared s) := by
  obtain ⟨ts, rest, hparts, hts, hrest⟩ := d.bare_parse s
  obtain ⟨hg, hprogram⟩ := d.forms_fit
  have hself : (d.parse s).Declared s := by
    unfold Dialect.parse
    dsimp only
    split <;> exact declared_of_nil rfl
  refine ⟨hself, ?_⟩
  rw [hparts]
  refine List.forall_mem_append.mpr ⟨?_, fun t ht => ⟨?_, ?_⟩⟩
  · rcases hts with rfl | hts
    · exact List.forall_mem_nil _
    · exact throughout_of_derives hg hts hprogram
  · obtain ⟨hkind, -⟩ := hrest t ht
    intro kind hk part hpart
    obtain rfl : kind = .error := by simpa [Tree.is, Option.mem_def.mp hk] using hkind
    cases hpart
  · rw [(hrest t ht).2]
    exact List.forall_mem_nil _

end CallBridge.Syntax
