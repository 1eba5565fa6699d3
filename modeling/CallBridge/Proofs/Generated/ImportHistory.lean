import CallBridge.Proofs.Basic
import CallBridge.Proofs.Generated.ImportSet

/-! # Histories of import sets

What is added to a set of imports is accepted or not, and the first binding of a name is the one that
stays. Whether all bindings of a list can be added, and what the set is then, depends on the bindings
alone and not on their order. The statements part the bindings of the set by their specifiers, in
order.
-/
namespace CallBridge.Generated

/-- How a binding is written between the braces of a statement. -/
inductive ImportBinding.WrittenAs : ImportBinding → String → Prop
  | plain {name specifier : String} : WrittenAs ⟨name, ⟨specifier, .named name⟩⟩ name
  | renamed {name specifier other : String} (renamed : other ≠ name) :
    WrittenAs ⟨name, ⟨specifier, .named other⟩⟩ (other ++ " as " ++ name)
  | default {name specifier : String} :
    WrittenAs ⟨name, ⟨specifier, .default⟩⟩ ("default as " ++ name)

theorem ImportBinding.writtenAs_text (b : ImportBinding) : b.WrittenAs b.text := by
  obtain ⟨name, specifier, imported⟩ := b
  cases imported with
  | default => exact .default
  | named other =>
    by_cases h : other = name
    · subst h
      simpa [text] using WrittenAs.plain
    · simpa [text, h] using WrittenAs.renamed h

namespace ImportSet

/-- Add bindings one after the other, and go on behind those that cannot be added. -/
def addEach (s : ImportSet) (bs : List ImportBinding) : ImportSet :=
  bs.foldl (fun s b => (s.add b.name b.source).toOption.getD s) s

/-- Add bindings one after the other, up to the first that cannot be added. -/
def addAll (s : ImportSet) (bs : List ImportBinding) : Except Failure ImportSet :=
  bs.foldlM (fun s b => s.add b.name b.source) s

/-- What the first binding of a name in a list says of it. -/
def firstSource? (bs : List ImportBinding) (name : String) : Option ImportSource :=
  (bs.find? (·.name == name)).map ImportBinding.source

def Agree (bs : List ImportBinding) : Prop :=
  ∀ a ∈ bs, ∀ b ∈ bs, a.name = b.name → a.source = b.source

variable {s t : ImportSet} {b : ImportBinding} {bs bs' : List ImportBinding}

theorem frame_of_add (h : s.add b.name b.source = .ok t) :
    t.output = s.output ∧ t.typeOnly = s.typeOnly := by
  unfold add at h
  split at h
  · split_ifs at h
    cases h
    exact ⟨rfl, rfl⟩
  · cases h
    exact ⟨rfl, rfl⟩

/-- A binding is new and is added, or is there and changes nothing, or its name is bound to something
else. -/
theorem add_cases (s : ImportSet) (b : ImportBinding) :
    (s.source? b.name = none ∧ ∃ t, s.add b.name b.source = .ok t ∧
      ∀ name, t.source? name = if name = b.name then some b.source else s.source? name) ∨
    (s.source? b.name = some b.source ∧ s.add b.name b.source = .ok s) ∨
    ∃ bound, s.source? b.name = some bound ∧ bound ≠ b.source ∧
      s.add b.name b.source = .error (.importCollision b.name s.output bound b.source) := by
  cases hbound : s.source? b.name with
  | none => exact .inl ⟨rfl, add_of_source?_eq_none b.source hbound⟩
  | some bound =>
    by_cases hsame : bound = b.source
    · subst hsame
      exact .inr (.inl ⟨rfl, add_of_source?_eq_some hbound⟩)
    · refine .inr (.inr ⟨bound, rfl, hsame, ?_⟩)
      obtain ⟨x, hx, rfl⟩ := Option.map_eq_some_iff.mp hbound
      unfold add
      split
      · next x' hx' =>
        obtain rfl : x' = x := Option.some.inj (hx'.symm.trans hx)
        exact if_neg hsame
      · next hnone =>
        rw [hnone] at hx
        cases hx

theorem add_eq_error_iff {failure : Failure} : s.add b.name b.source = .error failure ↔
    ∃ bound, s.source? b.name = some bound ∧ bound ≠ b.source ∧
      failure = .importCollision b.name s.output bound b.source := by
  rcases add_cases s b with ⟨hnone, t, hadd, -⟩ | ⟨hsame, hadd⟩ | ⟨bound, hbound, hne, hadd⟩
  · rw [hadd, hnone]
    exact ⟨nofun, fun ⟨_, h, _⟩ => nomatch h⟩
  · rw [hadd, hsame]
    exact ⟨nofun, fun ⟨_, h, hne, _⟩ => absurd (Option.some.inj h).symm hne⟩
  · rw [hadd, hbound]
    constructor
    · intro h
      cases h
      exact ⟨bound, rfl, hne, rfl⟩
    · rintro ⟨x, hx, -, rfl⟩
      rw [Option.some.inj hx]

/-- A set is known by its label, its kind and what it says of each name. -/
theorem eq_of_source?_eq (houtput : s.output = t.output) (hkind : s.typeOnly = t.typeOnly)
    (h : ∀ name, s.source? name = t.source? name) : s = t := by
  have hmem : ∀ b, b ∈ s.bindings ↔ b ∈ t.bindings := by
    rintro ⟨name, source⟩
    rw [← source?_eq_some_iff, h, source?_eq_some_iff]
  have hperm : s.bindings.Perm t.bindings :=
    (List.perm_ext_iff_of_nodup (.of_map _ s.names_nodup) (.of_map _ t.names_nodup)).mpr hmem
  have hbindings : s.bindings = t.bindings :=
    hperm.eq_of_pairwise (fun a b _ _ hab hba => absurd hba (String.lt_asymm hab)) s.ordered
      t.ordered
  obtain ⟨output, typeOnly, bindings, ordered⟩ := s
  cases houtput
  cases hkind
  cases hbindings
  rfl

@[simp]
theorem addEach_nil (s : ImportSet) : s.addEach [] = s :=
  rfl

theorem addEach_cons_of_ok (h : s.add b.name b.source = .ok t) :
    s.addEach (b :: bs) = t.addEach bs := by
  rw [addEach, List.foldl_cons, h]
  rfl

theorem addEach_cons_of_error {failure : Failure} (h : s.add b.name b.source = .error failure) :
    s.addEach (b :: bs) = s.addEach bs := by
  rw [addEach, List.foldl_cons, h]
  rfl

theorem addEach_append (s : ImportSet) (bs bs' : List ImportBinding) :
    s.addEach (bs ++ bs') = (s.addEach bs).addEach bs' :=
  List.foldl_append

theorem frame_addEach (s : ImportSet) (bs : List ImportBinding) :
    (s.addEach bs).output = s.output ∧ (s.addEach bs).typeOnly = s.typeOnly := by
  induction bs generalizing s with
  | nil => exact ⟨rfl, rfl⟩
  | cons b bs ih =>
    cases hadd : s.add b.name b.source with
    | error failure =>
      rw [addEach_cons_of_error hadd]
      exact ih s
    | ok t =>
      obtain ⟨houtput, hkind⟩ := frame_of_add hadd
      rw [addEach_cons_of_ok hadd, ← houtput, ← hkind]
      exact ih t

/-- A name stands for what it stood for before, or else for what the first binding of it says. -/
theorem source?_addEach (s : ImportSet) (bs : List ImportBinding) (name : String) :
    (s.addEach bs).source? name = (s.source? name).or (firstSource? bs name) := by
  induction bs generalizing s with
  | nil => simp [firstSource?]
  | cons b bs ih =>
    have hfirst : firstSource? (b :: bs) name =
        if name = b.name then some b.source else firstSource? bs name := by
      by_cases h : name = b.name
      · simp [firstSource?, h]
      · simp [firstSource?, h, Ne.symm h]
    rw [hfirst]
    rcases add_cases s b with ⟨hnone, t, hadd, hread⟩ | ⟨hsame, hadd⟩ | ⟨bound, hbound, -, hadd⟩
    · rw [addEach_cons_of_ok hadd, ih, hread]
      split_ifs with h
      · simp [h, hnone]
      · rfl
    · rw [addEach_cons_of_ok hadd, ih]
      split_ifs with h
      · simp [h, hsame]
      · rfl
    · rw [addEach_cons_of_error hadd, ih]
      split_ifs with h
      · simp [h, hbound]
      · rfl

/-- All bindings can be added if each is what the set says in the end. -/
theorem addAll_eq_ok_iff : s.addAll bs = .ok t ↔
    t = s.addEach bs ∧ ∀ b ∈ bs, (s.addEach bs).source? b.name = some b.source := by
  induction bs generalizing s with
  | nil => exact ⟨fun h => ⟨(pure_eq_ok_iff.mp h).symm, nofun⟩, fun h => pure_eq_ok_iff.mpr h.1.symm⟩
  | cons b bs ih =>
    have hgo : ∀ {next}, s.add b.name b.source = .ok next →
        next.source? b.name = some b.source → (s.addAll (b :: bs) = .ok t ↔
          t = s.addEach (b :: bs) ∧
            ∀ x ∈ b :: bs, (s.addEach (b :: bs)).source? x.name = some x.source) := by
      intro next hadd hsource
      have hhead : (next.addEach bs).source? b.name = some b.source := by
        rw [source?_addEach, hsource]
        rfl
      rw [addAll, List.foldlM_cons, hadd, addEach_cons_of_ok hadd, List.forall_mem_cons]
      refine ih.trans (and_congr_right fun _ => ⟨fun h => ⟨hhead, h⟩, fun h => h.2⟩)
    rcases add_cases s b with ⟨-, next, hadd, hread⟩ | ⟨hsame, hadd⟩ | ⟨bound, hbound, hne, hadd⟩
    · exact hgo hadd ((hread _).trans (if_pos rfl))
    · exact hgo hadd hsame
    · constructor
      · intro h
        rw [addAll, List.foldlM_cons, hadd] at h
        cases h
      · rintro ⟨-, h⟩
        have hb := h b List.mem_cons_self
        rw [source?_addEach, hbound] at hb
        exact absurd (Option.some.inj hb) hne

theorem mem_of_firstSource? {name : String} {source : ImportSource}
    (h : firstSource? bs name = some source) : ⟨name, source⟩ ∈ bs := by
  obtain ⟨b, hb, rfl⟩ := Option.map_eq_some_iff.mp h
  have hn : b.name = name := by simpa using List.find?_some hb
  exact hn ▸ List.mem_of_find?_eq_some hb

theorem firstSource?_eq_some_iff (h : Agree bs) {name : String} {source : ImportSource} :
    firstSource? bs name = some source ↔ ⟨name, source⟩ ∈ bs := by
  refine ⟨mem_of_firstSource?, fun hm => ?_⟩
  cases hfirst : firstSource? bs name with
  | none =>
    have hfree := List.find?_eq_none.mp (Option.map_eq_none_iff.mp hfirst)
    exact absurd (hfree _ hm) (by simp)
  | some x => exact congrArg some (h _ (mem_of_firstSource? hfirst) _ hm rfl)

theorem addAll_empty_eq_ok_iff {output : String} {typeOnly : Bool} :
    (empty output typeOnly).addAll bs = .ok t ↔
      t = (empty output typeOnly).addEach bs ∧ Agree bs := by
  simp only [addAll_eq_ok_iff, source?_addEach, source?_empty, Option.none_or]
  refine and_congr_right fun _ => ⟨fun h a ha b hb hname => ?_, fun h b hb => ?_⟩
  · have ha' := h a ha
    rw [hname, h b hb] at ha'
    exact (Option.some.inj ha').symm
  · exact (firstSource?_eq_some_iff h).mpr hb

theorem addEach_congr {output : String} {typeOnly : Bool} (h : Agree bs)
    (hmem : ∀ b, b ∈ bs' ↔ b ∈ bs) :
    (empty output typeOnly).addEach bs' = (empty output typeOnly).addEach bs := by
  have h' : Agree bs' := fun a ha b hb => h a ((hmem a).mp ha) b ((hmem b).mp hb)
  refine eq_of_source?_eq ?_ ?_ fun name => Option.ext fun source => ?_
  · rw [(frame_addEach _ _).1, (frame_addEach _ _).1]
  · rw [(frame_addEach _ _).2, (frame_addEach _ _).2]
  · simp only [source?_addEach, source?_empty, Option.none_or, firstSource?_eq_some_iff h,
      firstSource?_eq_some_iff h', hmem]

/-- Adding stops at a binding whose name stands for something else already. -/
theorem of_addAll_eq_error {output : String} {typeOnly : Bool} {failure : Failure}
    (h : (empty output typeOnly).addAll bs = .error failure) :
    ∃ a ∈ bs, ∃ b ∈ bs, a.name = b.name ∧ a.source ≠ b.source ∧
      failure = .importCollision b.name output a.source b.source := by
  obtain ⟨pre, b, post, s, rfl, hpre, hadd⟩ := of_foldlM_eq_error h
  obtain ⟨bound, hbound, hne, rfl⟩ := add_eq_error_iff.mp hadd
  obtain ⟨rfl, -⟩ := addAll_empty_eq_ok_iff.mp hpre
  rw [source?_addEach, source?_empty, Option.none_or] at hbound
  refine ⟨⟨b.name, bound⟩, ?_, b, ?_, rfl, hne, ?_⟩
  · exact List.mem_append_left _ (mem_of_firstSource? hbound)
  · exact List.mem_append_right _ List.mem_cons_self
  · rw [(frame_addEach _ _).1]
    rfl

/-- What the statements of a set are. `Precedes` puts packages first and then goes by the text. -/
structure Partition (s : ImportSet) (statements : List ImportStatement) : Prop where
  ordered : (statements.map ImportStatement.specifier).Pairwise Precedes
  specifier_iff : ∀ a, a ∈ statements.map ImportStatement.specifier ↔
    ∃ name source, s.source? name = some source ∧ source.specifier = a
  names : ∀ x ∈ statements, (x.bindings.map ImportBinding.name).Pairwise (· < ·)
  binding_iff : ∀ x ∈ statements, ∀ b,
    b ∈ x.bindings ↔ s.source? b.name = some b.source ∧ b.source.specifier = x.specifier
  once : ∀ name, (s.source? name).isSome →
    ∃! x, x ∈ statements ∧ name ∈ x.bindings.map ImportBinding.name
  text : ∀ x ∈ statements, ∃ entries, List.Forall₂ ImportBinding.WrittenAs x.bindings entries ∧
    x.text = (if s.typeOnly then "import type" else "import") ++ " \x7b " ++
      ", ".intercalate entries ++ " \x7d from '" ++ x.specifier ++ "';"

theorem map_specifier_statements (s : ImportSet) :
    s.statements.map ImportStatement.specifier = s.specifiers := by
  simp [statements, Function.comp_def]

theorem partition_statements (s : ImportSet) : s.Partition s.statements where
  ordered := by
    rw [map_specifier_statements]
    exact s.specifiers_ordered
  specifier_iff := by
    intro a
    rw [map_specifier_statements, mem_specifiers]
    constructor
    · rintro ⟨b, hb, rfl⟩
      exact ⟨b.name, b.source, source?_eq_some_iff.mpr hb, rfl⟩
    · rintro ⟨name, source, hsource, rfl⟩
      exact ⟨_, source?_eq_some_iff.mp hsource, rfl⟩
  names := by
    intro x hx
    obtain ⟨a, -, rfl⟩ := List.mem_map.mp hx
    exact List.pairwise_map.mpr (s.ordered.filter _)
  binding_iff := by
    intro x hx b
    obtain ⟨a, -, rfl⟩ := List.mem_map.mp hx
    rw [List.mem_filter, beq_iff_eq, source?_eq_some_iff]
  once := by
    intro name hname
    obtain ⟨source, hsource⟩ := Option.isSome_iff_exists.mp hname
    have hb := source?_eq_some_iff.mp hsource
    refine ⟨⟨s.typeOnly, source.specifier,
        s.bindings.filter (·.source.specifier == source.specifier)⟩,
      ⟨List.mem_map_of_mem (mem_specifiers.mpr ⟨_, hb, rfl⟩),
        List.mem_map.mpr ⟨_, List.mem_filter.mpr ⟨hb, beq_self_eq_true _⟩, rfl⟩⟩, ?_⟩
    rintro x ⟨hx, hmem⟩
    obtain ⟨a, -, rfl⟩ := List.mem_map.mp hx
    obtain ⟨b, hb', rfl⟩ := List.mem_map.mp hmem
    obtain ⟨hb', ha⟩ := List.mem_filter.mp hb'
    rw [source?_eq_some_iff.mpr hb'] at hsource
    cases hsource
    rw [beq_iff_eq.mp ha]
  text := by
    intro x hx
    obtain ⟨a, -, rfl⟩ := List.mem_map.mp hx
    refine ⟨_, ?_, rfl⟩
    exact List.forall₂_map_right_iff.mpr (List.forall₂_same.mpr fun b _ => b.writtenAs_text)

/-- Additions to a set of imports: what is refused, what has no effect, that order does not matter if
nothing is refused, and how the set is written. -/
theorem history_of_additions (output : String) (typeOnly : Bool) (past : List ImportBinding) :
    let start := empty output typeOnly
    let s := start.addEach past
    (∀ name, s.source? name = firstSource? past name) ∧
    (∀ (b : ImportBinding) (failure : Failure), s.add b.name b.source = .error failure ↔
      ∃ bound, s.source? b.name = some bound ∧ bound ≠ b.source ∧
        failure = .importCollision b.name output bound b.source) ∧
    (∀ (b : ImportBinding) (failure : Failure), s.add b.name b.source = .error failure →
      start.addEach (past ++ [b]) = s) ∧
    (∀ b : ImportBinding, s.source? b.name = some b.source → s.add b.name b.source = .ok s) ∧
    (∀ t, start.addAll past = .ok t → t = s ∧
      ∀ past', (∀ b, b ∈ past' ↔ b ∈ past) → start.addAll past' = .ok s) ∧
    s.Partition s.statements := by
  intro start s
  refine ⟨fun name => ?_, fun b failure => ?_, fun b failure h => ?_, fun b h => ?_, ?_,
    partition_statements _⟩
  · rw [source?_addEach, source?_empty, Option.none_or]
  · rw [add_eq_error_iff, (frame_addEach _ past).1]
    rfl
  · rw [addEach_append, addEach_cons_of_error h, addEach_nil]
  · exact add_of_source?_eq_some h
  · intro t ht
    obtain ⟨rfl, hagree⟩ := addAll_empty_eq_ok_iff.mp ht
    refine ⟨rfl, fun past' hmem => addAll_empty_eq_ok_iff.mpr ⟨?_, ?_⟩⟩
    · exact (addEach_congr hagree hmem).symm
    · exact fun a ha b hb => hagree a ((hmem a).mp ha) b ((hmem b).mp hb)

end ImportSet

end CallBridge.Generated
