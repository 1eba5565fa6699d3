import CallBridge.Generated.ImportSet
import Mathlib.Data.List.Nodup
import Mathlib.Data.List.Perm.Lattice

/-! # What a set of imports binds

A set of imports is known by what `source?` says of each local name. Adding a name says one thing
more, or nothing new, or fails. Its statements bind each name of the set once.
-/
namespace CallBridge.Generated.ImportSet

theorem names_nodup (s : ImportSet) : (s.bindings.map ImportBinding.name).Nodup := by
  refine List.pairwise_map.mpr (s.ordered.imp ?_)
  rintro a b h he
  exact String.lt_irrefl _ (he ▸ h)

theorem source?_eq_some_iff {s : ImportSet} {name : String} {source : ImportSource} :
    s.source? name = some source ↔ ⟨name, source⟩ ∈ s.bindings := by
  simp only [source?, Option.map_eq_some_iff]
  constructor
  · rintro ⟨b, hb, rfl⟩
    have hn : b.name = name := by simpa using List.find?_some hb
    exact hn ▸ List.mem_of_find?_eq_some hb
  · intro hm
    cases hf : s.bindings.find? (·.name == name) with
    | none => exact absurd (List.find?_eq_none.mp hf _ hm) (by simp)
    | some b =>
      have hn : b.name = name := by simpa using List.find?_some hf
      have hb := List.inj_on_of_nodup_map s.names_nodup (List.mem_of_find?_eq_some hf) hm hn
      exact ⟨b, rfl, by rw [hb]⟩

theorem source?_eq_none_iff {s : ImportSet} {name : String} :
    s.source? name = none ↔ name ∉ s.bindings.map ImportBinding.name := by
  simp [source?]

@[simp]
theorem source?_empty (output : String) (typeOnly : Bool) (name : String) :
    (empty output typeOnly).source? name = none := by
  simp [source?, empty]

theorem add_of_source?_eq_none {s : ImportSet} {name : String} (source : ImportSource)
    (h : s.source? name = none) :
    ∃ s', s.add name source = .ok s' ∧
      ∀ n, s'.source? n = if n = name then some source else s.source? n := by
  unfold add
  split
  · next b hb => simp [source?, hb] at h
  · refine ⟨_, rfl, fun n => Option.ext fun x => ?_⟩
    rw [source?_eq_some_iff, mem_place]
    split_ifs with hn
    · subst hn
      have hfree : ⟨n, x⟩ ∉ s.bindings := fun hm => by
        rw [source?_eq_some_iff.mpr hm] at h
        cases h
      simp [hfree, eq_comm]
    · rw [source?_eq_some_iff]
      simp [hn]

theorem add_of_source?_eq_some {s : ImportSet} {name : String} {source : ImportSource}
    (h : s.source? name = some source) : s.add name source = .ok s := by
  obtain ⟨b, hb, rfl⟩ := Option.map_eq_some_iff.mp h
  unfold add
  split
  · next b' hb' =>
    obtain rfl : b' = b := Option.some.inj (hb'.symm.trans hb)
    exact if_pos rfl
  · next hnone =>
    rw [hnone] at hb
    cases hb

/-- If a name can be added, it is free or stands for the same already. -/
theorem source?_of_add {s s' : ImportSet} {name : String} {source : ImportSource}
    (h : s.add name source = .ok s') :
    (∀ x, s.source? name = some x → x = source) ∧
      ∀ n, s'.source? n = if n = name then some source else s.source? n := by
  cases hsource : s.source? name with
  | none =>
    obtain ⟨added, hadd, hsays⟩ := add_of_source?_eq_none source hsource
    rw [hadd] at h
    cases h
    refine ⟨fun x hx => ?_, hsays⟩
    cases hx
  | some x =>
    obtain ⟨b, hb, rfl⟩ := Option.map_eq_some_iff.mp hsource
    unfold add at h
    split at h
    · next b' hb' =>
      obtain rfl : b' = b := Option.some.inj (hb'.symm.trans hb)
      split_ifs at h with hsame
      cases h
      refine ⟨fun x hx => (Option.some.inj hx).symm.trans hsame, fun n => ?_⟩
      split_ifs with hn
      · rw [hn, hsource, hsame]
      · rfl
    · next hnone =>
      rw [hnone] at hb
      cases hb

/-- The names are imported from a module under themselves, and nothing else is imported. -/
def ImportsExactly (specifier : String) (names : List String) (s : ImportSet) : Prop :=
  ∀ name, s.source? name = if name ∈ names then some ⟨specifier, .named name⟩ else none

theorem ImportsExactly.step {specifier : String} {names : List String} {s : ImportSet}
    {name : String} (h : s.ImportsExactly specifier names) (hname : name ∉ names) :
    ∃ s', s.add name ⟨specifier, .named name⟩ = .ok s' ∧
      s'.ImportsExactly specifier (names ++ [name]) := by
  obtain ⟨s', hadd, hs'⟩ := add_of_source?_eq_none ⟨specifier, .named name⟩
    ((h name).trans (if_neg hname))
  refine ⟨s', hadd, fun n => ?_⟩
  rw [hs', h]
  by_cases hn : n = name <;> simp [hn]

theorem ImportsExactly.of_mem_bindings {specifier : String} {names : List String} {s : ImportSet}
    (h : s.ImportsExactly specifier names) {b : ImportBinding} (hb : b ∈ s.bindings) :
    b.name ∈ names ∧ b.source = ⟨specifier, .named b.name⟩ := by
  have hsource := h b.name
  rw [source?_eq_some_iff.mpr hb] at hsource
  split_ifs at hsource with hname
  · exact ⟨hname, Option.some.inj hsource⟩

theorem Precedes.trans {a b c : String} (hab : Precedes a b) (hbc : Precedes b c) :
    Precedes a c := by
  rcases hab with ⟨ha, hb⟩ | ⟨hsame, hlt⟩ <;> rcases hbc with ⟨hb', hc⟩ | ⟨hsame', hlt'⟩
  · exact .inl ⟨ha, hc⟩
  · exact .inl ⟨ha, hsame' ▸ hb⟩
  · exact .inl ⟨hsame.trans hb', hc⟩
  · exact .inr ⟨hsame.trans hsame', String.lt_trans hlt hlt'⟩

theorem Precedes.ne {a b : String} (h : Precedes a b) : a ≠ b := by
  rintro rfl
  rcases h with ⟨hfalse, htrue⟩ | ⟨-, hlt⟩
  · rw [hfalse] at htrue
    cases htrue
  · exact String.lt_irrefl _ hlt

theorem precedes_of_not {a b : String} (hne : a ≠ b) (h : ¬ Precedes a b) : Precedes b a := by
  have hsame : ¬ a < b → b < a := by
    intro hlt
    by_contra hlt'
    exact hne (String.le_antisymm hlt' hlt)
  unfold Precedes at h ⊢
  cases ha : isRelative a <;> cases hb : isRelative b <;> simp_all

theorem mem_placeSpecifier {a x : String} {as : List String} :
    x ∈ placeSpecifier a as ↔ x = a ∨ x ∈ as := by
  induction as with
  | nil => simp [placeSpecifier]
  | cons b bs ih =>
    unfold placeSpecifier
    split_ifs with hsame hbefore
    · subst hsame
      simp
    · simp
    · simp only [List.mem_cons, ih]
      tauto

theorem placeSpecifier_ordered {a : String} {as : List String} (h : as.Pairwise Precedes) :
    (placeSpecifier a as).Pairwise Precedes := by
  induction as with
  | nil => simp [placeSpecifier]
  | cons b bs ih =>
    have hb := List.pairwise_cons.mp h
    unfold placeSpecifier
    split_ifs with hsame hbefore
    · exact h
    · refine List.pairwise_cons.mpr ⟨fun x hx => ?_, h⟩
      rcases List.mem_cons.mp hx with rfl | hx
      · exact hbefore
      · exact hbefore.trans (hb.1 x hx)
    · refine List.pairwise_cons.mpr ⟨fun x hx => ?_, ih hb.2⟩
      rcases mem_placeSpecifier.mp hx with rfl | hx
      · exact precedes_of_not hsame hbefore
      · exact hb.1 x hx

theorem mem_specifiers {s : ImportSet} {a : String} :
    a ∈ s.specifiers ↔ ∃ b ∈ s.bindings, b.source.specifier = a := by
  unfold specifiers
  induction s.bindings with
  | nil => simp
  | cons b bs ih =>
    rw [List.foldr_cons, mem_placeSpecifier, ih]
    simp [eq_comm]

theorem specifiers_ordered (s : ImportSet) : s.specifiers.Pairwise Precedes := by
  unfold specifiers
  induction s.bindings with
  | nil => exact .nil
  | cons b bs ih => exact placeSpecifier_ordered ih

theorem specifiers_nodup (s : ImportSet) : s.specifiers.Nodup :=
  s.specifiers_ordered.imp Precedes.ne

theorem ImportsExactly.specifiers_eq {specifier : String} {names : List String} {s : ImportSet}
    (h : s.ImportsExactly specifier names) (hnames : names ≠ []) : s.specifiers = [specifier] := by
  obtain ⟨name, hname⟩ := List.exists_mem_of_ne_nil _ hnames
  have hbound := (h name).trans (if_pos hname)
  have hmem : specifier ∈ s.specifiers :=
    mem_specifiers.mpr ⟨_, source?_eq_some_iff.mp hbound, rfl⟩
  have honly : ∀ a ∈ s.specifiers, a = specifier := by
    intro a ha
    obtain ⟨b, hb, rfl⟩ := mem_specifiers.mp ha
    rw [(h.of_mem_bindings hb).2]
  have hnodup := s.specifiers_nodup
  rw [List.eq_replicate_of_mem honly] at hnodup hmem ⊢
  have hatmost := List.nodup_replicate.mp hnodup
  have hatleast := (List.mem_replicate.mp hmem).1
  rw [show s.specifiers.length = 1 by omega]
  rfl

/-- The statements hold the bindings of the set, each in one statement. -/
theorem statements_perm (s : ImportSet) :
    (s.statements.flatMap ImportStatement.bindings).Perm s.bindings := by
  have hbindings : s.bindings.Nodup := .of_map _ s.names_nodup
  refine (List.perm_ext_iff_of_nodup ?_ hbindings).mpr fun b => ?_
  · refine List.nodup_flatMap.mpr ⟨fun x hx => ?_, List.pairwise_map.mpr ?_⟩
    · obtain ⟨a, -, rfl⟩ := List.mem_map.mp hx
      exact hbindings.filter _
    · refine s.specifiers_nodup.imp fun {a a'} hne => ?_
      intro b hb hb'
      have ha := (List.mem_filter.mp hb).2
      have ha' := (List.mem_filter.mp hb').2
      exact hne ((beq_iff_eq.mp ha).symm.trans (beq_iff_eq.mp ha'))
  · simp only [statements, List.flatMap_map, List.mem_flatMap, List.mem_filter, beq_iff_eq,
      mem_specifiers]
    constructor
    · rintro ⟨a, -, hb, -⟩
      exact hb
    · intro hb
      exact ⟨_, ⟨b, hb, rfl⟩, hb, rfl⟩

end CallBridge.Generated.ImportSet
