import CallBridge.Generated.Backend
import CallBridge.Proofs.Basic
import CallBridge.Proofs.Surface.Owners

/-! # Names of a backend module

The search for a claimed name stops at the first candidate that is not taken. As every name that is
given out is claimed, different owners get different names, and so do different instances.
-/
namespace CallBridge.Generated

section Search
variable (taken : List String) (preferred namespaceName : String)

/-- The search passes candidates that are taken, and stops at one that is free. -/
theorem firstFree_spec (n : ℕ) :
    candidate preferred namespaceName (firstFree taken preferred namespaceName n) ∉ taken ∧
      n ≤ firstFree taken preferred namespaceName n ∧
      ∀ i, n ≤ i → i < firstFree taken preferred namespaceName n →
        candidate preferred namespaceName i ∈ taken := by
  fun_induction firstFree taken preferred namespaceName n with
  | case1 n htaken ih =>
    obtain ⟨hfree, hle, hpassed⟩ := ih
    refine ⟨hfree, by omega, fun i hi hlt => ?_⟩
    rcases Nat.eq_or_lt_of_le hi with rfl | hi
    · exact htaken
    · exact hpassed i hi hlt
  | case2 n hfree => exact ⟨hfree, Nat.le_refl n, fun i hi hlt => absurd hlt (Nat.not_lt.mpr hi)⟩

theorem claim_notMem : claim taken preferred namespaceName ∉ taken :=
  (firstFree_spec taken preferred namespaceName 0).1

variable {taken preferred namespaceName}

theorem claim_eq_candidate_iff {n : ℕ} :
    claim taken preferred namespaceName = candidate preferred namespaceName n ↔
      candidate preferred namespaceName n ∉ taken ∧
        ∀ i < n, candidate preferred namespaceName i ∈ taken := by
  obtain ⟨hfree, -, hpassed⟩ := firstFree_spec taken preferred namespaceName 0
  constructor
  · intro h
    obtain rfl := candidate_injective preferred namespaceName h
    exact ⟨hfree, fun i hi => hpassed i (Nat.zero_le i) hi⟩
  · rintro ⟨hn, hbefore⟩
    refine congrArg (candidate preferred namespaceName) (Nat.le_antisymm ?_ ?_)
    · by_contra hlt
      exact hn (hpassed n (Nat.zero_le n) (Nat.not_le.mp hlt))
    · by_contra hlt
      exact hfree (hbefore _ (Nat.not_le.mp hlt))

theorem claim_eq_preferred_iff :
    claim taken preferred namespaceName = preferred ↔ preferred ∉ taken := by
  refine claim_eq_candidate_iff (n := 0) |>.trans ⟨And.left, fun h => ⟨h, ?_⟩⟩
  exact fun i hi => absurd hi (Nat.not_lt_zero i)

end Search

theorem claim_of_notMem {taken : List String} {preferred : String} (h : preferred ∉ taken)
    (namespaceName : String) : claim taken preferred namespaceName = preferred :=
  claim_eq_preferred_iff.mpr h

namespace Names

theorem lookup_congr {a b : Owner} (h : a.same b = true) (entries : List (Owner × String)) :
    lookup a entries = lookup b entries := by
  unfold lookup
  congr 2
  funext e
  exact Bool.eq_iff_iff.mpr ⟨fun he => Owner.same_trans he h,
    fun he => Owner.same_trans he (Owner.same_symm h)⟩

theorem lookup_eq_some {o : Owner} {entries : List (Owner × String)} {name : String}
    (h : lookup o entries = some name) : ∃ p, (p, name) ∈ entries ∧ p.same o = true := by
  obtain ⟨e, he, rfl⟩ := Option.map_eq_some_iff.mp h
  exact ⟨e.1, List.mem_of_find?_eq_some he, by simpa using List.find?_some he⟩

theorem lookup_append_self {o : Owner} {entries : List (Owner × String)} (name : String)
    (h : lookup o entries = none) : lookup o (entries ++ [(o, name)]) = some name := by
  have hnone : entries.find? (fun e => e.1.same o) = none := by simpa [lookup] using h
  simp [lookup, List.find?_append, hnone]

theorem lookup_append_of_eq_some {o : Owner} {entries rest : List (Owner × String)} {name : String}
    (h : lookup o entries = some name) : lookup o (entries ++ rest) = some name := by
  obtain ⟨e, he, rfl⟩ := Option.map_eq_some_iff.mp h
  simp [lookup, List.find?_append, he]

theorem same_of_lookup_eq {a b : Owner} {entries : List (Owner × String)} {name : String}
    (hnodup : (entries.map Prod.snd).Nodup) (ha : lookup a entries = some name)
    (hb : lookup b entries = some name) : a.same b = true := by
  obtain ⟨p, hp, hpa⟩ := lookup_eq_some ha
  obtain ⟨q, hq, hqb⟩ := lookup_eq_some hb
  have he : (p, name) = (q, name) := List.inj_on_of_nodup_map hnodup hp hq rfl
  have hpq : p = q := (Prod.mk.inj he).1
  exact Owner.same_trans (Owner.same_symm hpa) (hpq ▸ hqb)

end Names

end CallBridge.Generated
