import CallBridge.Proofs.Generated.Wiring
import Mathlib.Data.Finset.Card
import Mathlib.Order.Bounds.Defs

/-! # Claims of names

A claim tries its candidates one after the other. Each attempt puts the candidate among the taken
names, and the first that was not there ends the claim. No candidate is tried twice and finitely many
names are taken, so the attempts end, and one name is taken by them. Names that are claimed one after
the other are all different, and those of a backend module are claimed in this way.
-/
namespace CallBridge.Generated

section Attempts
variable (preferred namespaceName : String)

/-- Trying the candidates from the one numbered `n` on while some names are taken ends after a number
of attempts, with a name and the names that are taken then. -/
inductive Tries : ℕ → Finset String → ℕ → String → Finset String → Prop
  | free {n : ℕ} {taken : Finset String} (hfree : candidate preferred namespaceName n ∉ taken) :
    Tries n taken 1 (candidate preferred namespaceName n)
      (insert (candidate preferred namespaceName n) taken)
  | taken {n attempts : ℕ} {taken after : Finset String} {name : String}
    (htaken : candidate preferred namespaceName n ∈ taken)
    (hrest : Tries (n + 1) (insert (candidate preferred namespaceName n) taken) attempts name after) :
    Tries n taken (attempts + 1) name after

variable {preferred namespaceName}

/-- The search for a free candidate tells how the attempts end. An attempt that fails puts nothing
new among the taken names, so the search may go on with the same ones. -/
theorem tries_iff (taken : List String) (n : ℕ) {attempts : ℕ} {name : String}
    {after : Finset String} :
    Tries preferred namespaceName n taken.toFinset attempts name after ↔
      attempts + n = firstFree taken preferred namespaceName n + 1 ∧
        name = candidate preferred namespaceName (firstFree taken preferred namespaceName n) ∧
        after = insert name taken.toFinset := by
  fun_induction firstFree taken preferred namespaceName n generalizing attempts with
  | case1 n htaken ih =>
    have hmem := List.mem_toFinset.mpr htaken
    constructor
    · rintro (hfree | ⟨-, hrest⟩)
      · exact absurd hmem hfree
      · rw [Finset.insert_eq_of_mem hmem] at hrest
        obtain ⟨hcount, hends⟩ := ih.mp hrest
        exact ⟨by omega, hends⟩
    · rintro ⟨hcount, hends⟩
      have hle := (firstFree_spec taken preferred namespaceName (n + 1)).2.1
      obtain ⟨attempts, rfl⟩ : ∃ k, attempts = k + 1 := ⟨attempts - 1, by omega⟩
      refine .taken hmem ?_
      rw [Finset.insert_eq_of_mem hmem]
      exact ih.mpr ⟨by omega, hends⟩
  | case2 n hfree =>
    have hnotMem := mt List.mem_toFinset.mp hfree
    constructor
    · rintro (- | ⟨hmem, -⟩)
      · exact ⟨Nat.add_comm 1 n, rfl, rfl⟩
      · exact absurd hmem hnotMem
    · rintro ⟨hcount, rfl, rfl⟩
      obtain rfl : attempts = 1 := by omega
      exact .free hnotMem

/-- The candidates that a search passes are as many different taken names. -/
theorem firstFree_le_card (taken : List String) (preferred namespaceName : String) :
    firstFree taken preferred namespaceName 0 ≤ taken.toFinset.card := by
  obtain ⟨-, -, hpassed⟩ := firstFree_spec taken preferred namespaceName 0
  have hsub : (Finset.range (firstFree taken preferred namespaceName 0)).image
      (candidate preferred namespaceName) ⊆ taken.toFinset := by
    intro x hx
    obtain ⟨i, hi, rfl⟩ := Finset.mem_image.mp hx
    exact List.mem_toFinset.mpr (hpassed i (Nat.zero_le i) (Finset.mem_range.mp hi))
  have hle := Finset.card_le_card hsub
  rwa [Finset.card_image_of_injective _ (candidate_injective preferred namespaceName),
    Finset.card_range] at hle

end Attempts

section Name
variable {taken : List String} {preferred namespaceName : String}

theorem candidate_of_two_le {n : ℕ} (h : 2 ≤ n) : candidate preferred namespaceName n =
    namespaceName ++ "_" ++ preferred ++ "_" ++ toString n := by
  obtain ⟨k, rfl⟩ := Nat.exists_eq_add_of_le' h
  rfl

theorem claim_eq_qualified_iff :
    claim taken preferred namespaceName = namespaceName ++ "_" ++ preferred ↔
      preferred ∈ taken ∧ namespaceName ++ "_" ++ preferred ∉ taken := by
  refine claim_eq_candidate_iff (n := 1) |>.trans ⟨fun h => ⟨h.2 0 Nat.one_pos, h.1⟩, fun h => ?_⟩
  refine ⟨h.2, fun i hi => ?_⟩
  obtain rfl := Nat.lt_one_iff.mp hi
  exact h.1

theorem claim_eq_numbered_iff :
    (∃ n, IsLeast {n : ℕ | 2 ≤ n ∧
        namespaceName ++ "_" ++ preferred ++ "_" ++ toString n ∉ taken} n ∧
      claim taken preferred namespaceName =
        namespaceName ++ "_" ++ preferred ++ "_" ++ toString n) ↔
      preferred ∈ taken ∧ namespaceName ++ "_" ++ preferred ∈ taken := by
  constructor
  · rintro ⟨n, ⟨⟨hn, -⟩, -⟩, hclaim⟩
    rw [← candidate_of_two_le hn] at hclaim
    have hbefore := (claim_eq_candidate_iff.mp hclaim).2
    exact ⟨hbefore 0 (by omega), hbefore 1 (by omega)⟩
  · rintro ⟨hpreferred, hqualified⟩
    obtain ⟨hfree, -, hpassed⟩ := firstFree_spec taken preferred namespaceName 0
    -- The first two candidates are taken, so the search stops at a numbered one.
    have htwo : 2 ≤ firstFree taken preferred namespaceName 0 := by
      by_contra hlt
      interval_cases firstFree taken preferred namespaceName 0
      · exact hfree hpreferred
      · exact hfree hqualified
    refine ⟨_, ⟨⟨htwo, candidate_of_two_le htwo ▸ hfree⟩, fun m ⟨hm, hmfree⟩ => ?_⟩,
      candidate_of_two_le htwo⟩
    by_contra hlt
    exact hmfree (candidate_of_two_le hm ▸ hpassed m (Nat.zero_le m) (Nat.not_le.mp hlt))

/-- What a claim does for a preferred name and a namespace while some names are taken. -/
structure Claims (preferred namespaceName : String) (taken : Finset String) (name : String)
    (after : Finset String) : Prop where
  /-- The attempts end in one way, and at most one of them fails for each taken name. -/
  ends : ∃ attempts ≤ taken.card + 1, ∀ k x xs, Tries preferred namespaceName 0 taken k x xs ↔
    k = attempts ∧ x = name ∧ xs = after
  fresh : name ∉ taken
  takes : after = insert name taken
  plain : name = preferred ↔ preferred ∉ taken
  qualified : name = namespaceName ++ "_" ++ preferred ↔
    preferred ∈ taken ∧ namespaceName ++ "_" ++ preferred ∉ taken
  numbered : (∃ n, IsLeast {n : ℕ | 2 ≤ n ∧
        namespaceName ++ "_" ++ preferred ++ "_" ++ toString n ∉ taken} n ∧
      name = namespaceName ++ "_" ++ preferred ++ "_" ++ toString n) ↔
    preferred ∈ taken ∧ namespaceName ++ "_" ++ preferred ∈ taken

theorem Names.claims_claim (names : Names) (preferred namespaceName : String) :
    Claims preferred namespaceName names.taken.toFinset (claim names.taken preferred namespaceName)
      (names.reserve (claim names.taken preferred namespaceName)).taken.toFinset := by
  have hafter : (names.reserve (claim names.taken preferred namespaceName)).taken.toFinset =
      insert (claim names.taken preferred namespaceName) names.taken.toFinset := by
    ext x
    simp [reserve, or_comm]
  refine ⟨⟨firstFree names.taken preferred namespaceName 0 + 1,
    Nat.succ_le_succ (firstFree_le_card names.taken preferred namespaceName), fun k x xs => ?_⟩,
    ?_, hafter, ?_, ?_, ?_⟩
  · rw [tries_iff, hafter, Nat.add_zero]
    exact and_congr_right fun _ => and_congr_right fun hx => by rw [hx, claim]
  · exact mt List.mem_toFinset.mp (claim_notMem names.taken preferred namespaceName)
  · simp only [List.mem_toFinset, claim_eq_preferred_iff]
  · simp only [List.mem_toFinset, claim_eq_qualified_iff]
  · simp only [List.mem_toFinset, claim_eq_numbered_iff]

end Name

namespace Names

/-- The names that are given for preferred names and namespaces, each taken from then on. -/
def claimEach (names : Names) : List (String × String) → List String
  | [] => []
  | (preferred, namespaceName) :: rest =>
    let name := claim names.taken preferred namespaceName
    name :: (names.reserve name).claimEach rest

theorem claimEach_fresh (names : Names) (requests : List (String × String)) :
    (names.claimEach requests).Nodup ∧ names.taken.Disjoint (names.claimEach requests) := by
  induction requests generalizing names with
  | nil => exact ⟨List.nodup_nil, List.disjoint_nil_right _⟩
  | cons request rest ih =>
    obtain ⟨preferred, namespaceName⟩ := request
    let name := claim names.taken preferred namespaceName
    obtain ⟨hnodup, hdisjoint⟩ := ih (names.reserve name)
    obtain ⟨hbefore, hname⟩ := List.disjoint_append_left.mp hdisjoint
    have hfree : name ∉ names.taken := claim_notMem names.taken preferred namespaceName
    exact ⟨List.nodup_cons.mpr ⟨List.singleton_disjoint.mp hname, hnodup⟩,
      List.disjoint_cons_right.mpr ⟨hfree, hbefore⟩⟩

/-- A name that is given in place of a taken one may be the preferred one of a later claim. -/
example : ({} : Names).claimEach [("load", "one"), ("load", "two"), ("two_load", "one")] =
    ["load", "two_load", "one_two_load"] := by
  decide +kernel

theorem claimEach_append (names : Names) (requests : List (String × String))
    (preferred namespaceName : String) :
    names.claimEach (requests ++ [(preferred, namespaceName)]) = names.claimEach requests ++
      [claim (names.taken ++ names.claimEach requests) preferred namespaceName] := by
  induction requests generalizing names with
  | nil => simp [claimEach]
  | cons request rest ih => simp [claimEach, ih, reserve]

/-- All taken names were claimed, one after the other. -/
def AllClaimed (names : Names) : Prop :=
  ∃ requests, names.taken = ({} : Names).claimEach requests

theorem AllClaimed.reserve {names : Names} (h : names.AllClaimed)
    (preferred namespaceName : String) :
    (names.reserve (claim names.taken preferred namespaceName)).AllClaimed := by
  obtain ⟨requests, htaken⟩ := h
  refine ⟨requests ++ [(preferred, namespaceName)], ?_⟩
  rw [claimEach_append, List.nil_append, ← htaken]
  rfl

theorem AllClaimed.bindInstance {names : Names} (h : names.AllClaimed) (m : Method) :
    (names.bindInstance m).AllClaimed := by
  rcases bindInstance_cases names m with ⟨he, -⟩ | ⟨o, name, -, -, rfl, he⟩
  · rw [he]
    exact h
  · rw [he]
    exact h.reserve o.instanceName m.namespaceName

end Names

namespace Backend
variable {output : Path} {runtime : String} {acc next : Names × ImportSet}

theorem allClaimed_importRuntime {name : String} (h : acc.1.AllClaimed)
    (hnext : importRuntime runtime acc name = .ok next) : next.1.AllClaimed := by
  obtain ⟨imports, -, hnext⟩ := bind_eq_ok_iff.mp hnext
  obtain rfl := pure_eq_ok_iff.mp hnext
  exact h.reserve name ""

theorem allClaimed_importOwner {m : Method} (h : acc.1.AllClaimed)
    (hnext : importOwner output acc m = .ok next) : next.1.AllClaimed := by
  unfold importOwner at hnext
  split at hnext
  · cases hnext
    exact h
  · obtain ⟨imports, -, hnext⟩ := bind_eq_ok_iff.mp hnext
    obtain rfl := pure_eq_ok_iff.mp hnext
    exact h.reserve m.owner.name m.namespaceName

/-- Runtime functions, owners and instances have their names from claims. -/
theorem allClaimed_bindings {s : Surface} {names : Names} {imports : ImportSet}
    (h : bindings s output runtime = .ok (names, imports)) : names.AllClaimed := by
  obtain ⟨start, hstart, h⟩ := bind_eq_ok_iff.mp h
  obtain ⟨⟨owned, set⟩, howned, h⟩ := bind_eq_ok_iff.mp h
  obtain ⟨rfl, -⟩ := Prod.mk.inj (pure_eq_ok_iff.mp h)
  have hruntime : start.1.AllClaimed :=
    of_foldlM_eq_ok (P := fun _ acc => acc.1.AllClaimed) ⟨[], rfl⟩
      (fun _ _ _ _ => allClaimed_importRuntime) hstart
  have howners : owned.AllClaimed :=
    of_foldlM_eq_ok (P := fun _ acc => acc.1.AllClaimed) hruntime
      (fun _ _ _ _ => allClaimed_importOwner) howned
  exact List.foldlRecOn s.methods Names.bindInstance howners fun _ hnames m _ => hnames.bindInstance m

end Backend

/-- A claim ends after at most one attempt more than there are taken names. It gives the preferred
name if that is free, otherwise the one that the namespace qualifies, and otherwise the latter with
the least number from 2 on that makes it free, and takes this name only. Names that are claimed one
after the other are different from each other and from those taken before, and the names of every
backend module are claimed in this way. -/
theorem claims_fresh :
    (∀ (names : Names) (preferred namespaceName : String),
      Claims preferred namespaceName names.taken.toFinset
        (claim names.taken preferred namespaceName)
        (names.reserve (claim names.taken preferred namespaceName)).taken.toFinset) ∧
      (∀ (names : Names) (requests : List (String × String)),
        (names.claimEach requests).Nodup ∧ names.taken.Disjoint (names.claimEach requests)) ∧
      ∀ (s : Surface) (output : Path) (runtime : String), ∃ names imports,
        Backend.bindings s output runtime = .ok (names, imports) ∧ names.AllClaimed := by
  refine ⟨Names.claims_claim, Names.claimEach_fresh, fun s output runtime => ?_⟩
  obtain ⟨-, names, imports, hbindings, -, -⟩ := exists_bindings s output runtime
  exact ⟨names, imports, hbindings, Backend.allClaimed_bindings hbindings⟩

/-- Each of the three taken names is a candidate for `load` in the namespace `api`. -/
def crowdedNames : Names where
  taken := ["api_load", "api_load_2", "load"]

theorem crowdedNames_claims_fresh :
    Claims "load" "api" crowdedNames.taken.toFinset "api_load_3"
        (crowdedNames.reserve "api_load_3").taken.toFinset ∧
      crowdedNames.taken.toFinset.card + 1 = 4 ∧
      Tries "load" "api" 0 crowdedNames.taken.toFinset 4 "api_load_3"
        (crowdedNames.reserve "api_load_3").taken.toFinset := by
  have hname : claim crowdedNames.taken "load" "api" = "api_load_3" := by decide +kernel
  have hclaims := claims_fresh.1 crowdedNames "load" "api"
  rw [hname] at hclaims
  refine ⟨hclaims, by decide, ?_⟩
  rw [tries_iff, hclaims.takes]
  exact ⟨by decide +kernel, by decide +kernel, rfl⟩

end CallBridge.Generated
