import CallBridge.Distinct
import Mathlib.Data.List.Forall2
import Mathlib.Data.List.Induction
import Mathlib.Data.List.Nodup
import Mathlib.Data.List.Perm.Subperm

/-! # Steps that may fail, and values in lists

A sequence of steps succeeds exactly if every step does, and what each step keeps a whole fold keeps.
Of more different values than a list is long, one is not in the list. A sorted list without
repetitions holds values of the given list, and for each of them one that is the same.
-/
namespace CallBridge

variable {ε α β : Type}

theorem bind_eq_ok_iff {x : Except ε α} {f : α → Except ε β} {b : β} :
    x >>= f = .ok b ↔ ∃ a, x = .ok a ∧ f a = .ok b := by
  cases x with
  | error e =>
    constructor
    · intro h
      cases h
    · rintro ⟨a, h, -⟩
      cases h
  | ok a =>
    constructor
    · exact fun h => ⟨a, rfl, h⟩
    · rintro ⟨a', h, hf⟩
      cases h
      exact hf

theorem pure_eq_ok_iff {a b : α} : (pure a : Except ε α) = .ok b ↔ a = b := by
  constructor
  · intro h
    cases h
    rfl
  · rintro rfl
    rfl

/-- A fold whose steps succeed under an invariant and keep it succeeds and keeps it. The invariant
speaks of the elements that were folded so far. -/
theorem foldlM_ok {f : β → α → Except ε β} {P : List α → β → Prop} {xs : List α} {start : β}
    (hstart : P [] start)
    (hstep : ∀ pre x post acc, xs = pre ++ x :: post → P pre acc →
      ∃ next, f acc x = .ok next ∧ P (pre ++ [x]) next) :
    ∃ out, xs.foldlM f start = .ok out ∧ P xs out := by
  have hgen : ∀ rest pre acc, xs = pre ++ rest → P pre acc →
      ∃ out, rest.foldlM f acc = .ok out ∧ P xs out := by
    intro rest
    induction rest with
    | nil =>
      intro pre acc hxs hp
      exact ⟨acc, rfl, by simpa [hxs] using hp⟩
    | cons x rest ih =>
      intro pre acc hxs hp
      obtain ⟨next, hn, hnext⟩ := hstep pre x rest acc hxs hp
      obtain ⟨out, ho, hout⟩ := ih (pre ++ [x]) next (by simp [hxs]) hnext
      refine ⟨out, ?_, hout⟩
      rw [List.foldlM_cons, hn]
      exact ho
  exact hgen xs [] start rfl hstart

/-- What each step of a fold keeps if it succeeds holds of the result. -/
theorem of_foldlM_eq_ok {f : β → α → Except ε β} {P : List α → β → Prop} {xs : List α}
    {start out : β} (hstart : P [] start)
    (hstep : ∀ pre x acc next, P pre acc → f acc x = .ok next → P (pre ++ [x]) next)
    (h : xs.foldlM f start = .ok out) : P xs out := by
  have hgen : ∀ rest pre acc, xs = pre ++ rest → P pre acc → rest.foldlM f acc = .ok out →
      P xs out := by
    intro rest
    induction rest with
    | nil =>
      intro pre acc hxs hp h
      obtain rfl := pure_eq_ok_iff.mp h
      simpa [hxs] using hp
    | cons x rest ih =>
      intro pre acc hxs hp h
      rw [List.foldlM_cons, bind_eq_ok_iff] at h
      obtain ⟨next, hnext, h⟩ := h
      exact ih (pre ++ [x]) next (by simp [hxs]) (hstep pre x acc next hp hnext) h
  exact hgen xs [] start rfl hstart h

/-- A fold that fails does so at an element, behind a front whose steps succeed. -/
theorem of_foldlM_eq_error {f : β → α → Except ε β} {xs : List α} {start : β} {e : ε}
    (h : xs.foldlM f start = .error e) :
    ∃ pre x post acc, xs = pre ++ x :: post ∧ pre.foldlM f start = .ok acc ∧ f acc x = .error e := by
  induction xs generalizing start with
  | nil => cases h
  | cons x xs ih =>
    cases hnext : f start x with
    | error e' =>
      rw [List.foldlM_cons, hnext] at h
      cases h
      exact ⟨[], x, xs, start, rfl, rfl, hnext⟩
    | ok next =>
      rw [List.foldlM_cons, hnext] at h
      obtain ⟨pre, y, post, acc, rfl, hpre, hfail⟩ := ih h
      refine ⟨x :: pre, y, post, acc, rfl, ?_, hfail⟩
      rw [List.foldlM_cons, hnext]
      exact hpre

/-- What the result of a fold has and the start has not was added by a step. -/
theorem exists_added_of_foldlM {f : β → α → Except ε β} {Has : β → Prop} {Adds : α → Prop}
    (hstep : ∀ acc x next, f acc x = .ok next → Has next → Adds x ∨ Has acc) {xs : List α}
    {start out : β} (h : xs.foldlM f start = .ok out) (hout : Has out) :
    (∃ x ∈ xs, Adds x) ∨ Has start := by
  induction xs generalizing start with
  | nil =>
    obtain rfl := pure_eq_ok_iff.mp h
    exact .inr hout
  | cons x xs ih =>
    obtain ⟨next, hnext, h⟩ := bind_eq_ok_iff.mp h
    rcases ih h with ⟨y, hy, hadds⟩ | hhas
    · exact .inl ⟨y, .tail _ hy, hadds⟩
    · exact (hstep start x next hnext hhas).imp (fun hadds => ⟨x, List.mem_cons_self, hadds⟩) id

theorem exists_eq_ok {x : Except ε α} (h : x.isOk = true) : ∃ a, x = .ok a := by
  cases x with
  | error e => cases h
  | ok a => exact ⟨a, rfl⟩

theorem eq_ok_of_toOption {x : Except ε α} {a : α} (h : x.toOption = some a) : x = .ok a := by
  cases x with
  | error e => cases h
  | ok b =>
    obtain rfl := Option.some.inj h
    rfl

theorem exists_mem_notMem {xs taken : List α} (hxs : xs.Nodup)
    (hlen : taken.length < xs.length) : ∃ x ∈ xs, x ∉ taken := by
  by_contra h
  have hsub : xs ⊆ taken := by
    intro x hx
    by_contra hfree
    exact h ⟨x, hx, hfree⟩
  have hle := (List.subperm_of_subset hxs hsub).length_le
  omega

/-- Lists are related item by item by what a function says of the items. -/
theorem forall₂_iff_map_eq {R : α → α → Prop} {f : α → β}
    (h : ∀ a b, R a b ↔ f a = f b) {xs ys : List α} :
    List.Forall₂ R xs ys ↔ xs.map f = ys.map f := by
  have hR : R = fun a b => f a = f b := by
    funext a b
    exact propext (h a b)
  rw [hR, ← List.forall₂_eq_eq_eq, List.forall₂_map_left_iff, List.forall₂_map_right_iff]

theorem filterMap_eq_of_forall₂ {f g : α → Option β} {xs ys : List α}
    (h : List.Forall₂ (fun a b => f a = g b) xs ys) : xs.filterMap f = ys.filterMap g := by
  induction h with
  | nil => rfl
  | cons hab _ ih => rw [List.filterMap_cons, List.filterMap_cons, hab, ih]

theorem flatMap_eq_of_forall₂ {f g : α → List β} {xs ys : List α}
    (h : List.Forall₂ (fun a b => f a = g b) xs ys) : xs.flatMap f = ys.flatMap g := by
  induction h with
  | nil => rfl
  | cons hab _ ih => rw [List.flatMap_cons, List.flatMap_cons, hab, ih]

theorem sublist_flatMap_of_mem {f : α → List β} {x : α} {xs : List α} (h : x ∈ xs) :
    (f x).Sublist (xs.flatMap f) := by
  rw [List.flatMap]
  exact List.sublist_flatten_of_mem (List.mem_map_of_mem h)

section Related
variable {γ : Type} {R : α → β → Prop} {o : Option α} {o' : Option β}

theorem isSome_eq_of_rel (h : Option.Rel R o o') : o.isSome = o'.isSome := by
  cases h <;> rfl

theorem any_eq_of_rel {p : α → Bool} {q : β → Bool} (h : Option.Rel R o o')
    (hpq : ∀ a b, R a b → p a = q b) : o.any p = o'.any q := by
  cases h with
  | none => rfl
  | some hab => rw [Option.any_some, Option.any_some, hpq _ _ hab]

theorem map_eq_of_rel {f : α → γ} {g : β → γ} (h : Option.Rel R o o')
    (hfg : ∀ a b, R a b → f a = g b) : o.map f = o'.map g := by
  cases h with
  | none => rfl
  | some hab => rw [Option.map_some, Option.map_some, hfg _ _ hab]

theorem bind_eq_of_rel {f : α → Option γ} {g : β → Option γ} (h : Option.Rel R o o')
    (hfg : ∀ a b, R a b → f a = g b) : o.bind f = o'.bind g := by
  cases h with
  | none => rfl
  | some hab => rw [Option.bind_some, Option.bind_some, hfg _ _ hab]

end Related

theorem getD_ne_getD {fresh : ℕ → α} (hfresh : Function.Injective fresh) {x y : Option α} {i j : ℕ}
    (hij : i ≠ j) (hgiven : ∀ a, x = some a → y ≠ some a) (hx : x = none → y ≠ some (fresh i))
    (hy : y = none → x ≠ some (fresh j)) : x.getD (fresh i) ≠ y.getD (fresh j) := by
  intro h
  cases x with
  | none =>
    cases y with
    | none => exact hij (hfresh h)
    | some b => exact hx rfl (congrArg some h.symm)
  | some a =>
    cases y with
    | none => exact hy rfl (congrArg some h)
    | some b => exact hgiven a rfl (congrArg some h.symm)

/-- A list whose gaps are filled by index holds different values if and only if none of those
filled in was there before. -/
theorem nodup_mapIdx_getD_iff {fresh : ℕ → α} (hfresh : Function.Injective fresh)
    {xs : List (Option α)} (hxs : (xs.filterMap id).Nodup) :
    (xs.mapIdx fun i x => x.getD (fresh i)).Nodup ↔
      ∀ i, xs[i]? = some none → some (fresh i) ∉ xs := by
  simp only [List.Nodup, List.pairwise_iff_getElem, List.length_mapIdx, List.getElem_mapIdx]
  constructor
  · intro hne i hi hmem
    obtain ⟨hlt, hnone⟩ := List.getElem?_eq_some_iff.mp hi
    obtain ⟨j, hj, hsome⟩ := List.mem_iff_getElem.mp hmem
    have hsame : xs[i].getD (fresh i) = xs[j].getD (fresh j) := by
      rw [hnone, hsome]
      rfl
    rcases Nat.lt_trichotomy i j with hij | rfl | hij
    · exact hne i j hlt hj hij hsame
    · rw [hnone] at hsome
      cases hsome
    · exact hne j i hj hlt hij hsame.symm
  · intro hfree i j hi hj hij
    have hgiven := List.pairwise_iff_getElem.mp (List.pairwise_filterMap.mp hxs) i j hi hj hij
    have hnew : ∀ k (hk : k < xs.length), xs[k] = none → some (fresh k) ∉ xs :=
      fun k hk hnone => hfree k (by rw [List.getElem?_eq_getElem hk, hnone])
    refine getD_ne_getD hfresh (Nat.ne_of_lt hij) (fun a ha hb => hgiven a ha a hb rfl) ?_ ?_
    · exact fun hnone hsome => hnew i hi hnone (hsome ▸ List.getElem_mem hj)
    · exact fun hnone hsome => hnew j hj hnone (hsome ▸ List.getElem_mem hi)

theorem mem_of_mem_keepLast {same : α → α → Bool} {x y : α} {kept : List α}
    (h : y ∈ keepLast same x kept) : y = x ∨ y ∈ kept := by
  cases kept with
  | nil => exact .inl (List.mem_singleton.mp h)
  | cons z zs =>
    simp only [keepLast] at h
    split_ifs at h
    · exact .inr h
    · exact List.mem_cons.mp h

theorem exists_mem_keepLast {same : α → α → Bool} (hrefl : ∀ x, same x x = true) {x y : α}
    {kept : List α} (h : y = x ∨ y ∈ kept) : ∃ z ∈ keepLast same x kept, same y z = true := by
  cases kept with
  | nil =>
    obtain rfl : y = x := by simpa using h
    exact ⟨y, by simp [keepLast], hrefl y⟩
  | cons w ws =>
    simp only [keepLast]
    split_ifs with hw
    · rcases h with rfl | h
      · exact ⟨w, List.mem_cons_self, hw⟩
      · exact ⟨y, h, hrefl y⟩
    · exact ⟨y, List.mem_cons.mpr h, hrefl y⟩

theorem mem_of_mem_foldr_keepLast {same : α → α → Bool} {x : α} {xs : List α}
    (h : x ∈ xs.foldr (keepLast same) []) : x ∈ xs := by
  induction xs with
  | nil => exact h
  | cons y ys ih =>
    rcases mem_of_mem_keepLast h with rfl | h
    · exact List.mem_cons_self
    · exact List.mem_cons_of_mem _ (ih h)

theorem mem_of_mem_sortedDistinct {le same : α → α → Bool} {x : α} {xs : List α}
    (h : x ∈ sortedDistinct le same xs) : x ∈ xs :=
  (List.mergeSort_perm xs le).mem_iff.mp (mem_of_mem_foldr_keepLast h)

theorem exists_mem_sortedDistinct {le same : α → α → Bool} (hrefl : ∀ x, same x x = true)
    (htrans : ∀ {x y z}, same x y = true → same y z = true → same x z = true) {x : α} {xs : List α}
    (h : x ∈ xs) : ∃ y ∈ sortedDistinct le same xs, same x y = true := by
  replace h := (List.mergeSort_perm xs le).mem_iff.mpr h
  unfold sortedDistinct
  generalize xs.mergeSort le = ys at h ⊢
  induction ys with
  | nil => exact absurd h List.not_mem_nil
  | cons y ys ih =>
    rcases List.mem_cons.mp h with rfl | h
    · exact exists_mem_keepLast hrefl (.inl rfl)
    · obtain ⟨z, hz, hxz⟩ := ih h
      obtain ⟨w, hw, hzw⟩ := exists_mem_keepLast hrefl (.inr hz)
      exact ⟨w, hw, htrans hxz hzw⟩

theorem mem_keepFirst {same : α → α → Bool} {x y : α} {kept : List α}
    (h : y ∈ keepFirst same kept x) : y ∈ kept ∨ y = x := by
  unfold keepFirst at h
  split_ifs at h
  · exact .inl h
  · simpa using h

theorem exists_mem_keepFirst {same : α → α → Bool} (hrefl : ∀ x, same x x = true) {x y : α}
    {kept : List α} (h : y ∈ kept ∨ y = x) : ∃ z ∈ keepFirst same kept x, same y z = true := by
  unfold keepFirst
  split_ifs with hx
  · rcases h with h | rfl
    · exact ⟨y, h, hrefl y⟩
    · exact List.any_eq_true.mp hx
  · exact ⟨y, by simpa using h, hrefl y⟩

theorem pairwise_keepFirst {same : α → α → Bool}
    (hsymm : ∀ {x y}, same x y = true → same y x = true) {x : α} {kept : List α}
    (h : kept.Pairwise fun x y => ¬ same x y = true) :
    (keepFirst same kept x).Pairwise fun x y => ¬ same x y = true := by
  unfold keepFirst
  split_ifs with hx
  · exact h
  · refine List.pairwise_append.mpr ⟨h, List.pairwise_singleton _ _, fun y hy z hz he => hx ?_⟩
    obtain rfl : z = x := List.mem_singleton.mp hz
    exact List.any_eq_true.mpr ⟨y, hy, hsymm he⟩

private theorem mem_foldl_keepFirst {same : α → α → Bool} {x : α} {xs kept : List α}
    (h : x ∈ xs.foldl (keepFirst same) kept) : x ∈ kept ∨ x ∈ xs := by
  induction xs generalizing kept with
  | nil => exact .inl h
  | cons y ys ih =>
    rcases ih h with h | h
    · rcases mem_keepFirst h with h | rfl
      · exact .inl h
      · exact .inr List.mem_cons_self
    · exact .inr (List.mem_cons_of_mem _ h)

private theorem exists_mem_foldl_keepFirst {same : α → α → Bool} (hrefl : ∀ x, same x x = true)
    (htrans : ∀ {x y z}, same x y = true → same y z = true → same x z = true) {x : α}
    {xs kept : List α} (h : x ∈ kept ∨ x ∈ xs) :
    ∃ y ∈ xs.foldl (keepFirst same) kept, same x y = true := by
  induction xs generalizing kept x with
  | nil => exact ⟨x, by simpa using h, hrefl x⟩
  | cons y ys ih =>
    have hstep : (x ∈ kept ∨ x = y) ∨ x ∈ ys := by
      rw [or_assoc]
      exact h.imp_right List.mem_cons.mp
    rcases hstep with hx | hx
    · obtain ⟨z, hz, hxz⟩ := exists_mem_keepFirst hrefl hx
      obtain ⟨w, hw, hzw⟩ := ih (.inl hz)
      exact ⟨w, hw, htrans hxz hzw⟩
    · exact ih (.inr hx)

private theorem pairwise_foldl_keepFirst {same : α → α → Bool}
    (hsymm : ∀ {x y}, same x y = true → same y x = true) {xs kept : List α}
    (h : kept.Pairwise fun x y => ¬ same x y = true) :
    (xs.foldl (keepFirst same) kept).Pairwise fun x y => ¬ same x y = true := by
  induction xs generalizing kept with
  | nil => exact h
  | cons y ys ih => exact ih (pairwise_keepFirst hsymm h)

theorem mem_of_mem_firstsDistinct {same : α → α → Bool} {x : α} {xs : List α}
    (h : x ∈ firstsDistinct same xs) : x ∈ xs :=
  (mem_foldl_keepFirst h).resolve_left List.not_mem_nil

theorem exists_mem_firstsDistinct {same : α → α → Bool} (hrefl : ∀ x, same x x = true)
    (htrans : ∀ {x y z}, same x y = true → same y z = true → same x z = true) {x : α} {xs : List α}
    (h : x ∈ xs) : ∃ y ∈ firstsDistinct same xs, same x y = true :=
  exists_mem_foldl_keepFirst hrefl htrans (.inr h)

theorem pairwise_firstsDistinct {same : α → α → Bool}
    (hsymm : ∀ {x y}, same x y = true → same y x = true) (xs : List α) :
    (firstsDistinct same xs).Pairwise fun x y => ¬ same x y = true :=
  pairwise_foldl_keepFirst hsymm .nil

/-- A first value stands in the list in front of everything that is the same as a later one. -/
theorem firstsDistinct_ordered {same : α → α → Bool} (hrefl : ∀ x, same x x = true)
    (htrans : ∀ {x y z}, same x y = true → same y z = true → same x z = true) (xs : List α) :
    (firstsDistinct same xs).Pairwise fun x y => ∃ before after, xs = before ++ x :: after ∧
      ∀ z ∈ before ++ [x], ¬ same y z = true := by
  induction xs using List.reverseRecOn with
  | nil => exact .nil
  | append_singleton xs w ih =>
    have hstep : firstsDistinct same (xs ++ [w]) = keepFirst same (firstsDistinct same xs) w := by
      rw [firstsDistinct, List.foldl_append]
      rfl
    have hkept : (firstsDistinct same xs).Pairwise fun x y => ∃ before after,
        xs ++ [w] = before ++ x :: after ∧ ∀ z ∈ before ++ [x], ¬ same y z = true := by
      refine ih.imp ?_
      rintro x y ⟨before, after, hxs, hbefore⟩
      exact ⟨before, after ++ [w], by rw [hxs, List.append_assoc, List.cons_append], hbefore⟩
    rw [hstep, keepFirst]
    split_ifs with hw
    · exact hkept
    · refine List.pairwise_append.mpr ⟨hkept, List.pairwise_singleton _ _, fun x hx y hy => ?_⟩
      obtain rfl : y = w := List.mem_singleton.mp hy
      obtain ⟨before, after, hxs⟩ := List.append_of_mem (mem_of_mem_firstsDistinct hx)
      refine ⟨before, after ++ [y], by rw [hxs, List.append_assoc, List.cons_append], ?_⟩
      intro z hz hyz
      have hmem : z ∈ xs := by
        rw [hxs, ← List.singleton_append, ← List.append_assoc]
        exact List.mem_append_left _ hz
      obtain ⟨first, hfirst, hsame⟩ := exists_mem_firstsDistinct hrefl htrans hmem
      exact hw (List.any_eq_true.mpr ⟨first, hfirst, htrans hyz hsame⟩)

/-- In a list without repetitions a value is the same as at most one. -/
theorem countP_same_eq_one {same : α → α → Bool}
    (hsymm : ∀ {x y}, same x y = true → same y x = true)
    (htrans : ∀ {x y z}, same x y = true → same y z = true → same x z = true) {x y : α} {xs : List α}
    (hxs : xs.Pairwise fun x y => ¬ same x y = true) (hy : y ∈ xs) (hxy : same x y = true) :
    xs.countP (same x) = 1 := by
  obtain ⟨before, after, rfl⟩ := List.append_of_mem hy
  obtain ⟨-, hafter, hbefore⟩ := List.pairwise_append.mp hxs
  have hfront : before.countP (same x) = 0 := List.countP_eq_zero.mpr fun z hz hxz =>
    hbefore z hz y List.mem_cons_self (htrans (hsymm hxz) hxy)
  have hback : after.countP (same x) = 0 := List.countP_eq_zero.mpr fun z hz hxz =>
    (List.pairwise_cons.mp hafter).1 z hz (htrans (hsymm hxy) hxz)
  rw [List.countP_append, hfront, List.countP_cons_of_pos hxy, hback]

end CallBridge
