import CallBridge.Syntax.Tree
import Mathlib.Tactic.Common

/-! # Faults of syntax trees

The search for the first fault keeps a stack of trees and enters only those that are marked. If the
marks are right, what is left of the stack holds the first fault at every point, so the search finds
the one that comes first in source order, and finds none only if there is none.
-/
namespace CallBridge.Syntax.Tree

mutual

theorem hasFault_iff (t : Tree) : t.hasFault = true ↔ ∃ u ∈ t.preorder, u.isFault = true := by
  cases t with
  | node k f s cs =>
    rw [hasFault, Bool.or_eq_true, anyFault_iff cs]
    simp only [preorder, List.mem_cons, exists_eq_or_imp]
  | token text s => simp [hasFault, preorder]
  | missing s => simp [hasFault, preorder]

theorem anyFault_iff (ts : List Tree) :
    anyFault ts = true ↔ ∃ u ∈ preorderAll ts, u.isFault = true := by
  cases ts with
  | nil => simp [anyFault, preorderAll]
  | cons t ts =>
    rw [anyFault, Bool.or_eq_true, hasFault_iff t, anyFault_iff ts]
    simp only [preorderAll, List.mem_append, or_and_right, exists_or]

end

def MarksFaults (marked : Tree → Bool) (ts : List Tree) : Prop :=
  ∀ u ∈ preorderAll ts, marked u = true ↔ ∃ v ∈ u.preorder, v.isFault = true

theorem marksFaults_hasFault (ts : List Tree) : MarksFaults hasFault ts :=
  fun u _ => hasFault_iff u

section Search
variable {marked : Tree → Bool} {t : Tree} {rest : List Tree}

theorem preorderAll_singleton (t : Tree) : preorderAll [t] = t.preorder := by
  simp [preorderAll]

theorem preorderAll_cons (t : Tree) (rest : List Tree) :
    preorderAll (t :: rest) = t :: (preorderAll t.children ++ preorderAll rest) := by
  rw [preorderAll, preorder_eq, List.cons_append]

theorem preorderAll_pushAll (t : Tree) (rest : List Tree) :
    preorderAll (pushAll rest t.children) = preorderAll t.children ++ preorderAll rest := by
  rw [pushAll_eq, preorderAll_append]

theorem MarksFaults.pushed (h : MarksFaults marked (t :: rest)) :
    MarksFaults marked (pushAll rest t.children) := by
  intro u hu
  rw [preorderAll_pushAll] at hu
  exact h u (preorderAll_cons t rest ▸ List.mem_cons_of_mem _ hu)

theorem MarksFaults.popped (h : MarksFaults marked (t :: rest)) : MarksFaults marked rest :=
  fun u hu => h u (List.mem_append_right _ hu)

theorem MarksFaults.isFault_eq_false (h : MarksFaults marked (t :: rest)) (ht : marked t = false) :
    ∀ u ∈ preorderAll t.children, u.isFault = false := by
  intro u hu
  rw [← Bool.not_eq_true]
  intro hfault
  have hself : t ∈ preorderAll (t :: rest) := preorderAll_cons t rest ▸ List.mem_cons_self
  have hmarked := (h t hself).mpr ⟨u, preorder_eq t ▸ List.mem_cons_of_mem _ hu, hfault⟩
  rw [ht] at hmarked
  cases hmarked

/-- Behind each step, the first fault of what is left on the stack is the first fault of all. -/
theorem searchFault_eq_find (stack : List Tree) (h : MarksFaults marked stack) :
    searchFault marked stack = ((preorderAll stack).find? isFault).map line := by
  fun_induction searchFault marked stack with
  | case1 => rfl
  | case2 t rest hfault => rw [preorderAll_cons, List.find?_cons_of_pos hfault, Option.map_some]
  | case3 t rest hfault hmarked ih =>
    rw [ih h.pushed, preorderAll_pushAll, preorderAll_cons, List.find?_cons_of_neg hfault]
  | case4 t rest hfault hmarked ih =>
    have hclean : (preorderAll t.children).find? isFault = none := by
      refine List.find?_eq_none.mpr fun u hu => ?_
      rw [h.isFault_eq_false (Bool.eq_false_iff.mpr hmarked) u hu]
      exact Bool.false_ne_true
    rw [ih h.popped, preorderAll_cons, List.find?_cons_of_neg hfault, List.find?_append, hclean,
      Option.none_or]

end Search

theorem faultLine?_eq_find (t : Tree) : t.faultLine? = (t.preorder.find? isFault).map line := by
  rw [faultLine?, searchFault_eq_find _ (marksFaults_hasFault _), preorderAll_singleton]

theorem exists_faultLine? {t u : Tree} (hu : u ∈ t.preorder) (h : u.isFault = true) :
    ∃ n, t.faultLine? = some n := by
  rw [faultLine?_eq_find]
  cases hfind : t.preorder.find? isFault with
  | none => exact absurd h (List.find?_eq_none.mp hfind u hu)
  | some v => exact ⟨v.line, rfl⟩

/-- Whatever marks the trees that are or contain a fault, the search with these marks is the search
for the first fault. It ends without an answer exactly if the tree is without faults; otherwise its
answer is the line of the fault in front of which no other one stands, and no fault has a smaller
line if lines never decrease in source order. -/
theorem faultLine?_first {marked : Tree → Bool} {t : Tree}
    (hmarked : ∀ u ∈ t.preorder, marked u = true ↔ ∃ v ∈ u.preorder, v.isFault = true)
    (hlines : (t.preorder.map line).Pairwise (· ≤ ·)) :
    searchFault marked [t] = t.faultLine? ∧
    (t.faultLine? = none ↔ ∀ u ∈ t.preorder, u.isFault = false) ∧
    ((∃ u ∈ t.preorder, u.isFault = true) →
      ∃ before u behind, t.preorder = before ++ u :: behind ∧ u.isFault = true ∧
        (∀ v ∈ before, v.isFault = false) ∧ t.faultLine? = some u.line ∧
        ∀ v ∈ t.preorder, v.isFault = true → u.line ≤ v.line) := by
  have hmarks : MarksFaults marked [t] := by
    intro u hu
    exact hmarked u (preorderAll_singleton t ▸ hu)
  refine ⟨?_, ?_, fun ⟨w, hw, hfault⟩ => ?_⟩
  · rw [searchFault_eq_find _ hmarks, preorderAll_singleton, faultLine?_eq_find]
  · rw [faultLine?_eq_find, Option.map_eq_none_iff, List.find?_eq_none]
    simp only [Bool.not_eq_true]
  · cases hfind : t.preorder.find? isFault with
    | none => exact absurd hfault (List.find?_eq_none.mp hfind w hw)
    | some u =>
      obtain ⟨hu, before, behind, hsplit, hbefore⟩ := List.find?_eq_some_iff_append.mp hfind
      replace hbefore : ∀ v ∈ before, v.isFault = false := by simpa using hbefore
      refine ⟨before, u, behind, hsplit, hu, hbefore, ?_, fun v hv hvfault => ?_⟩
      · rw [faultLine?_eq_find, hfind, Option.map_some]
      · rw [hsplit, List.map_append, List.map_cons, List.pairwise_append, List.pairwise_cons]
          at hlines
        rw [hsplit] at hv
        rcases List.mem_append.mp hv with hv | hv
        · rw [hbefore v hv] at hvfault
          cases hvfault
        · rcases List.mem_cons.mp hv with rfl | hv
          · exact Nat.le_refl _
          · exact hlines.2.1.1 _ (List.mem_map_of_mem hv)

/-- A tree with two faults, each below a node of its own, behind a clean part. -/
def twiceFaulty : Tree :=
  .node .program none ⟨0, 40, 0, 4⟩ [
    .node .statement none ⟨0, 9, 0, 0⟩ [.token ";" ⟨8, 9, 0, 0⟩],
    .node .statement none ⟨10, 30, 1, 3⟩ [.token "x" ⟨10, 11, 1, 1⟩,
      .node .error none ⟨20, 25, 2, 2⟩ [.missing ⟨25, 25, 2, 2⟩]],
    .node .statement none ⟨31, 40, 4, 4⟩ [.missing ⟨40, 40, 4, 4⟩]]

theorem twiceFaulty_faultLine?_first :
    (∀ u ∈ twiceFaulty.preorder, u.hasFault = true ↔ ∃ v ∈ u.preorder, v.isFault = true) ∧
      (twiceFaulty.preorder.map line).Pairwise (· ≤ ·) ∧ twiceFaulty.faultLine? = some 3 ∧
      ∃ before u behind, twiceFaulty.preorder = before ++ u :: behind ∧ u.isFault = true ∧
        (∀ v ∈ before, v.isFault = false) ∧ u.line = 3 := by
  have hmarked : ∀ u ∈ twiceFaulty.preorder,
      u.hasFault = true ↔ ∃ v ∈ u.preorder, v.isFault = true := fun u _ => hasFault_iff u
  have hlines : (twiceFaulty.preorder.map line).Pairwise (· ≤ ·) := by decide +kernel
  have hline : twiceFaulty.faultLine? = some 3 := by decide +kernel
  have hfaulty : ∃ u ∈ twiceFaulty.preorder, u.isFault = true :=
    (hasFault_iff twiceFaulty).mp (by decide +kernel)
  obtain ⟨before, u, behind, hsplit, hu, hbefore, hfound, -⟩ :=
    (faultLine?_first hmarked hlines).2.2 hfaulty
  rw [hline, Option.some.injEq] at hfound
  exact ⟨hmarked, hlines, hline, before, u, behind, hsplit, hu, hbefore, hfound.symm⟩

end CallBridge.Syntax.Tree
