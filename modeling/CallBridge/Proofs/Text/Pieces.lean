import CallBridge.Proofs.Text.Written
import CallBridge.Text.Blank

/-! # Pieces of a text

What a text begins or ends with is what remains after it is taken off, a text is known from what
stands around its last separator, and pieces without separators are known from the text that joins
them.
-/
namespace CallBridge.Text

theorem after?_eq_some_iff {front cs back : List Char} :
    after? front cs = some back ↔ cs = front ++ back := by
  induction front generalizing cs with
  | nil => simp [after?]
  | cons f fs ih =>
    cases cs with
    | nil => simp [after?]
    | cons c cs =>
      unfold after?
      split_ifs with hc
      · simp [ih, hc]
      · simp [Ne.symm hc]

theorem before?_eq_some_iff {front back cs : List Char} :
    before? back cs = some front ↔ cs = front ++ back := by
  rw [before?, Option.map_eq_some_iff]
  constructor
  · rintro ⟨rest, hrest, rfl⟩
    simpa using congrArg List.reverse (after?_eq_some_iff.mp hrest)
  · rintro rfl
    exact ⟨front.reverse, after?_eq_some_iff.mpr (by simp), by simp⟩

theorem cut_last_inj {c : Char} {front front' back back' : List Char} (hback : c ∉ back)
    (hback' : c ∉ back') (h : front ++ c :: back = front' ++ c :: back') :
    front = front' ∧ back = back' := by
  have hreverse := congrArg List.reverse h
  simp only [List.reverse_append, List.reverse_cons, List.append_assoc, List.singleton_append]
    at hreverse
  obtain ⟨hb, hf⟩ := cut_inj (mt List.mem_reverse.mp hback) (mt List.mem_reverse.mp hback') hreverse
  exact ⟨List.reverse_inj.mp hf, List.reverse_inj.mp hb⟩

/-- The last of some pieces stands behind a separator, unless it is the only one. -/
theorem exists_intercalate_append (c : Char) (pieces : List (List Char)) : ∃ front,
    (front = [] ∨ ∃ init, front = init ++ [c]) ∧
      ∀ last, [c].intercalate (pieces ++ [last]) = front ++ last := by
  induction pieces with
  | nil => exact ⟨[], .inl rfl, fun last => by simp⟩
  | cons piece pieces ih =>
    obtain ⟨front, hfront, hjoin⟩ := ih
    refine ⟨piece ++ [c] ++ front, .inr ?_, fun last => ?_⟩
    · rcases hfront with rfl | ⟨init, rfl⟩
      · exact ⟨piece, by simp⟩
      · exact ⟨piece ++ [c] ++ init, by simp⟩
    · rw [List.cons_append, List.intercalate_cons_of_ne_nil (by simp), hjoin, ← List.append_assoc]

theorem intercalate_append_singleton (c : Char) {pieces : List (List Char)} (hne : pieces ≠ [])
    (last : List Char) :
    [c].intercalate (pieces ++ [last]) = [c].intercalate pieces ++ c :: last := by
  induction pieces with
  | nil => exact absurd rfl hne
  | cons piece pieces ih =>
    rw [List.cons_append, List.intercalate_cons_of_ne_nil (by simp)]
    by_cases hnil : pieces = []
    · simp [hnil]
    · rw [ih hnil, List.intercalate_cons_of_ne_nil hnil]
      simp

theorem intercalate_inj {c : Char} {pieces pieces' : List (List Char)}
    (h : ∀ piece ∈ pieces, piece ≠ [] ∧ c ∉ piece)
    (h' : ∀ piece ∈ pieces', piece ≠ [] ∧ c ∉ piece)
    (he : [c].intercalate pieces = [c].intercalate pieces') : pieces = pieces' := by
  have hread : ∀ {ps : List (List Char)}, (∀ piece ∈ ps, piece ≠ [] ∧ c ∉ piece) →
      (([c].intercalate ps).splitOn c).filter (· ≠ []) = ps := by
    intro ps hps
    by_cases hnil : ps = []
    · subst hnil
      rfl
    · rw [List.splitOn_intercalate c (fun piece hp => (hps piece hp).2) hnil]
      exact List.filter_eq_self.mpr fun piece hp => by simp [(hps piece hp).1]
  rw [← hread h, he, hread h']

end CallBridge.Text
