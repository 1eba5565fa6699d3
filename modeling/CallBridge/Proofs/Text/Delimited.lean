import Mathlib.Data.List.Basic

/-! # Items read off a text

Items whose text says where it ends can be read one after the other off the front of a longer text,
and so can lists of them that end with a mark, and joined lists. What is read of an item may be less
than the item.
-/
namespace CallBridge.Text

section Cut
variable {c : Char} {xs ys s t : List Char}

theorem cut_inj (hx : c ∉ xs) (hy : c ∉ ys) (h : xs ++ c :: s = ys ++ c :: t) : xs = ys ∧ s = t := by
  induction xs generalizing ys with
  | nil =>
    cases ys with
    | nil => exact ⟨rfl, (List.cons.inj h).2⟩
    | cons d ys => exact absurd ((List.cons.inj h).1 ▸ List.mem_cons_self) hy
  | cons b xs ih =>
    cases ys with
    | nil => exact absurd ((List.cons.inj h).1 ▸ List.mem_cons_self) hx
    | cons d ys =>
      obtain ⟨rfl, ht⟩ := List.cons.inj h
      obtain ⟨rfl, rfl⟩ := ih (fun hm => hx (.tail _ hm)) (fun hm => hy (.tail _ hm)) ht
      exact ⟨rfl, rfl⟩

end Cut

theorem intercalate_cons (sep : List Char) (w : List Char) (ws : List (List Char)) :
    sep.intercalate (w :: ws) = w ++ ws.flatMap (sep ++ ·) := by
  induction ws generalizing w with
  | nil => simp
  | cons v vs ih =>
    rw [List.intercalate_cons_cons, ih, List.flatMap_cons, List.append_assoc, List.append_assoc]

theorem notMem_intercalate {c : Char} {sep : List Char} {ws : List (List Char)} (hsep : c ∉ sep)
    (hws : ∀ w ∈ ws, c ∉ w) : c ∉ sep.intercalate ws := by
  cases ws with
  | nil => exact List.not_mem_nil
  | cons w ws =>
    rw [intercalate_cons, List.mem_append, List.mem_flatMap]
    rintro (h | ⟨v, hv, h⟩)
    · exact hws w List.mem_cons_self h
    · rcases List.mem_append.mp h with h | h
      · exact hsep h
      · exact hws v (List.mem_cons_of_mem _ hv) h

variable {α β : Type} {P : α → Prop} {shown : α → β} {write : α → List Char}

/-- What is written of an item ends by itself: whatever follows, what is shown of the item and what
follows are known from the whole. -/
def Delimits (P : α → Prop) (shown : α → β) (write : α → List Char) : Prop :=
  ∀ a b, P a → P b → ∀ s t, write a ++ s = write b ++ t → shown a = shown b ∧ s = t

namespace Delimits

theorem between (h : Delimits P shown write) (front back : List Char) :
    Delimits P shown fun a => front ++ write a ++ back := by
  intro a b ha hb s t he
  simp only [List.append_assoc, List.append_cancel_left_eq] at he
  obtain ⟨hshown, hrest⟩ := h a b ha hb _ _ he
  exact ⟨hshown, List.append_cancel_left hrest⟩

theorem behind (h : Delimits P shown write) (front : List Char) :
    Delimits P shown fun a => front ++ write a := by
  simpa using h.between front []

/-- Items that are written one after the other, in front of what no item begins. -/
theorem flatMap_inj (h : Delimits P shown write) {xs ys : List α} (hx : ∀ x ∈ xs, P x)
    (hy : ∀ y ∈ ys, P y) {s t : List Char} (hs : ∀ a, P a → ∀ r, write a ++ r ≠ s)
    (ht : ∀ a, P a → ∀ r, write a ++ r ≠ t) (he : xs.flatMap write ++ s = ys.flatMap write ++ t) :
    xs.map shown = ys.map shown ∧ s = t := by
  induction xs generalizing ys with
  | nil =>
    cases ys with
    | nil => exact ⟨rfl, he⟩
    | cons y ys =>
      rw [List.flatMap_cons, List.append_assoc] at he
      exact absurd he.symm (hs y (hy y List.mem_cons_self) _)
  | cons x xs ih =>
    cases ys with
    | nil =>
      rw [List.flatMap_cons, List.append_assoc] at he
      exact absurd he (ht x (hx x List.mem_cons_self) _)
    | cons y ys =>
      simp only [List.flatMap_cons, List.append_assoc] at he
      obtain ⟨hshown, hrest⟩ := h x y (hx x List.mem_cons_self) (hy y List.mem_cons_self) _ _ he
      obtain ⟨hmap, hst⟩ := ih (fun z hz => hx z (.tail _ hz)) (fun z hz => hy z (.tail _ hz)) hrest
      exact ⟨by rw [List.map_cons, List.map_cons, hshown, hmap], hst⟩

theorem flatMap (h : Delimits P shown write) {stop : List Char}
    (hstop : ∀ a, P a → ∀ r r', write a ++ r ≠ stop ++ r') :
    Delimits (fun xs => ∀ x ∈ xs, P x) (List.map shown) fun xs => xs.flatMap write ++ stop := by
  intro xs ys hx hy s t he
  simp only [List.append_assoc] at he
  obtain ⟨hmap, hst⟩ := h.flatMap_inj hx hy (fun a ha r => hstop a ha r s)
    (fun a ha r => hstop a ha r t) he
  exact ⟨hmap, List.append_cancel_left hst⟩

/-- A joined list of items with a mark behind that begins neither like an item nor like what stands
between two. -/
theorem intercalate (h : Delimits P shown write) {sep stop : List Char}
    (hstop : ∀ a, P a → ∀ r r', write a ++ r ≠ stop ++ r') (hsep : ∀ r r', sep ++ r ≠ stop ++ r') :
    Delimits (fun xs => ∀ x ∈ xs, P x) (List.map shown)
      fun xs => sep.intercalate (xs.map write) ++ stop := by
  have hjoin : ∀ x xs, sep.intercalate ((x :: xs).map write) =
      write x ++ xs.flatMap fun a => sep ++ write a := by
    intro x xs
    rw [List.map_cons, intercalate_cons, List.flatMap_map]
  have hlater : Delimits (fun xs => ∀ x ∈ xs, P x) (List.map shown) fun xs =>
      (xs.flatMap fun a => sep ++ write a) ++ stop := by
    refine (h.behind sep).flatMap fun a _ r r' => ?_
    simpa using hsep (write a ++ r) r'
  intro xs ys hx hy s t he
  cases xs with
  | nil =>
    cases ys with
    | nil => exact ⟨rfl, List.append_cancel_left he⟩
    | cons y ys =>
      simp only [hjoin, List.append_assoc] at he
      exact absurd he.symm (hstop y (hy y List.mem_cons_self) _ _)
  | cons x xs =>
    cases ys with
    | nil =>
      simp only [hjoin, List.append_assoc] at he
      exact absurd he (hstop x (hx x List.mem_cons_self) _ _)
    | cons y ys =>
      simp only [hjoin, List.append_assoc] at he
      obtain ⟨hshown, hrest⟩ := h x y (hx x List.mem_cons_self) (hy y List.mem_cons_self) _ _ he
      obtain ⟨hmap, hst⟩ := hlater xs ys (fun z hz => hx z (.tail _ hz))
        (fun z hz => hy z (.tail _ hz)) s t (by simpa only [List.append_assoc] using hrest)
      exact ⟨by rw [List.map_cons, List.map_cons, hshown, hmap], hst⟩

end Delimits

end CallBridge.Text
