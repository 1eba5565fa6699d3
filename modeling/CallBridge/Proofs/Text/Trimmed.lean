import CallBridge.Text.Blank
import Mathlib.Data.List.DropRight
import Mathlib.Data.List.TakeWhile

/-! # Blanks around words

A trimmed text has no blank at its ends. Every text is blanks, a word and what follows the word, and
its first word is that word.
-/
namespace CallBridge.Text

variable {cs front back blanks word rest : List Char}

theorem head?_trimStart (cs : List Char) : ∀ c ∈ (trimStart cs).head?, isBlank c = false := by
  intro c hc
  have h := List.head?_dropWhile_not isBlank cs
  rw [trimStart] at hc
  rw [Option.mem_def.mp hc] at h
  exact h

theorem trimStart_eq_self (h : ∀ c ∈ cs.head?, isBlank c = false) : trimStart cs = cs := by
  cases cs with
  | nil => rfl
  | cons c cs => exact List.dropWhile_cons_of_neg (by simpa using h c rfl)

theorem trimStart_append_of_blank (h : ∀ c ∈ blanks, isBlank c = true) (cs : List Char) :
    trimStart (blanks ++ cs) = trimStart cs :=
  List.dropWhile_append_of_pos h

theorem getLast?_trimEnd (cs : List Char) : ∀ c ∈ (trimEnd cs).getLast?, isBlank c = false := by
  intro c hc
  rw [trimEnd, List.getLast?_reverse] at hc
  exact head?_trimStart cs.reverse c hc

theorem trimEnd_eq_self (h : ∀ c ∈ cs.getLast?, isBlank c = false) : trimEnd cs = cs := by
  rw [← List.head?_reverse] at h
  rw [trimEnd]
  exact (congrArg List.reverse (trimStart_eq_self h)).trans cs.reverse_reverse

theorem trimEnd_prefix (cs : List Char) : trimEnd cs <+: cs :=
  List.rdropWhile_prefix isBlank cs

theorem trimEnd_eq_nil (h : ∀ c ∈ cs, isBlank c = true) : trimEnd cs = [] :=
  List.rdropWhile_eq_nil_iff.mpr h

theorem trimEnd_append (h : ∀ c ∈ front.getLast?, isBlank c = false) (back : List Char) :
    trimEnd (front ++ back) = front ++ trimEnd back := by
  induction back using List.reverseRecOn with
  | nil =>
    rw [List.append_nil, trimEnd_eq_self h]
    simp [trimEnd]
  | append_singleton back c ih =>
    rw [← List.append_assoc]
    by_cases hc : isBlank c = true
    · exact (List.rdropWhile_concat_pos _ _ _ hc).trans
        (ih.trans (congrArg (front ++ ·) (List.rdropWhile_concat_pos _ _ _ hc).symm))
    · have hself : ∀ ds : List Char, trimEnd (ds ++ [c]) = ds ++ [c] := fun ds =>
        List.rdropWhile_concat_neg _ _ _ hc
      rw [hself, hself, List.append_assoc]

theorem trimEnd_cons {c : Char} (h : isBlank c = false) (back : List Char) :
    trimEnd (c :: back) = c :: trimEnd back := by
  have hlast : ∀ d ∈ [c].getLast?, isBlank d = false := by simpa using h
  exact trimEnd_append hlast back

theorem trim_trimStart (cs : List Char) : trim (trimStart cs) = trim cs := by
  rw [trim, trim, trimStart_eq_self (head?_trimStart cs)]

theorem getLast?_trim (cs : List Char) : ∀ c ∈ (trim cs).getLast?, isBlank c = false :=
  getLast?_trimEnd _

theorem head?_trim (cs : List Char) : ∀ c ∈ (trim cs).head?, isBlank c = false := by
  intro c hc
  obtain ⟨back, hback⟩ := trimEnd_prefix (trimStart cs)
  refine head?_trimStart cs c ?_
  rw [← hback, List.head?_append, ← trim, Option.mem_def.mp hc]
  rfl

/-- Blanks, the word behind them, and the rest, which begins with a blank. -/
theorem exists_words (cs : List Char) : ∃ blanks word rest, cs = blanks ++ (word ++ rest) ∧
    (∀ c ∈ blanks, isBlank c = true) ∧ (∀ c ∈ word, isBlank c = false) ∧
    (∀ c ∈ rest.head?, isBlank c = true) ∧ (word = [] → rest = []) := by
  refine ⟨cs.takeWhile isBlank, (trimStart cs).takeWhile (!isBlank ·),
    (trimStart cs).dropWhile (!isBlank ·), ?_, fun c hc => List.mem_takeWhile_imp hc,
    fun c hc => ?_, fun c hc => ?_, fun hword => ?_⟩
  · rw [List.takeWhile_append_dropWhile]
    exact List.takeWhile_append_dropWhile.symm
  · simpa using List.mem_takeWhile_imp hc
  · have h := List.head?_dropWhile_not (fun c => !isBlank c) (trimStart cs)
    rw [Option.mem_def.mp hc] at h
    simpa using h
  · cases htrim : trimStart cs with
    | nil => rfl
    | cons c rest =>
      have hc := head?_trimStart cs c (by rw [htrim]; rfl)
      rw [htrim, List.takeWhile_cons, hc] at hword
      cases hword

theorem trimStart_words (hblanks : ∀ c ∈ blanks, isBlank c = true)
    (hword : ∀ c ∈ word, isBlank c = false) (hne : word = [] → rest = []) :
    trimStart (blanks ++ (word ++ rest)) = word ++ rest := by
  rw [trimStart_append_of_blank hblanks]
  cases word with
  | nil =>
    rw [hne rfl]
    rfl
  | cons c word => exact trimStart_eq_self fun d hd => hword d (List.mem_of_mem_head? hd)

theorem firstWord?_words (hblanks : ∀ c ∈ blanks, isBlank c = true)
    (hword : ∀ c ∈ word, isBlank c = false) (hrest : ∀ c ∈ rest.head?, isBlank c = true)
    (hne : word = [] → rest = []) :
    firstWord? (blanks ++ (word ++ rest)) = if word = [] then none else some word := by
  have htake : (word ++ rest).takeWhile (!isBlank ·) = word := by
    rw [List.takeWhile_append_of_pos (by simpa using hword)]
    cases rest with
    | nil => exact List.append_nil word
    | cons c rest =>
      rw [List.takeWhile_cons_of_neg (by simpa using hrest c rfl), List.append_nil]
  rw [firstWord?, trimStart_words hblanks hword hne, htake]
  cases word with
  | nil => rfl
  | cons c word => rfl

end CallBridge.Text
