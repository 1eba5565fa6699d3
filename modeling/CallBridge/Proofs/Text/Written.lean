import CallBridge.Proofs.Text.Delimited
import CallBridge.Syntax.Lexeme
import CallBridge.Text.LetterCase
import CallBridge.Text.Name
import CallBridge.Text.Quoted
import Mathlib.Data.List.Basic
import Mathlib.Tactic.IntervalCases

/-! # Names and literals that can be read back

A text can be read back from its string literal, and a camel case name from its capitalized form. A
camel case name holds no colon, so it can be read in front of one.
-/
namespace CallBridge.Text

theorem delimits_literalChar : Delimits (fun _ => True) id fun c => (literalChar c).toList := by
  intro c d _ _ s t h
  simp only [literalChar] at h
  split_ifs at h <;> simp at h <;> grind

theorem toList_literal (s : String) :
    (literal s).toList =
      ['\''] ++ (s.toList.flatMap (fun c => (literalChar c).toList) ++ ['\'']) := by
  simp [literal, String.toList_append, String.toList_join, List.flatMap_def, List.map_map,
    Function.comp_def]

/-- A literal ends by itself, since a quote inside it stands behind a backslash. -/
theorem delimits_literal : Delimits (fun _ => True) id fun s => (literal s).toList := by
  have hbody : Delimits (fun cs => ∀ c ∈ cs, True) (List.map id) fun cs =>
      cs.flatMap (fun c => (literalChar c).toList) ++ ['\''] := by
    refine delimits_literalChar.flatMap fun c _ r r' => ?_
    unfold literalChar
    split_ifs <;> simp_all
  intro s s' _ _ t t' h
  simp only [toList_literal] at h
  obtain ⟨hs, ht⟩ := hbody.behind ['\''] s.toList s'.toList (by simp) (by simp) t t' h
  simp only [List.map_id] at hs
  exact ⟨String.toList_inj.mp hs, ht⟩

theorem literal_injective : Function.Injective literal := by
  intro s t h
  have hwritten : (literal s).toList ++ [] = (literal t).toList ++ [] := by rw [h]
  exact (delimits_literal s t trivial trivial [] [] hwritten).1

/-- Characters of names in a program: those of words, and those of the escapes in them. -/
def isNameChar (c : Char) : Bool :=
  Syntax.isWordPart c || c == '\\' || c == '{' || c == '}'

structure IsName (s : String) : Prop where
  ne_empty : s ≠ ""
  all_chars : s.toList.all isNameChar = true

instance (s : String) : Decidable (IsName s) :=
  decidable_of_iff (s ≠ "" ∧ s.toList.all isNameChar = true)
    ⟨fun h => ⟨h.1, h.2⟩, fun h => ⟨h.ne_empty, h.all_chars⟩⟩

theorem IsName.of_mem {s : String} (hs : IsName s) {c : Char} (hc : c ∈ s.toList) :
    isNameChar c = true :=
  List.all_eq_true.mp hs.all_chars c hc

theorem IsName.notMem {s : String} (hs : IsName s) {c : Char} (hc : isNameChar c = false) :
    c ∉ s.toList := by
  intro hm
  rw [hs.of_mem hm] at hc
  cases hc

theorem IsName.exists_cons {s : String} (hs : IsName s) {d : Char} (hd : isNameChar d = false) :
    ∃ c cs, s.toList = c :: cs ∧ c ≠ d := by
  cases h : s.toList with
  | nil => exact absurd (String.toList_inj.mp h) hs.ne_empty
  | cons c cs =>
    refine ⟨c, cs, rfl, ?_⟩
    rintro rfl
    exact hs.notMem hd (h ▸ List.mem_cons_self)

theorem toNat_lt_of_ascii {c : Char}
    (h : (isLetter c || isDigit c || c == '_' || c == '$') = true) : c.toNat < 128 := by
  simp only [isLetter, isDigit, Bool.or_eq_true, Bool.and_eq_true, decide_eq_true_eq,
    beq_iff_eq] at h
  rcases h with (((⟨-, h⟩ | ⟨-, h⟩) | ⟨-, h⟩) | rfl) | rfl
  · exact Nat.lt_of_le_of_lt h (by decide)
  · exact Nat.lt_of_le_of_lt h (by decide)
  · exact Nat.lt_of_le_of_lt h (by decide)
  · decide
  · decide

theorem isNameChar_of_ascii {c : Char}
    (h : (isLetter c || isDigit c || c == '_' || c == '$') = true) : isNameChar c = true := by
  have hall : ∀ n < 128, (isLetter (Char.ofNat n) || isDigit (Char.ofNat n) ||
      Char.ofNat n == '_' || Char.ofNat n == '$') = true → isNameChar (Char.ofNat n) = true := by
    decide +kernel
  have hc := hall c.toNat (toNat_lt_of_ascii h)
  rw [Char.ofNat_toNat] at hc
  exact hc h

/-- A camel case name is a small letter and characters that are letters or digits. -/
theorem isCamelCase_iff {s : String} :
    isCamelCase s = true ↔
      ∃ c cs, s.toList = c :: cs ∧ 'a' ≤ c ∧ c ≤ 'z' ∧
        ∀ d ∈ cs, isLetter d = true ∨ isDigit d = true := by
  unfold isCamelCase
  cases h : s.toList with
  | nil => simp
  | cons c cs => simp [and_assoc]

theorem colon_notMem_of_isCamelCase {s : String} (hs : isCamelCase s = true) :
    ':' ∉ s.toList := by
  obtain ⟨c, cs, h, hc, -, hcs⟩ := isCamelCase_iff.mp hs
  rw [h]
  intro hm
  rcases List.mem_cons.mp hm with rfl | hm
  · exact absurd hc (by decide)
  · exact absurd (hcs ':' hm) (by decide)

private theorem toLower_toUpper {c : Char} (ha : 'a' ≤ c) (hz : c ≤ 'z') :
    c.toUpper.toLower = c ∧ c.toNat < 0x80 ∧ c.toUpper.toNat < 0x80 := by
  have hlow : 97 ≤ c.toNat := ha
  have hhigh : c.toNat ≤ 122 := hz
  have hall : ∀ n, 97 ≤ n → n ≤ 122 →
      (Char.ofNat n).toUpper.toLower = Char.ofNat n ∧ (Char.ofNat n).toNat < 0x80 ∧
        (Char.ofNat n).toUpper.toNat < 0x80 := by
    intro n h1 h2
    interval_cases n <;> decide
  simpa only [Char.ofNat_toNat] using hall c.toNat hlow hhigh

theorem lowerFirst_upperFirst {s : String} (hs : isCamelCase s = true) :
    lowerFirst (upperFirst s) = s := by
  obtain ⟨c, cs, h, ha, hz, -⟩ := isCamelCase_iff.mp hs
  obtain ⟨hc, hn, hn'⟩ := toLower_toUpper ha hz
  have hu : (upperFirst s).toList = c.toUpper :: cs := by
    simp [upperFirst, h, upperCase, hn]
  rw [← String.toList_inj, h]
  simp [lowerFirst, hu, lowerCase, hn', hc]

end CallBridge.Text
