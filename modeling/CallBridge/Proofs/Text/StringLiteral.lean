import CallBridge.Proofs.Text.Written

/-! # String literals of a program

A literal between single quotes stands for a sequence of UTF-16 code units, and so does a text. A
text that is put between quotes as it is makes a literal of itself exactly if it has no quote, no
backslash and no line end. Where quotes and backslashes are escaped, only line ends are in the way.
-/
namespace CallBridge.Text

def codeUnits (n : ℕ) : List ℕ :=
  if n < 0x10000 then [n] else [0xD800 + (n - 0x10000) / 0x400, 0xDC00 + (n - 0x10000) % 0x400]

def utf16 (cs : List Char) : List ℕ :=
  cs.flatMap fun c => codeUnits c.toNat

def isLineEnd (c : Char) : Bool :=
  c == '\n' || c == '\r' || c.toNat == 0x2028 || c.toNat == 0x2029

def isPlain (c : Char) : Bool :=
  c != '\'' && c != '\\' && !isLineEnd c

/-- All characters of the text stand for themselves between single quotes on one line. -/
def IsPlain (s : String) : Prop :=
  ∀ c ∈ s.toList, isPlain c = true

instance (s : String) : Decidable (IsPlain s) :=
  decidable_of_iff (s.toList.all isPlain = true) List.all_eq_true

def IsUnbroken (s : String) : Prop :=
  ∀ c ∈ s.toList, c ≠ '\\' ∧ isLineEnd c = false

instance (s : String) : Decidable (IsUnbroken s) :=
  decidable_of_iff (s.toList.all (fun c => c != '\\' && !isLineEnd c) = true) (by
    simp [IsUnbroken])

theorem isPlain_iff_isUnbroken {s : String} (hs : '\'' ∉ s.toList) : IsPlain s ↔ IsUnbroken s := by
  refine forall₂_congr fun c hc => ?_
  have hquote : c ≠ '\'' := fun he => hs (he ▸ hc)
  simp [isPlain, hquote]

def hexDigit? (c : Char) : Option ℕ :=
  if '0' ≤ c ∧ c ≤ '9' then some (c.toNat - 48)
  else if 'a' ≤ c ∧ c ≤ 'f' then some (c.toNat - 87)
  else if 'A' ≤ c ∧ c ≤ 'F' then some (c.toNat - 55)
  else none

def hexValue? (cs : List Char) : Option ℕ :=
  (cs.mapM hexDigit?).map (·.foldl (fun n d => 16 * n + d) 0)

/-- The code point that the characters behind a backslash name, in one of the two forms that names
and literals share. -/
inductive UnicodeEscape : List Char → ℕ → Prop
  | fixed {ds : List Char} {n : ℕ} (hds : ds.length = 4) (hn : hexValue? ds = some n) :
    UnicodeEscape ('u' :: ds) n
  | braced {ds : List Char} {n : ℕ} (hds : ds ≠ []) (hn : hexValue? ds = some n)
    (hmax : n ≤ 0x10FFFF) : UnicodeEscape ('u' :: '\x7b' :: ds ++ ['\x7d']) n

def singleEscape? (c : Char) : Option ℕ :=
  if c = '\'' ∨ c = '"' ∨ c = '\\' then some c.toNat
  else if c = 'b' then some 8
  else if c = 't' then some 9
  else if c = 'n' then some 10
  else if c = 'v' then some 11
  else if c = 'f' then some 12
  else if c = 'r' then some 13
  else none

/-- What may stand behind a backslash in a literal, and the units that it is written for. A zero is
left out, since what follows it matters. -/
inductive Escape : List Char → List ℕ → Prop
  | single {c : Char} {n : ℕ} (hn : singleEscape? c = some n) : Escape [c] [n]
  | itself {c : Char} (hsingle : singleEscape? c = none)
    (hother : c.isDigit = false ∧ c ≠ 'x' ∧ c ≠ 'u' ∧ isLineEnd c = false) :
    Escape [c] (codeUnits c.toNat)
  | byte {ds : List Char} {n : ℕ} (hds : ds.length = 2) (hn : hexValue? ds = some n) :
    Escape ('x' :: ds) [n]
  | unicode {cs : List Char} {n : ℕ} (hn : UnicodeEscape cs n) : Escape cs (codeUnits n)

/-- What stands between the quotes of a literal on one line, and the units that it is written for. -/
inductive LiteralBody : List Char → List ℕ → Prop
  | nil : LiteralBody [] []
  | plain {c : Char} {cs : List Char} {us : List ℕ} (hc : isPlain c = true)
    (hcs : LiteralBody cs us) : LiteralBody (c :: cs) (codeUnits c.toNat ++ us)
  | null {cs : List Char} {us : List ℕ} (hnext : ∀ d ∈ cs.head?, d.isDigit = false)
    (hcs : LiteralBody cs us) : LiteralBody ('\\' :: '0' :: cs) (0 :: us)
  | escaped {es cs : List Char} {vs us : List ℕ} (hes : Escape es vs) (hcs : LiteralBody cs us) :
    LiteralBody ('\\' :: es ++ cs) (vs ++ us)

/-- The text is one single-quoted literal on one line, written for `value`. -/
def IsLiteralOf (value written : String) : Prop :=
  ∃ body, written.toList = '\'' :: body ++ ['\''] ∧ LiteralBody body (utf16 value.toList)

theorem codeUnits_length_pos (n : ℕ) : 0 < (codeUnits n).length := by
  unfold codeUnits
  split_ifs <;> simp

theorem codeUnits_length_le (n : ℕ) : (codeUnits n).length ≤ 2 := by
  unfold codeUnits
  split_ifs <;> simp

@[simp]
theorem utf16_cons (c : Char) (cs : List Char) : utf16 (c :: cs) = codeUnits c.toNat ++ utf16 cs :=
  rfl

@[simp]
theorem utf16_append (cs ds : List Char) : utf16 (cs ++ ds) = utf16 cs ++ utf16 ds :=
  List.flatMap_append

theorem length_le_utf16 (cs : List Char) : cs.length ≤ (utf16 cs).length := by
  induction cs with
  | nil => exact Nat.le_refl 0
  | cons c cs ih =>
    have hc := codeUnits_length_pos c.toNat
    simp only [utf16_cons, List.length_cons, List.length_append]
    omega

theorem UnicodeEscape.length_ge {cs : List Char} {n : ℕ} (h : UnicodeEscape cs n) :
    4 ≤ cs.length := by
  cases h with
  | fixed hds hn => simp [hds]
  | @braced ds _ hds hn hmax =>
    have hpos := List.length_pos_iff.mpr hds
    simp only [List.length_cons, List.length_append, List.length_nil]
    omega

theorem Escape.length_le {es : List Char} {vs : List ℕ} (h : Escape es vs) :
    vs.length ≤ (utf16 es).length := by
  have hes := length_le_utf16 es
  cases h with
  | single hn => exact hes
  | itself hsingle hother => simp [utf16]
  | byte hds hn =>
    simp only [List.length_cons, List.length_nil] at hes ⊢
    omega
  | unicode hn =>
    have hfour := hn.length_ge
    have htwo := codeUnits_length_le
    exact (htwo _).trans (by omega)

theorem LiteralBody.length_le {cs : List Char} {us : List ℕ} (h : LiteralBody cs us) :
    us.length ≤ (utf16 cs).length := by
  induction h with
  | nil => exact Nat.le_refl 0
  | plain hc hcs ih => simpa using ih
  | null hnext hcs ih =>
    have hzero := codeUnits_length_pos '0'.toNat
    simp only [utf16_cons, List.length_cons, List.length_append]
    omega
  | escaped hes hcs ih =>
    have hescape := hes.length_le
    simp only [List.cons_append, utf16_cons, utf16_append, List.length_append]
    omega

theorem LiteralBody.length_lt {cs : List Char} {us : List ℕ} (h : LiteralBody cs us)
    (hmem : '\\' ∈ cs) : us.length < (utf16 cs).length := by
  induction h with
  | nil => cases hmem
  | plain hc hcs ih =>
    rcases List.mem_cons.mp hmem with rfl | hmem
    · cases hc
    · have := ih hmem
      simpa using this
  | null hnext hcs ih =>
    have hrest := hcs.length_le
    have hslash := codeUnits_length_pos '\\'.toNat
    have hzero := codeUnits_length_pos '0'.toNat
    simp only [utf16_cons, List.length_cons, List.length_append]
    omega
  | escaped hes hcs ih =>
    have hrest := hcs.length_le
    have hescape := hes.length_le
    have hslash := codeUnits_length_pos '\\'.toNat
    simp only [List.cons_append, utf16_cons, utf16_append, List.length_append]
    omega

theorem literalBody_of_plain {cs : List Char} (h : ∀ c ∈ cs, isPlain c = true) :
    LiteralBody cs (utf16 cs) := by
  induction cs with
  | nil => exact .nil
  | cons c cs ih => exact .plain (h c List.mem_cons_self) (ih fun d hd => h d (.tail _ hd))

theorem LiteralBody.plain_of_notMem {cs : List Char} {us : List ℕ} (h : LiteralBody cs us)
    (hslash : '\\' ∉ cs) {c : Char} (hc : c ∈ cs) : isPlain c = true := by
  induction h with
  | nil => cases hc
  | plain hplain hcs ih =>
    rcases List.mem_cons.mp hc with rfl | hc
    · exact hplain
    · exact ih (fun hmem => hslash (.tail _ hmem)) hc
  | null hnext hcs ih => exact absurd List.mem_cons_self hslash
  | escaped hes hcs ih => exact absurd List.mem_cons_self hslash

/-- A text is a literal body of itself exactly if all its characters are plain. -/
theorem literalBody_utf16_iff {cs : List Char} :
    LiteralBody cs (utf16 cs) ↔ ∀ c ∈ cs, isPlain c = true := by
  constructor
  · intro h c hc
    have hslash : '\\' ∉ cs := fun hmem => Nat.lt_irrefl _ (h.length_lt hmem)
    exact h.plain_of_notMem hslash hc
  · exact literalBody_of_plain

theorem isLiteralOf_quoted_iff {s : String} : IsLiteralOf s ("'" ++ s ++ "'") ↔ IsPlain s := by
  have hwritten : ("'" ++ s ++ "'").toList = '\'' :: s.toList ++ ['\''] := by
    simp [String.toList_append]
  unfold IsLiteralOf
  rw [hwritten]
  constructor
  · rintro ⟨body, hbody, hread⟩
    obtain rfl := List.append_cancel_right (List.cons.inj hbody).2
    exact literalBody_utf16_iff.mp hread
  · intro h
    exact ⟨s.toList, rfl, literalBody_utf16_iff.mpr h⟩

/-- Behind a backslash a quote and a backslash stand for themselves, so a literal of any text
without line ends can be written. -/
theorem isLiteralOf_literal {s : String} (hs : ∀ c ∈ s.toList, isLineEnd c = false) :
    IsLiteralOf s (literal s) := by
  have hbody : ∀ cs : List Char, (∀ c ∈ cs, isLineEnd c = false) →
      LiteralBody (cs.flatMap fun c => (literalChar c).toList) (utf16 cs) := by
    intro cs
    induction cs with
    | nil => exact fun _ => .nil
    | cons c cs ih =>
      intro hcs
      have hrest := ih fun d hd => hcs d (.tail _ hd)
      rw [List.flatMap_cons, utf16_cons]
      unfold literalChar
      split_ifs with hslash hquote
      · subst hslash
        exact .escaped (.single rfl) hrest
      · subst hquote
        exact .escaped (.single rfl) hrest
      · have hplain : isPlain c = true := by
          simp [isPlain, hslash, hquote, hcs c List.mem_cons_self]
        have hself : c.toString.toList = [c] := String.toList_singleton c
        rw [hself]
        exact .plain hplain hrest
  exact ⟨_, by simp [toList_literal], hbody s.toList hs⟩

end CallBridge.Text
