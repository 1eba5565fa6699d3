import CallBridge.Proofs.Text.Written

/-! # Texts of words

The bytes of a word are those of its characters, so the text of the range that a word takes is made of
characters of words and of whole escapes. It is never empty, even if bytes around it belong to no
character.
-/
namespace CallBridge

namespace Text

inductive WordParts : List Char → Prop
  | nil : WordParts []
  | char {c : Char} {cs : List Char} (hc : Syntax.isWordPart c = true) (rest : WordParts cs) :
    WordParts (c :: cs)
  | escape {ds cs : List Char} (digits : ∀ d ∈ ds, Syntax.isHex d = true) (length : ds.length = 4)
    (rest : WordParts cs) : WordParts ('\\' :: 'u' :: (ds ++ cs))
  | braced {ds cs : List Char} (digits : ∀ d ∈ ds, Syntax.isHex d = true) (ne : ds ≠ [])
    (rest : WordParts cs) : WordParts ('\\' :: 'u' :: '{' :: (ds ++ '}' :: cs))

structure IsWord (s : String) : Prop where
  parts : WordParts s.toList
  ne_empty : s ≠ ""
  first : ∀ c ∈ s.toList.head?, c.isDigit = false

theorem isNameChar_of_isHex {c : Char} (h : Syntax.isHex c = true) :
    isNameChar c = true ∧ c.toNat < 0x80 := by
  unfold Syntax.isHex at h
  simp only [Bool.or_eq_true, Bool.and_eq_true, decide_eq_true_eq] at h
  have hascii : (isLetter c || isDigit c) = true ∧ c.toNat < 0x80 := by
    unfold isLetter isDigit
    simp only [Bool.or_eq_true, Bool.and_eq_true, decide_eq_true_eq]
    rcases h with (h | ⟨hlow, hhigh⟩) | ⟨hlow, hhigh⟩
    · unfold Char.isDigit at h
      simp only [Bool.and_eq_true, decide_eq_true_eq] at h
      exact ⟨.inr h, Nat.lt_of_le_of_lt h.2 (by decide)⟩
    · have hsmall : c ≤ 'z' := Char.le_trans hhigh (by decide)
      exact ⟨.inl (.inl ⟨hlow, hsmall⟩), Nat.lt_of_le_of_lt hhigh (by decide)⟩
    · have hcapital : c ≤ 'Z' := Char.le_trans hhigh (by decide)
      exact ⟨.inl (.inr ⟨hlow, hcapital⟩), Nat.lt_of_le_of_lt hhigh (by decide)⟩
  refine ⟨isNameChar_of_ascii ?_, hascii.2⟩
  rw [hascii.1, Bool.true_or, Bool.true_or]

theorem WordParts.isNameChar {cs : List Char} (h : WordParts cs) :
    ∀ c ∈ cs, isNameChar c = true := by
  induction h with
  | nil => exact List.forall_mem_nil _
  | @char c cs hc _ ih =>
    have hname : Text.isNameChar c = true := by
      rw [Text.isNameChar, hc, Bool.true_or, Bool.true_or, Bool.true_or]
    exact List.forall_mem_cons.mpr ⟨hname, ih⟩
  | escape digits _ _ ih =>
    refine List.forall_mem_cons.mpr ⟨by decide, List.forall_mem_cons.mpr ⟨by decide, ?_⟩⟩
    exact List.forall_mem_append.mpr ⟨fun d hd => (isNameChar_of_isHex (digits d hd)).1, ih⟩
  | braced digits _ _ ih =>
    refine List.forall_mem_cons.mpr ⟨by decide, List.forall_mem_cons.mpr ⟨by decide,
      List.forall_mem_cons.mpr ⟨by decide, ?_⟩⟩⟩
    exact List.forall_mem_append.mpr ⟨fun d hd => (isNameChar_of_isHex (digits d hd)).1,
      List.forall_mem_cons.mpr ⟨by decide, ih⟩⟩

theorem IsWord.isName {s : String} (h : IsWord s) : IsName s :=
  ⟨h.ne_empty, List.all_eq_true.mpr h.parts.isNameChar⟩

end Text

namespace Syntax

namespace Source
variable {s : Source} {i j k : Nat} {cs ds : List Char} {c : Char}

structure Holds (s : Source) (i j : Nat) (cs : List Char) : Prop where
  le : i ≤ j
  ne_nil : i < j → cs ≠ []
  bytes : s.bytes.extract i j = cs.utf8Encode

theorem Holds.nil (s : Source) (i : Nat) : s.Holds i i [] :=
  ⟨le_refl i, fun h => absurd h (lt_irrefl i), ByteArray.extract_same⟩

theorem Holds.append (h : s.Holds i j cs) (hds : s.Holds j k ds) : s.Holds i k (cs ++ ds) where
  le := h.le.trans hds.le
  ne_nil := fun hik => by
    rcases Nat.lt_or_ge i j with hij | hji
    · exact List.append_ne_nil_of_left_ne_nil (h.ne_nil hij) ds
    · exact List.append_ne_nil_of_right_ne_nil cs (hds.ne_nil (Nat.lt_of_le_of_lt hji hik))
  bytes := by
    have hjoin := ByteArray.extract_append_extract (a := s.bytes) (i := i) (j := j) (k := k)
    rw [Nat.min_eq_left h.le, Nat.max_eq_right hds.le] at hjoin
    rw [← hjoin, h.bytes, hds.bytes, List.utf8Encode_append]

/-- The text of a range is made of the characters that its bytes are of. -/
theorem Holds.text_eq (h : s.Holds i j cs) : s.text i j = String.ofList cs := by
  have hvalid : (String.ofList cs).toByteArray.IsValidUTF8 := (String.ofList cs).isValidUTF8
  unfold text String.fromUTF8?
  rw [h.bytes, ← String.toByteArray_ofList, dif_pos hvalid]
  rfl

theorem extract_byte {b : UInt8} (h : s.byte? i = some b) :
    s.bytes.extract i (i + 1) = [b].toByteArray := by
  obtain ⟨hi, rfl⟩ := getElem?_eq_some_iff.mp h
  have hsize : s.bytes.data.size = s.bytes.size := rfl
  ext1
  rw [ByteArray.data_extract, List.data_toByteArray]
  apply Array.ext
  · simp only [Array.size_extract, List.size_toArray, List.length_cons, List.length_nil]
    omega
  · intro k hk hk'
    obtain rfl : k = 0 := by simpa using hk'
    simp
    rfl

theorem extract_cons {b : UInt8} {bs : List UInt8} (h : s.byte? i = some b) (hj : i + 1 ≤ j)
    (hbs : s.bytes.extract (i + 1) j = bs.toByteArray) :
    s.bytes.extract i j = (b :: bs).toByteArray := by
  have hjoin := ByteArray.extract_append_extract (a := s.bytes) (i := i) (j := i + 1) (k := j)
  rw [Nat.min_eq_left (Nat.le_succ i), Nat.max_eq_right hj, extract_byte h, hbs,
    ← List.toByteArray_append] at hjoin
  exact hjoin.symm

theorem byte?_of_trail? {t : Nat} (h : s.trail? i = some t) :
    s.byte? i = some (UInt8.ofNat (t + 128)) ∧ t < 64 := by
  unfold trail? at h
  split at h
  · next b hb =>
    split_ifs at h with hrange
    simp only [Bool.and_eq_true, decide_eq_true_eq, UInt8.le_iff_toNat_le,
      UInt8.lt_iff_toNat_lt] at hrange
    obtain ⟨hlow, hhigh⟩ : 128 ≤ b.toNat ∧ b.toNat < 192 := hrange
    obtain rfl := Option.some.inj h
    refine ⟨?_, by omega⟩
    rw [hb, Nat.sub_add_cancel hlow, UInt8.ofNat_toNat]
  · cases h

theorem toNat_ofNat {n : Nat} (h : n.isValidChar) : (Char.ofNat n).val.toNat = n := by
  unfold Char.ofNat
  rw [dif_pos h]
  rfl

theorem char_of_valid {n size least m : Nat} (h : valid n size least = (.char c, m)) :
    c.val.toNat = n ∧ m = size ∧ least ≤ n ∧ n < 0x110000 := by
  unfold valid at h
  split_ifs at h with hvalid
  · simp only [Bool.and_eq_true, Bool.not_eq_true', decide_eq_true_eq, Bool.and_eq_false_iff,
      decide_eq_false_iff_not] at hvalid
    obtain ⟨⟨hleast, hmost⟩, hfree⟩ := hvalid
    obtain ⟨hc, rfl⟩ := Prod.mk.inj h
    obtain rfl := Glyph.char.inj hc
    have hchar : n.isValidChar := by
      unfold Nat.isValidChar
      omega
    exact ⟨toNat_ofNat hchar, rfl, hleast, hmost⟩
  · cases h

/-- A character of one, two, three or four bytes is written with these bytes. -/
theorem utf8EncodeChar_one {b : UInt8} (hc : c.val.toNat = b.toNat) (hb : b.toNat < 0x80) :
    String.utf8EncodeChar c = [b] := by
  unfold String.utf8EncodeChar
  dsimp only
  rw [hc, if_pos (by omega), UInt8.ofNat_toNat]

theorem utf8EncodeChar_two {b : UInt8} {t : Nat} (hc : c.val.toNat = (b.toNat - 0xC0) * 64 + t)
    (hb : 0xC0 ≤ b.toNat ∧ b.toNat < 0xE0) (ht : t < 64) (hlow : 0x80 ≤ c.val.toNat) :
    String.utf8EncodeChar c = [b, UInt8.ofNat (t + 128)] := by
  have hfirst : c.val.toNat / 64 % 32 + 192 = b.toNat := by omega
  have hsecond : c.val.toNat % 64 = t := by omega
  unfold String.utf8EncodeChar
  dsimp only
  rw [if_neg (by omega), if_pos (by omega), hfirst, hsecond, UInt8.ofNat_toNat]

theorem utf8EncodeChar_three {b : UInt8} {t u : Nat}
    (hc : c.val.toNat = ((b.toNat - 0xE0) * 64 + t) * 64 + u)
    (hb : 0xE0 ≤ b.toNat ∧ b.toNat < 0xF0) (ht : t < 64) (hu : u < 64) (hlow : 0x800 ≤ c.val.toNat) :
    String.utf8EncodeChar c = [b, UInt8.ofNat (t + 128), UInt8.ofNat (u + 128)] := by
  have hfirst : c.val.toNat / 4096 % 16 + 224 = b.toNat := by omega
  have hsecond : c.val.toNat / 64 % 64 = t := by omega
  have hthird : c.val.toNat % 64 = u := by omega
  unfold String.utf8EncodeChar
  dsimp only
  rw [if_neg (by omega), if_neg (by omega), if_pos (by omega), hfirst, hsecond, hthird,
    UInt8.ofNat_toNat]

theorem utf8EncodeChar_four {b : UInt8} {t u v : Nat}
    (hc : c.val.toNat = (((b.toNat - 0xF0) * 64 + t) * 64 + u) * 64 + v)
    (hb : 0xF0 ≤ b.toNat ∧ b.toNat < 0xF8) (ht : t < 64) (hu : u < 64) (hv : v < 64)
    (hlow : 0x10000 ≤ c.val.toNat) : String.utf8EncodeChar c =
      [b, UInt8.ofNat (t + 128), UInt8.ofNat (u + 128), UInt8.ofNat (v + 128)] := by
  have hfirst : c.val.toNat / 262144 % 8 + 240 = b.toNat := by omega
  have hsecond : c.val.toNat / 4096 % 64 = t := by omega
  have hthird : c.val.toNat / 64 % 64 = u := by omega
  have hfourth : c.val.toNat % 64 = v := by omega
  unfold String.utf8EncodeChar
  dsimp only
  rw [if_neg (by omega), if_neg (by omega), if_neg (by omega), hfirst, hsecond, hthird, hfourth,
    UInt8.ofNat_toNat]

theorem bytes_of_glyph? {n : Nat} (h : s.glyph? i = some (.char c, n)) :
    s.bytes.extract i (i + n) = (String.utf8EncodeChar c).toByteArray ∧
      (c.toNat < 0x80 → n = 1) := by
  have hlarge : 0x80 ≤ c.val.toNat → ¬ c.toNat < 0x80 := Nat.not_lt.mpr
  unfold glyph? at h
  split at h
  · cases h
  · next b hb =>
    have h := Option.some.inj h
    simp only [Bool.and_eq_true, decide_eq_true_eq] at h
    split_ifs at h with h1 h2 h3 h4
    · obtain ⟨hc, rfl⟩ := Prod.mk.inj h
      obtain rfl := Glyph.char.inj hc
      have hval : (Char.ofNat b.toNat).val.toNat = b.toNat :=
        toNat_ofNat (.inl (by omega))
      rw [utf8EncodeChar_one hval h1]
      exact ⟨extract_byte hb, fun _ => rfl⟩
    · split at h
      · next t ht =>
        obtain ⟨hval, rfl, hlow, -⟩ := char_of_valid h
        obtain ⟨hsecond, ht⟩ := byte?_of_trail? ht
        rw [utf8EncodeChar_two hval (by omega) ht (by omega)]
        refine ⟨extract_cons hb (by omega) (extract_byte hsecond), fun hsmall => ?_⟩
        exact absurd hsmall (hlarge (by omega))
      · cases h
    · split at h
      · next t u ht hu =>
        obtain ⟨hval, rfl, hlow, -⟩ := char_of_valid h
        obtain ⟨hsecond, ht⟩ := byte?_of_trail? ht
        obtain ⟨hthird, hu⟩ := byte?_of_trail? hu
        rw [utf8EncodeChar_three hval (by omega) ht hu (by omega)]
        refine ⟨extract_cons hb (by omega) (extract_cons hsecond (by omega)
          (extract_byte hthird)), fun hsmall => ?_⟩
        exact absurd hsmall (hlarge (by omega))
      · cases h
    · split at h
      · next t u v ht hu hv =>
        obtain ⟨hval, rfl, hlow, -⟩ := char_of_valid h
        obtain ⟨hsecond, ht⟩ := byte?_of_trail? ht
        obtain ⟨hthird, hu⟩ := byte?_of_trail? hu
        obtain ⟨hfourth, hv⟩ := byte?_of_trail? hv
        rw [utf8EncodeChar_four hval (by omega) ht hu hv (by omega)]
        refine ⟨extract_cons hb (by omega) (extract_cons hsecond (by omega)
          (extract_cons hthird (by omega) (extract_byte hfourth))), fun hsmall => ?_⟩
        exact absurd hsmall (hlarge (by omega))
      · cases h
    · cases h

theorem Holds.of_glyph? {n : Nat} (h : s.glyph? i = some (.char c, n)) : s.Holds i (i + n) [c] where
  le := Nat.le_add_right i n
  ne_nil := fun _ => List.cons_ne_nil c []
  bytes := by
    rw [(bytes_of_glyph? h).1, List.utf8Encode_singleton]

theorem Holds.of_charIs {p : Char → Bool} (h : s.charIs i p = true)
    (hsmall : ∀ c, p c = true → c.toNat < 0x80) : ∃ c, p c = true ∧ s.Holds i (i + 1) [c] := by
  obtain ⟨c, hc, hp⟩ := (Option.any_eq_true _ _).mp h
  unfold char? at hc
  split at hc
  · next n hglyph =>
    obtain rfl := Option.some.inj hc
    obtain rfl := (bytes_of_glyph? hglyph).2 (hsmall _ hp)
    exact ⟨_, hp, .of_glyph? hglyph⟩
  · cases hc

theorem Holds.of_hasAt {text : String} (h : s.hasAt i text = true) :
    s.Holds i (i + text.utf8ByteSize) text.toList where
  le := Nat.le_add_right ..
  ne_nil := fun hi hnil => by
    obtain rfl : text = "" := String.toList_inj.mp hnil
    exact absurd hi (lt_irrefl i)
  bytes := by
    have hbytes : s.bytes.extract i (i + text.toUTF8.size) = text.toUTF8 := by
      unfold hasAt at h
      ext1
      exact beq_iff_eq.mp h
    rw [← String.toByteArray_ofList, String.ofList_toList]
    exact hbytes

theorem Holds.of_skipWhile {p : Glyph → Bool} (hp : p .invalid = false) (fuel : Nat) :
    ∃ cs, s.Holds i (s.skipWhile p fuel i) cs ∧ ∀ c ∈ cs, p (.char c) = true := by
  induction fuel generalizing i with
  | zero => exact ⟨[], .nil s i, List.forall_mem_nil _⟩
  | succ fuel ih =>
    unfold skipWhile
    split
    · next g n hglyph =>
      split_ifs with hg
      · cases g with
        | invalid => rw [hp] at hg; cases hg
        | char c =>
          obtain ⟨cs, hcs, hall⟩ := ih (i := i + n)
          exact ⟨c :: cs, (Holds.of_glyph? hglyph).append hcs, List.forall_mem_cons.mpr ⟨hg, hall⟩⟩
      · exact ⟨[], .nil s i, List.forall_mem_nil _⟩
    · exact ⟨[], .nil s i, List.forall_mem_nil _⟩

theorem Holds.of_skipChars (s : Source) (p : Char → Bool) (i : Nat) :
    ∃ cs, s.Holds i (s.skipChars p i) cs ∧ ∀ c ∈ cs, p c = true :=
  Holds.of_skipWhile rfl _

end Source

section Words
variable {s : Source} {i j : Nat}

theorem Source.Holds.of_charIs_eq {c : Char} (h : s.charIs i (· = c) = true) (hc : c.toNat < 0x80) :
    s.Holds i (i + 1) [c] := by
  obtain ⟨d, hd, hholds⟩ := Source.Holds.of_charIs h fun d hd => by
    rw [of_decide_eq_true hd]
    exact hc
  rw [of_decide_eq_true hd] at hholds
  exact hholds

theorem Source.Holds.of_digits {n : Nat} (h : ∀ k < n, s.charIs (i + k) isHex = true) :
    ∃ ds, s.Holds i (i + n) ds ∧ ds.length = n ∧ ∀ d ∈ ds, isHex d = true := by
  induction n with
  | zero => exact ⟨[], .nil s i, rfl, List.forall_mem_nil _⟩
  | succ n ih =>
    obtain ⟨ds, hds, hlength, hall⟩ := ih fun k hk => h k (Nat.lt_succ_of_lt hk)
    obtain ⟨d, hd, hholds⟩ := Source.Holds.of_charIs (h n (Nat.lt_succ_self n)) fun d hd =>
      (Text.isNameChar_of_isHex hd).2
    refine ⟨ds ++ [d], hds.append hholds, by rw [List.length_append, hlength]; rfl, ?_⟩
    exact List.forall_mem_append.mpr ⟨hall, List.forall_mem_singleton.mpr hd⟩

theorem exists_parts_of_unicodeEscape? {k : Nat} {cs : List Char} (h : unicodeEscape? s i = some j)
    (hcs : s.Holds j k cs) (hparts : Text.WordParts cs) :
    ∃ ds, s.Holds i k ('\\' :: ds) ∧ Text.WordParts ('\\' :: ds) := by
  unfold unicodeEscape? at h
  dsimp only at h
  split_ifs at h with hfront hopen hclose hdigits
  all_goals
    have hat : s.hasAt i "\\u" = true := by simpa using hfront
    have hslash : s.Holds i (i + 2) ['\\', 'u'] := .of_hasAt hat
    obtain rfl := Option.some.inj h
  · simp only [Bool.and_eq_true, decide_eq_true_eq] at hclose
    have hbrace : s.Holds (i + 2) (i + 3) ['{'] := .of_charIs_eq hopen (by decide)
    obtain ⟨ds, hds, hall⟩ := Source.Holds.of_skipChars s isHex (i + 3)
    have hend := Source.Holds.of_charIs_eq hclose.2 (by decide)
    exact ⟨'u' :: '{' :: (ds ++ '}' :: cs),
      hslash.append (hbrace.append (hds.append (hend.append hcs))),
      .braced hall (hds.ne_nil hclose.1) hparts⟩
  · simp only [List.all_eq_true, List.mem_range] at hdigits
    obtain ⟨ds, hds, hlength, hall⟩ := Source.Holds.of_digits hdigits
    exact ⟨'u' :: (ds ++ cs), hslash.append (hds.append hcs), .escape hall hlength hparts⟩

/-- What is read of a word is parts of one, and its first character is the one that stands there. -/
theorem exists_parts_of_wordFrom (fuel : Nat) :
    ∃ cs, s.Holds i (wordFrom s fuel i) cs ∧ Text.WordParts cs ∧
      ∀ c ∈ cs.head?, c.isDigit = true → s.charIs i Char.isDigit = true := by
  induction fuel generalizing i with
  | zero => exact ⟨[], .nil s i, .nil, nofun⟩
  | succ fuel ih =>
    unfold wordFrom
    split
    · next c n hglyph =>
      split_ifs with hword
      · obtain ⟨cs, hcs, hparts, -⟩ := ih (i := i + n)
        refine ⟨c :: cs, (Source.Holds.of_glyph? hglyph).append hcs, .char hword hparts, ?_⟩
        intro d hd hdigit
        obtain rfl := Option.some.inj hd
        unfold Source.charIs Source.char?
        rw [hglyph]
        exact hdigit
      · split
        · next k hescape =>
          obtain ⟨cs, hcs, hparts, -⟩ := ih (i := k)
          obtain ⟨ds, hds, hescaped⟩ := exists_parts_of_unicodeEscape? hescape hcs hparts
          refine ⟨_, hds, hescaped, fun d hd hdigit => ?_⟩
          obtain rfl := Option.some.inj hd
          cases hdigit
        · exact ⟨[], .nil s i, .nil, nofun⟩
    · exact ⟨[], .nil s i, .nil, nofun⟩

theorem isWord_of_wordStop? (h : wordStop? s i = some j) : Text.IsWord (s.text i j) := by
  unfold wordStop? at h
  dsimp only at h
  split_ifs at h with hword
  simp only [Bool.and_eq_true, decide_eq_true_eq, Bool.not_eq_true'] at hword
  obtain ⟨hlt, hdigit⟩ := hword
  obtain ⟨cs, hcs, hparts, hfirst⟩ := exists_parts_of_wordFrom (s := s) (i := i) (s.size - i)
  rw [Option.some.inj h] at hcs hlt
  rw [hcs.text_eq]
  refine ⟨?_, fun hempty => ?_, ?_⟩
  · rw [String.toList_ofList]
    exact hparts
  · have hnil := congrArg String.toList hempty
    rw [String.toList_ofList] at hnil
    exact hcs.ne_nil hlt hnil
  · rw [String.toList_ofList]
    intro c hc
    by_contra hisDigit
    rw [hfirst c hc (by simpa using hisDigit)] at hdigit
    cases hdigit

end Words

end Syntax

end CallBridge
