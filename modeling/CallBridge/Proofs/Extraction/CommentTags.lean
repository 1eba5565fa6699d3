import CallBridge.Annotation
import CallBridge.Proofs.Text.Pieces
import CallBridge.Proofs.Text.Trimmed

/-! # Tags by the content of a line

The content of a line of a block comment is what is left without the marks of the comment: the slash
and the stars that open it, the stars in front of the line, the stars and the slash that close it,
and blanks. A line holds a tag if its content is one. Every line is read so, except in three cases:
it begins with two slashes, it hides the tag behind further stars, or more than one star closes the
comment where the namespace is read.
-/
namespace CallBridge.Annotation

open Text

def withoutOpening (cs : List Char) : List Char :=
  match after? "/*".toList cs with
  | some rest => rest.dropWhile (· = '*')
  | none => cs

/-- A text without stars and the slash behind them at its end. -/
def withoutClosing (cs : List Char) : List Char :=
  match before? "*/".toList cs with
  | some front => front.rdropWhile (· = '*')
  | none => cs

/-- A text without one star and the slash behind it at its end. -/
def withoutEnd (cs : List Char) : List Char :=
  match before? "*/".toList cs with
  | some front => front
  | none => cs

def withoutStars (cs : List Char) : List Char :=
  trim ((trimStart cs).dropWhile (· = '*'))

def unopened (line : List Char) : List Char :=
  withoutStars (withoutOpening (trim line))

def content (line : List Char) : List Char :=
  trim (withoutClosing (unopened line))

/-- The content of a line is the tag `name`: alone, or with blanks and a namespace behind it, and
anything behind these. -/
inductive NamesTag (name : String) : List Char → Option String → Prop
  | alone : NamesTag name ('@' :: name.toList) none
  | named {blanks word rest : List Char} (hblanks : ∀ c ∈ blanks, isBlank c = true)
      (hword : ∀ c ∈ word, isBlank c = false) (hrest : ∀ c ∈ rest.head?, isBlank c = true)
      (hsome : blanks ≠ []) (hne : word ≠ []) :
      NamesTag name ('@' :: name.toList ++ (blanks ++ (word ++ rest))) (some (String.ofList word))

/-- The annotations that the contents of some lines hold, in the order of the lines. -/
inductive HoldsTags (name : String) : List (List Char) → List Annotation → Prop
  | nil : HoldsTags name [] []
  | tag {line : List Char} {lines : List (List Char)} {found : List Annotation}
      {namespaceName : Option String} (h : NamesTag name (content line) namespaceName)
      (rest : HoldsTags name lines found) : HoldsTags name (line :: lines) (⟨namespaceName⟩ :: found)
  | other {line : List Char} {lines : List (List Char)} {found : List Annotation}
      (h : ∀ namespaceName, ¬ NamesTag name (content line) namespaceName)
      (rest : HoldsTags name lines found) : HoldsTags name (line :: lines) found

/-- More than one star closes the comment right behind the tag, its blanks or its namespace. -/
def ClosedAtNamespace (name : String) (cs : List Char) : Prop :=
  "**/".toList <:+ cs ∧ ∃ rest, withoutClosing cs = '@' :: name.toList ++ rest ∧
    (∀ c ∈ rest.head?, isBlank c = true) ∧ ∀ c ∈ trimStart rest, isBlank c = false

inductive Misread (name : String) (line : List Char) : Prop
  /-- The line begins like a line comment, and what stands behind the slashes is a tag. -/
  | slashes {rest : List Char} (hmark : trim line = "//".toList ++ rest)
      (htag : ∃ namespaceName, NamesTag name (trim (withoutEnd (withoutStars rest))) namespaceName)
  /-- Blanks and stars behind more than two stars hide the tag. -/
  | stars (hmark : "/***".toList <+: trim line)
      (hstar : (trimStart (withoutOpening (trim line))).head? = some '*')
      (htag : ∃ namespaceName, NamesTag name (content line) namespaceName)
  /-- A star that closes the comment is read as a part of the tag or its namespace. -/
  | closing (hmark : ClosedAtNamespace name (unopened line))

def behindTag? : List Char → Option Annotation
  | [] => some ⟨none⟩
  | c :: rest =>
    if isBlank c then some ⟨(firstWord? (c :: rest)).map String.ofList⟩ else none

theorem tag?_eq (name : String) (cs : List Char) :
    tag? name cs = (after? ('@' :: name.toList) cs).bind behindTag? := by
  unfold tag?
  cases after? ('@' :: name.toList) cs with
  | none => rfl
  | some rest => cases rest <;> rfl

theorem tag?_append (name : String) (rest : List Char) :
    tag? name ('@' :: name.toList ++ rest) = behindTag? rest := by
  rw [tag?_eq, after?_eq_some_iff.mpr rfl, Option.bind_some]

section Words
variable {name : String} {blanks word rest : List Char}

theorem behindTag?_words (hblanks : ∀ c ∈ blanks, isBlank c = true)
    (hword : ∀ c ∈ word, isBlank c = false) (hrest : ∀ c ∈ rest.head?, isBlank c = true)
    (hne : word = [] → rest = []) :
    behindTag? (blanks ++ (word ++ rest)) = if blanks = [] ∧ word ≠ [] then none
      else some ⟨if word = [] then none else some (String.ofList word)⟩ := by
  cases blanks with
  | nil =>
    cases word with
    | nil =>
      rw [hne rfl]
      rfl
    | cons c word =>
      have hc : isBlank c = false := hword c List.mem_cons_self
      simp [behindTag?, hc]
  | cons c blanks =>
    have hc : isBlank c = true := hblanks c List.mem_cons_self
    have hfirst := firstWord?_words hblanks hword hrest hne
    rw [List.cons_append] at hfirst ⊢
    rw [behindTag?, if_pos hc, hfirst]
    split_ifs with hnil <;> simp_all

/-- A content that ends with no blank is read as the tag that it is. -/
theorem tag?_eq_some_iff {cs : List Char} (hcs : ∀ c ∈ cs.getLast?, isBlank c = false)
    {namespaceName : Option String} :
    tag? name cs = some ⟨namespaceName⟩ ↔ NamesTag name cs namespaceName := by
  constructor
  · intro h
    rw [tag?_eq, Option.bind_eq_some_iff] at h
    obtain ⟨s, hs, h⟩ := h
    obtain rfl := after?_eq_some_iff.mp hs
    obtain ⟨blanks, word, rest, rfl, hblanks, hword, hrest, hne⟩ := exists_words s
    rw [behindTag?_words hblanks hword hrest hne] at h
    split_ifs at h with halone hnil
    · obtain rfl := Annotation.mk.inj (Option.some.inj h)
      obtain rfl := hnil
      obtain rfl := hne rfl
      rcases List.eq_nil_or_concat' blanks with rfl | ⟨init, c, rfl⟩
      · rw [List.nil_append, List.nil_append, List.append_nil]
        exact .alone
      · rw [List.append_nil, List.append_nil, ← List.append_assoc, List.getLast?_concat] at hcs
        have hc := hcs c rfl
        rw [hblanks c (by simp)] at hc
        cases hc
    · obtain rfl := Annotation.mk.inj (Option.some.inj h)
      exact .named hblanks hword hrest (fun hb => halone ⟨hb, hnil⟩) hnil
  · intro h
    cases h with
    | alone =>
      have halone := tag?_append name []
      rw [List.append_nil] at halone
      exact halone
    | named hblanks hword hrest hsome hne =>
      rw [tag?_append, behindTag?_words hblanks hword hrest (fun h => absurd h hne),
        if_neg (fun h => hsome h.1), if_neg hne]

end Words

section Closing
variable {name : String} {blanks word rest y z s : List Char}

theorem isBlank_star (hz : ∀ c ∈ z, c = '*') : ∀ c ∈ z, isBlank c = false := by
  intro c hc
  rw [hz c hc]
  rfl

/-- A namespace with a blank behind it is read whatever follows, and what is trimmed is of no
matter. -/
theorem behindTag?_of_blank_behind (hblanks : ∀ c ∈ blanks, isBlank c = true)
    (hword : ∀ c ∈ word, isBlank c = false) (hrest : ∀ c ∈ rest.head?, isBlank c = true)
    (hword_ne : word ≠ []) (hrest_ne : rest ≠ []) (z : List Char) :
    behindTag? (blanks ++ (word ++ rest) ++ z) = behindTag? (trimEnd (blanks ++ (word ++ rest))) := by
  have hlast : ∀ c ∈ (blanks ++ word).getLast?, isBlank c = false := by
    intro c hc
    rw [List.getLast?_append_of_ne_nil _ hword_ne] at hc
    exact hword c (List.mem_of_getLast? hc)
  have hlonger : ∀ c ∈ (rest ++ z).head?, isBlank c = true := by
    rw [List.head?_append_of_ne_nil _ hrest_ne]
    exact hrest
  have htrimmed : ∀ c ∈ (trimEnd rest).head?, isBlank c = true := by
    intro c hc
    obtain ⟨back, hback⟩ := trimEnd_prefix rest
    refine hrest c ?_
    rw [← hback, List.head?_append, Option.mem_def.mp hc]
    rfl
  rw [← List.append_assoc blanks word rest, trimEnd_append hlast]
  simp only [List.append_assoc]
  rw [behindTag?_words hblanks hword hlonger (fun h => absurd h hword_ne),
    behindTag?_words hblanks hword htrimmed fun h => absurd h hword_ne]

/-- Stars right behind the blanks or the namespace are read as a part of the namespace. -/
theorem behindTag?_ne_of_stars (hblanks : ∀ c ∈ blanks, isBlank c = true)
    (hword : ∀ c ∈ word, isBlank c = false) (hblanks_ne : blanks ≠ []) (hz : ∀ c ∈ z, c = '*')
    (hz_ne : z ≠ []) :
    behindTag? (blanks ++ word ++ z) ≠ behindTag? (trimEnd (blanks ++ word)) := by
  have hlonger : ∀ c ∈ word ++ z, isBlank c = false :=
    List.forall_mem_append.mpr ⟨hword, isBlank_star hz⟩
  have hread : behindTag? (blanks ++ word ++ z) = some ⟨some (String.ofList (word ++ z))⟩ := by
    have hend : ∀ c ∈ ([] : List Char).head?, isBlank c = true := by simp
    have h := behindTag?_words hblanks hlonger hend fun _ => rfl
    rw [if_neg fun h => hblanks_ne h.1, if_neg (by simp [hz_ne])] at h
    rw [← h, List.append_nil, List.append_assoc]
  rw [hread]
  by_cases hnil : word = []
  · rw [hnil, List.append_nil, trimEnd_eq_nil hblanks]
    simp [behindTag?]
  · have htrim : trimEnd (blanks ++ word) = blanks ++ (word ++ []) := by
      rw [List.append_nil]
      refine trimEnd_eq_self fun c hc => hword c ?_
      rw [List.getLast?_append_of_ne_nil _ hnil] at hc
      exact List.mem_of_getLast? hc
    rw [htrim, behindTag?_words hblanks hword (by simp) fun _ => rfl,
      if_neg fun h => hblanks_ne h.1, if_neg hnil]
    simp [hz_ne]

/-- Stars that are left behind a tag change what is read, unless they stand behind a namespace and a
blank or the text is no tag at all. -/
theorem behindTag?_stars_iff (hz : ∀ c ∈ z, c = '*') (hz_ne : z ≠ []) :
    behindTag? (s ++ z) = behindTag? (trimEnd s) ↔
      ¬ ((∀ c ∈ s.head?, isBlank c = true) ∧ ∀ c ∈ trimStart s, isBlank c = false) := by
  obtain ⟨blanks, word, rest, rfl, hblanks, hword, hrest, hne⟩ := exists_words s
  rw [trimStart_words hblanks hword hne]
  by_cases hrest_ne : rest = []
  · subst hrest_ne
    rw [List.append_nil]
    by_cases hblanks_ne : blanks = []
    · subst hblanks_ne
      cases word with
      | nil =>
        obtain ⟨c, z, rfl⟩ := List.exists_cons_of_ne_nil hz_ne
        have hc : isBlank c = false := isBlank_star hz c List.mem_cons_self
        simp [behindTag?, hc, trimEnd]
      | cons c word =>
        have hc : isBlank c = false := hword c List.mem_cons_self
        rw [List.nil_append, trimEnd_cons hc]
        simp [behindTag?, hc]
    · have hdiffer := behindTag?_ne_of_stars hblanks hword hblanks_ne hz hz_ne
      have hhead : ∀ c ∈ (blanks ++ word).head?, isBlank c = true := by
        intro c hc
        rw [List.head?_append_of_ne_nil _ hblanks_ne] at hc
        exact hblanks c (List.mem_of_mem_head? hc)
      simp only [hdiffer, false_iff, not_not]
      exact ⟨hhead, hword⟩
  · have hword_ne : word ≠ [] := fun h => hrest_ne (hne h)
    have hsame := behindTag?_of_blank_behind hblanks hword hrest hword_ne hrest_ne z
    simp only [hsame, true_iff]
    rintro ⟨-, hclean⟩
    obtain ⟨c, rest, rfl⟩ := List.exists_cons_of_ne_nil hrest_ne
    have hc := hclean c (by simp)
    rw [hrest c rfl] at hc
    cases hc

theorem of_mem_tagWord (hname : isIdentifier name = true) :
    ∀ c ∈ '@' :: name.toList, isBlank c = false ∧ c ≠ '*' := by
  have hascii : ∀ c, (isLetter c || isDigit c || c == '_' || c == '$') = true →
      isBlank c = false ∧ c ≠ '*' := by
    intro c hc
    have hall : ∀ n < 128, (isLetter (Char.ofNat n) || isDigit (Char.ofNat n) ||
        Char.ofNat n == '_' || Char.ofNat n == '$') = true →
          isBlank (Char.ofNat n) = false ∧ Char.ofNat n ≠ '*' := by
      decide +kernel
    have h := hall c.toNat (toNat_lt_of_ascii hc)
    rw [Char.ofNat_toNat] at h
    exact h hc
  refine List.forall_mem_cons.mpr ⟨by decide, fun c hc => hascii c ?_⟩
  unfold isIdentifier at hname
  cases h : name.toList with
  | nil =>
    rw [h] at hc
    cases hc
  | cons first others =>
    simp only [h, Bool.and_eq_true, List.all_eq_true] at hname
    rcases List.mem_cons.mp (h ▸ hc) with rfl | hc
    · simp only [Bool.or_eq_true] at hname ⊢
      rcases hname.1 with (hletter | hmark) | hmark
      · exact .inl (.inl (.inl hletter))
      · exact .inl (.inr hmark)
      · exact .inr hmark
    · exact hname.2 c hc

/-- Stars that are left behind a line without marks change what is read exactly if they stand where
the namespace is read. -/
theorem tag?_stars_iff (hname : isIdentifier name = true) (hz : ∀ c ∈ z, c = '*') (hz_ne : z ≠ []) :
    tag? name (y ++ z) = tag? name (trimEnd y) ↔
      ¬ ∃ rest, y = '@' :: name.toList ++ rest ∧ (∀ c ∈ rest.head?, isBlank c = true) ∧
        ∀ c ∈ trimStart rest, isBlank c = false := by
  have hword := of_mem_tagWord hname
  cases hy : after? ('@' :: name.toList) y with
  | some s =>
    obtain rfl := after?_eq_some_iff.mp hy
    have hlast : ∀ c ∈ ('@' :: name.toList).getLast?, isBlank c = false := fun c hc =>
      (hword c (List.mem_of_getLast? hc)).1
    rw [trimEnd_append hlast, List.append_assoc, tag?_append, tag?_append,
      behindTag?_stars_iff hz hz_ne]
    simp only [List.append_cancel_left_eq, exists_eq_left']
  | none =>
    have hfree : ∀ rest, y ≠ '@' :: name.toList ++ rest := by
      rintro rest rfl
      rw [after?_eq_some_iff.mpr rfl] at hy
      cases hy
    have hlonger : after? ('@' :: name.toList) (y ++ z) = none := by
      rw [Option.eq_none_iff_forall_ne_some]
      intro rest h
      rcases List.append_eq_append_iff.mp (after?_eq_some_iff.mp h) with
        ⟨back, hback, hz'⟩ | ⟨back, hback, -⟩
      · cases back with
        | nil => exact hfree [] (by rw [hback, List.append_nil, List.append_nil])
        | cons c back =>
          have hc : c = '*' := hz c (by rw [hz']; simp)
          exact (hword c (by rw [hback]; simp)).2 hc
      · exact hfree back hback
    have htrimmed : after? ('@' :: name.toList) (trimEnd y) = none := by
      rw [Option.eq_none_iff_forall_ne_some]
      intro rest h
      obtain ⟨back, hback⟩ := trimEnd_prefix y
      refine hfree (rest ++ back) ?_
      rw [← hback, after?_eq_some_iff.mp h, List.append_assoc]
    rw [tag?_eq, tag?_eq, hlonger, htrimmed]
    simp only [Option.bind_none, true_iff]
    rintro ⟨rest, hrest, -⟩
    exact hfree rest hrest

theorem exists_stars (cs : List Char) : ∃ z, cs = cs.rdropWhile (· = '*') ++ z ∧
    (∀ c ∈ z, c = '*') ∧ (z ≠ [] ↔ "**/".toList <:+ cs ++ "*/".toList) := by
  have hsplit : cs.rdropWhile (· = '*') ++ cs.rtakeWhile (· = '*') = cs :=
    List.rdropWhile_append_rtakeWhile
  have hstars : ∀ c ∈ cs.rtakeWhile (· = '*'), c = '*' := fun c hc => by
    simpa using List.mem_rtakeWhile_imp hc
  refine ⟨cs.rtakeWhile (· = '*'), hsplit.symm, hstars, ?_⟩
  rcases List.eq_nil_or_concat' cs with rfl | ⟨init, c, rfl⟩
  · decide
  · have hsuffix : "**/".toList <:+ init ++ [c] ++ "*/".toList ↔ c = '*' := by
      constructor
      · rintro ⟨front, hfront⟩
        have h : front ++ ['*'] ++ "*/".toList = init ++ [c] ++ "*/".toList := by
          rw [← hfront]
          simp
        exact (List.append_inj' (List.append_cancel_right h) rfl).2 |> List.singleton_inj.mp |>.symm
      · rintro rfl
        exact ⟨init, by simp⟩
    rw [hsuffix, List.rtakeWhile_concat]
    by_cases hc : c = '*' <;> simp [hc]

/-- A text that is freed of one star and a slash at its end is read as if it were freed of all stars
in front of the slash, unless more than one of them closes the comment where the namespace is
read. -/
theorem tag?_before_iff (hname : isIdentifier name = true) (cs : List Char) :
    tag? name (trim ((before? "*/".toList (trim cs)).getD (trim cs))) =
        tag? name (trim (withoutClosing (trim cs))) ↔ ¬ ClosedAtNamespace name (trim cs) := by
  have hfront := head?_trim cs
  generalize trim cs = v at hfront
  unfold ClosedAtNamespace withoutClosing
  cases hb : before? "*/".toList v with
  | none =>
    simp only [Option.getD_none, true_iff]
    rintro ⟨⟨front, rfl⟩, -⟩
    have hsome : before? "*/".toList (front ++ "**/".toList) = some (front ++ ['*']) :=
      before?_eq_some_iff.mpr (by simp)
    rw [hsome] at hb
    cases hb
  | some x =>
    obtain rfl := before?_eq_some_iff.mp hb
    simp only [Option.getD_some]
    obtain ⟨z, hx, hz, hz_iff⟩ := exists_stars x
    rw [← hz_iff]
    generalize x.rdropWhile (· = '*') = y at hx
    subst hx
    by_cases hz_ne : z = []
    · simp [hz_ne]
    · have hlast : ∀ c ∈ (y ++ z).getLast?, isBlank c = false := by
        intro c hc
        rw [List.getLast?_append_of_ne_nil _ hz_ne] at hc
        exact isBlank_star hz c (List.mem_of_getLast? hc)
      have hhead : ∀ ds : List Char, ds <+: y ++ z → trimStart ds = ds := by
        rintro ds ⟨back, hback⟩
        refine trimStart_eq_self fun c hc => hfront c ?_
        rw [← hback, List.append_assoc, List.head?_append, Option.mem_def.mp hc]
        rfl
      rw [trim, trim, hhead _ (List.prefix_append y z), hhead _ (List.prefix_refl _),
        trimEnd_eq_self hlast, tag?_stars_iff hname hz hz_ne]
      simp only [ne_eq, hz_ne, not_false_eq_true, true_and]

end Closing

section Opening
variable {name : String} {line v w : List Char}

theorem tag?_trim_of_prefix (name : String) (hv : ∀ c ∈ v.head?, isBlank c = false ∧ c ≠ '@')
    (hw : w <+: v) : tag? name (trim w) = none := by
  have hhead : ∀ c ∈ (trim w).head?, c ≠ '@' := by
    intro c hc
    obtain ⟨back, rfl⟩ := hw
    have hmem : c ∈ w.head? := by
      cases w with
      | nil => exact hc
      | cons d w =>
        have hd : isBlank d = false := (hv d rfl).1
        have htrim : trim (d :: w) = d :: trimEnd w := by
          rw [trim, trimStart_eq_self (by simpa using hd), trimEnd_cons hd]
        rw [htrim] at hc
        exact hc
    refine (hv c ?_).2
    rw [List.head?_append, Option.mem_def.mp hmem]
    rfl
  rw [tag?_eq]
  cases htrim : trim w with
  | nil => rfl
  | cons d ds =>
    have hd : '@' ≠ d := (hhead d (by rw [htrim]; rfl)).symm
    rw [after?, if_neg hd]
    rfl

theorem withoutClosing_isPrefix (v : List Char) : withoutClosing v <+: v := by
  unfold withoutClosing
  cases hb : before? "*/".toList v with
  | none => exact List.prefix_refl v
  | some x =>
    rw [before?_eq_some_iff.mp hb]
    exact (List.rdropWhile_prefix _ x).trans (List.prefix_append x _)

theorem before?_getD_isPrefix (back v : List Char) : (before? back v).getD v <+: v := by
  cases hb : before? back v with
  | none => exact List.prefix_refl v
  | some x => exact ⟨back, (before?_eq_some_iff.mp hb).symm⟩

theorem lineContent_of_slashes {rest : List Char} (h : trim line = "//".toList ++ rest) :
    lineContent line = trim (withoutEnd (withoutStars rest)) := by
  have hend : withoutEnd (withoutStars rest) =
      (before? "*/".toList (withoutStars rest)).getD (withoutStars rest) := by
    unfold withoutEnd
    cases before? "*/".toList (withoutStars rest) <;> rfl
  rw [lineContent, h, hend]
  rfl

theorem unopened_of_slashes (h : "//".toList <+: trim line) :
    ∀ c ∈ (unopened line).head?, isBlank c = false ∧ c ≠ '@' := by
  obtain ⟨rest, hrest⟩ := h
  have htrim : trim line = '/' :: '/' :: rest := by
    rw [← hrest]
    rfl
  have hopen : unopened line = '/' :: trimEnd ('/' :: rest) := by
    rw [unopened, htrim]
    exact trimEnd_cons (by decide) ('/' :: rest)
  rw [hopen]
  intro c hc
  obtain rfl : '/' = c := by simpa using hc
  decide

/-- Stars behind a blank that stand behind more than two stars are left. -/
theorem tag?_lineContent_of_stars (name : String) (hmark : "/***".toList <+: trim line)
    (hstar : (trimStart (withoutOpening (trim line))).head? = some '*') :
    tag? name (lineContent line) = none := by
  obtain ⟨rest, hrest⟩ := hmark
  have hopen : withoutOpening (trim line) = rest.dropWhile (· = '*') := by
    rw [← hrest]
    rfl
  rw [hopen] at hstar
  obtain ⟨tail, htail⟩ := List.head?_eq_some_iff.mp hstar
  have hinner : lineContent line = trim ((before? "*/".toList ('*' :: trimEnd tail)).getD
      ('*' :: trimEnd tail)) := by
    have htrim : trim (rest.dropWhile (· = '*')) = '*' :: trimEnd tail := by
      rw [← trim_trimStart, htail]
      exact trimEnd_cons (by decide) tail
    rw [← htrim, lineContent, ← hrest]
    rfl
  rw [hinner]
  refine tag?_trim_of_prefix name ?_ (before?_getD_isPrefix _ _)
  intro c hc
  obtain rfl : '*' = c := by simpa using hc
  decide

theorem withoutStars_dropWhile {cs : List Char} (h : cs.head? = some '*' →
    (trimStart (cs.dropWhile (· = '*'))).head? ≠ some '*') :
    withoutStars (cs.dropWhile (· = '*')) = withoutStars cs := by
  cases cs with
  | nil => rfl
  | cons c cs =>
    by_cases hc : c = '*'
    · subst hc
      have hstar : ((trimStart (('*' :: cs).dropWhile (· = '*'))).dropWhile (· = '*')) =
          trimStart (('*' :: cs).dropWhile (· = '*')) := by
        have hhead := h rfl
        generalize trimStart (('*' :: cs).dropWhile (· = '*')) = ds at hhead
        cases ds with
        | nil => rfl
        | cons d ds => exact List.dropWhile_cons_of_neg (by simpa using hhead)
      rw [withoutStars, hstar, trim_trimStart, withoutStars, trimStart_eq_self (by simp; decide)]
    · rw [List.dropWhile_cons_of_neg (by simpa using hc)]

theorem withoutStars_mark {t : List Char} (hslash : ¬ "//".toList <+: t)
    (hstars : "/***".toList <+: t → (trimStart (withoutOpening t)).head? ≠ some '*') :
    withoutStars ((["/**", "/*", "//"].findSome? fun mark => after? mark.toList t).getD t) =
      withoutStars (withoutOpening t) := by
  cases hdoc : after? "/**".toList t with
  | some rest =>
    obtain rfl := after?_eq_some_iff.mp hdoc
    refine (withoutStars_dropWhile fun hrest => ?_).symm
    obtain ⟨tail, rfl⟩ := List.head?_eq_some_iff.mp hrest
    exact hstars ⟨tail, rfl⟩
  | none =>
    cases hopen : after? "/*".toList t with
    | some rest =>
      obtain rfl := after?_eq_some_iff.mp hopen
      simp only [List.findSome?, hdoc, hopen, Option.getD_some]
      refine (withoutStars_dropWhile fun hrest => ?_).symm
      obtain ⟨tail, rfl⟩ := List.head?_eq_some_iff.mp hrest
      cases hdoc
    | none =>
      have hline : after? "//".toList t = none := by
        rw [Option.eq_none_iff_forall_ne_some]
        exact fun rest h => hslash ⟨rest, (after?_eq_some_iff.mp h).symm⟩
      simp only [List.findSome?, hdoc, hopen, hline, withoutOpening, Option.getD_none]

/-- Lines that do not begin like a line comment, and hide nothing behind further stars, are freed of
the marks in front. -/
theorem lineContent_eq (hslash : ¬ "//".toList <+: trim line)
    (hstars : "/***".toList <+: trim line →
      (trimStart (withoutOpening (trim line))).head? ≠ some '*') :
    lineContent line = trim ((before? "*/".toList (unopened line)).getD (unopened line)) := by
  rw [unopened, ← withoutStars_mark hslash hstars]
  rfl

end Opening

section Tags
variable {name : String}

theorem tag?_trim_ne_none_iff {cs : List Char} :
    tag? name (trim cs) ≠ none ↔ ∃ namespaceName, NamesTag name (trim cs) namespaceName := by
  rw [Option.ne_none_iff_exists']
  simp only [← tag?_eq_some_iff (getLast?_trim cs)]
  exact ⟨fun ⟨a, ha⟩ => ⟨a.namespaceName, ha⟩, fun ⟨ns, hns⟩ => ⟨_, hns⟩⟩

theorem tag?_content_eq_some_iff {line : List Char} {namespaceName : Option String} :
    tag? name (content line) = some ⟨namespaceName⟩ ↔ NamesTag name (content line) namespaceName :=
  tag?_eq_some_iff (getLast?_trim _)

theorem NamesTag.tag?_ne_none {line : List Char} {namespaceName : Option String}
    (h : NamesTag name (content line) namespaceName) : tag? name (content line) ≠ none := by
  rw [tag?_content_eq_some_iff.mpr h]
  exact Option.some_ne_none _

theorem ClosedAtNamespace.tag?_ne_none (hname : isIdentifier name = true) {line : List Char}
    (h : ClosedAtNamespace name (unopened line)) : tag? name (content line) ≠ none := by
  obtain ⟨-, rest, hrest, hhead, -⟩ := h
  have hword := of_mem_tagWord hname
  have hlast : ∀ c ∈ ('@' :: name.toList).getLast?, isBlank c = false := fun c hc =>
    (hword c (List.mem_of_getLast? hc)).1
  have hcontent : content line = '@' :: name.toList ++ trimEnd rest := by
    rw [content, hrest, trim, trimStart_eq_self fun c hc => ?_, trimEnd_append hlast]
    obtain rfl : '@' = c := by simpa using hc
    decide
  rw [hcontent, tag?_append]
  cases htrim : trimEnd rest with
  | nil => simp [behindTag?]
  | cons c cs =>
    obtain ⟨back, hback⟩ := trimEnd_prefix rest
    have hc : isBlank c = true := hhead c (by rw [← hback, htrim]; rfl)
    simp [behindTag?, hc]

variable {line : List Char} (hname : isIdentifier name = true)
include hname

-- A line that begins like a line comment is misread if a tag is found in it, one that hides something
-- behind further stars if its content is a tag, and any other one only where the comment closes.
theorem misread_iff_of_slashes (hslash : "//".toList <+: trim line) :
    Misread name line ↔ tag? name (lineContent line) ≠ tag? name (content line) := by
  have hnone : tag? name (content line) = none :=
    tag?_trim_of_prefix name (unopened_of_slashes hslash) (withoutClosing_isPrefix _)
  rw [hnone]
  constructor
  · intro h
    cases h with
    | slashes hmark htag =>
      rw [lineContent_of_slashes hmark]
      exact tag?_trim_ne_none_iff.mpr htag
    | stars _ _ htag =>
      obtain ⟨ns, hns⟩ := htag
      exact absurd hnone hns.tag?_ne_none
    | closing hmark => exact absurd hnone (hmark.tag?_ne_none hname)
  · intro htag
    obtain ⟨rest, hrest⟩ := hslash
    rw [lineContent_of_slashes hrest.symm] at htag
    exact .slashes hrest.symm (tag?_trim_ne_none_iff.mp htag)

theorem misread_iff_of_stars (hmark : "/***".toList <+: trim line)
    (hstar : (trimStart (withoutOpening (trim line))).head? = some '*') :
    Misread name line ↔ tag? name (lineContent line) ≠ tag? name (content line) := by
  rw [tag?_lineContent_of_stars name hmark hstar]
  constructor
  · intro h
    cases h with
    | slashes hslash =>
      obtain ⟨rest, hrest⟩ := hmark
      rw [← hrest] at hslash
      exact absurd hslash (by simp)
    | stars _ _ htag =>
      obtain ⟨ns, hns⟩ := htag
      exact hns.tag?_ne_none.symm
    | closing hmark => exact (hmark.tag?_ne_none hname).symm
  · intro h
    obtain ⟨a, htag⟩ := Option.ne_none_iff_exists'.mp h.symm
    exact .stars hmark hstar ⟨a.namespaceName, tag?_content_eq_some_iff.mp htag⟩

theorem misread_iff_of_plain (hslash : ¬ "//".toList <+: trim line)
    (hstars : "/***".toList <+: trim line →
      (trimStart (withoutOpening (trim line))).head? ≠ some '*') :
    Misread name line ↔ tag? name (lineContent line) ≠ tag? name (content line) := by
  rw [lineContent_eq hslash hstars, content, ne_eq, unopened, withoutStars, tag?_before_iff hname,
    not_not]
  constructor
  · intro h
    cases h with
    | slashes hmark => exact absurd ⟨_, hmark.symm⟩ hslash
    | stars hmark hstar => exact absurd hstar (hstars hmark)
    | closing hmark => exact hmark
  · exact fun hclosed => .closing hclosed

theorem tag?_lineContent_iff (line : List Char) :
    tag? name (lineContent line) = tag? name (content line) ↔ ¬ Misread name line := by
  rw [iff_not_comm, ← ne_eq]
  by_cases hslash : "//".toList <+: trim line
  · exact misread_iff_of_slashes hname hslash
  by_cases hstars : "/***".toList <+: trim line ∧
      (trimStart (withoutOpening (trim line))).head? = some '*'
  · exact misread_iff_of_stars hname hstars.1 hstars.2
  · exact misread_iff_of_plain hname hslash fun hmark hstar => hstars ⟨hmark, hstar⟩

/-- Every line holds the tag that its content is, exactly if it is not misread, and a comment without
misread lines has the tags of its lines, one for each line whose content is a tag, in order. -/
theorem tags_by_content (comment : String) :
    (∀ line, (∀ namespaceName, tag? name (lineContent line) = some ⟨namespaceName⟩ ↔
      NamesTag name (content line) namespaceName) ↔ ¬ Misread name line) ∧
    ((∀ line ∈ lines comment.toList, ¬ Misread name line) →
      HoldsTags name (lines comment.toList) (tags name comment)) := by
  have hline : ∀ line, (∀ namespaceName, tag? name (lineContent line) = some ⟨namespaceName⟩ ↔
      NamesTag name (content line) namespaceName) ↔ ¬ Misread name line := by
    intro line
    rw [← tag?_lineContent_iff hname, Option.ext_iff]
    simp only [← tag?_content_eq_some_iff]
    exact ⟨fun h a => h a.namespaceName, fun h ns => h ⟨ns⟩⟩
  refine ⟨hline, fun hlines => ?_⟩
  unfold tags
  generalize lines comment.toList = ls at hlines
  induction ls with
  | nil => exact .nil
  | cons line ls ih =>
    obtain ⟨hhead, htail⟩ := List.forall_mem_cons.mp hlines
    have hread := (hline line).mpr hhead
    cases htag : tag? name (lineContent line) with
    | none =>
      rw [List.filterMap_cons, htag]
      refine .other (fun ns hns => ?_) (ih htail)
      rw [(hread ns).mpr hns] at htag
      cases htag
    | some a =>
      rw [List.filterMap_cons, htag]
      exact .tag ((hread a.namespaceName).mp htag) (ih htail)

end Tags

/-- A comment with three stars in front and two behind a description. -/
def describedComment : String :=
  "/*** Reads a user.\n * @expose userAPI by its name **/"

theorem described_tags_by_content :
    isIdentifier "expose" = true ∧
      (∀ line ∈ lines describedComment.toList, ¬ Misread "expose" line) ∧
      tags "expose" describedComment = [⟨some "userAPI"⟩] ∧
      HoldsTags "expose" (lines describedComment.toList) [⟨some "userAPI"⟩] := by
  have hname : isIdentifier "expose" = true := by decide
  have hfirst : ¬ Misread "expose" "/*** Reads a user.".toList := by
    have hslash : ¬ "//".toList <+: trim "/*** Reads a user.".toList := by decide
    intro h
    cases h with
    | slashes hmark => exact absurd ⟨_, hmark.symm⟩ hslash
    | stars _ hstar => exact absurd hstar (by decide)
    | closing hmark => exact absurd hmark.1 (by decide)
  have hsecond : ¬ Misread "expose" " * @expose userAPI by its name **/".toList := by
    have hslash : ¬ "//".toList <+: trim " * @expose userAPI by its name **/".toList := by decide
    intro h
    cases h with
    | slashes hmark => exact absurd ⟨_, hmark.symm⟩ hslash
    | stars hmark => exact absurd hmark (by decide)
    | closing hmark =>
      obtain ⟨-, rest, hrest, -, hclean⟩ := hmark
      have hbehind : rest = " userAPI by its name ".toList := by
        have hsame : '@' :: "expose".toList ++ rest =
            '@' :: "expose".toList ++ " userAPI by its name ".toList :=
          hrest.symm.trans (by decide)
        exact List.append_cancel_left hsame
      subst hbehind
      exact absurd (hclean ' ' (by decide)) (by decide)
  have hlines : lines describedComment.toList =
      ["/*** Reads a user.".toList, " * @expose userAPI by its name **/".toList] := by decide
  have hread : ∀ line ∈ lines describedComment.toList, ¬ Misread "expose" line := by
    rw [hlines]
    exact List.forall_mem_cons.mpr ⟨hfirst, List.forall_mem_singleton.mpr hsecond⟩
  have htags : tags "expose" describedComment = [⟨some "userAPI"⟩] := by decide
  exact ⟨hname, hread, htags, htags ▸ (tags_by_content hname describedComment).2 hread⟩

/-- The first of two stars that close a comment right behind a tag is read as its namespace. -/
theorem starred_closing_misread :
    (lines "/** @expose **/".toList).map content = ["@expose".toList] ∧
      NamesTag "expose" "@expose".toList none ∧
      tags "expose" "/** @expose **/" = [⟨some "*"⟩] ∧
      ¬ HoldsTags "expose" (lines "/** @expose **/".toList) (tags "expose" "/** @expose **/") := by
  have hlines : lines "/** @expose **/".toList = ["/** @expose **/".toList] := by decide
  have htags : tags "expose" "/** @expose **/" = [⟨some "*"⟩] := by decide
  refine ⟨by decide, .alone, htags, ?_⟩
  rw [hlines, htags]
  intro h
  cases h with
  | tag h =>
    have hread := tag?_content_eq_some_iff.mpr h
    revert hread
    decide
  | other _ rest => cases rest

end CallBridge.Annotation
