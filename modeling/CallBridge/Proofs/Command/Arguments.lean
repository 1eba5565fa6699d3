import CallBridge.Command.Arguments
import CallBridge.Proofs.Basic

/-! # Command lines of generation and of checks

While a command line is read, what was given stays given, and nothing is begun that the command does
not know. The two commands differ in one switch only, so the command lines of a check are the command
lines of a generation that do not deny warnings.
-/
namespace CallBridge.Command

namespace Given

def pendingSwitch? (g : Given) : Option Switch :=
  match g.pending with
  | .option s _ => some s
  | _ => none

def Begun (g : Given) (s : Switch) : Prop :=
  s ∈ g.options.map Prod.fst ∨ g.pendingSwitch? = some s

structure Grows (allowed : List Switch) (g g' : Given) : Prop where
  options : g.options ⊆ g'.options
  begun : ∀ s, g'.Begun s → g.Begun s ∨ s ∈ allowed

variable {allowed : List Switch} {g g' g'' : Given} {s : Switch} {value : String}

theorem Grows.refl (allowed : List Switch) (g : Given) : Grows allowed g g :=
  ⟨fun _ h => h, fun _ h => .inl h⟩

theorem Grows.trans (h : Grows allowed g g') (h' : Grows allowed g' g'') : Grows allowed g g'' := by
  refine ⟨fun e he => h'.options (h.options he), fun s hs => ?_⟩
  rcases h'.begun s hs with hs | hs
  · exact h.begun s hs
  · exact .inr hs

theorem give_eq_ok (h : g.give s value = .ok g') :
    g' = { g with options := g.options ++ [(s, value)] } := by
  unfold give at h
  split_ifs at h
  exact (Except.ok.inj h).symm

theorem give_grows (hs : s ∈ allowed) (h : g.give s value = .ok g') : Grows allowed g g' := by
  obtain rfl := give_eq_ok h
  refine ⟨List.subset_append_left _ _, fun x hx => ?_⟩
  rcases hx with hx | hx
  · rw [List.map_append, List.mem_append] at hx
    rcases hx with hx | hx
    · exact .inl (.inl hx)
    · obtain rfl : x = s := by simpa using hx
      exact .inr hs
  · exact .inl (.inr hx)

theorem settle_grows (allowed : List Switch) (h : g.settle = .ok g') : Grows allowed g g' := by
  unfold settle at h
  cases hpending : g.pending with
  | nothing =>
    rw [hpending] at h
    obtain rfl := Except.ok.inj h
    exact .refl _ _
  | option s value? =>
    rw [hpending] at h
    cases value? with
    | none => cases h
    | some value =>
      obtain rfl := give_eq_ok h
      refine ⟨List.subset_append_left _ _, fun x hx => .inl ?_⟩
      rcases hx with hx | hx
      · rw [List.map_append, List.mem_append] at hx
        rcases hx with hx | hx
        · exact .inl hx
        · obtain rfl : x = s := by simpa using hx
          exact .inr (by simp [pendingSwitch?, hpending])
      · cases hx
  | files names =>
    rw [hpending] at h
    dsimp only at h
    split_ifs at h
    obtain rfl := Except.ok.inj h
    refine ⟨fun _ he => he, fun x hx => .inl ?_⟩
    rcases hx with hx | hx
    · exact .inl hx
    · cases hx

theorem attach_grows (hs : s ∈ allowed) (h : g.attach s value = .ok g') : Grows allowed g g' := by
  obtain ⟨settled, hsettled, hgive⟩ := bind_eq_ok_iff.mp h
  exact (settle_grows allowed hsettled).trans (give_grows hs hgive)

theorem await_grows (hs : g.Begun s ∨ s ∈ allowed) (value? : Option String) :
    Grows allowed g { g with pending := .option s value? } := by
  refine ⟨fun _ he => he, fun x hx => ?_⟩
  rcases hx with hx | hx
  · exact .inl (.inl hx)
  · obtain rfl : s = x := Option.some.inj hx
    exact hs

theorem begin_grows (hs : s ∈ allowed) (h : g.begin s = .ok g') : Grows allowed g g' := by
  obtain ⟨settled, hsettled, h⟩ := bind_eq_ok_iff.mp h
  refine (settle_grows allowed hsettled).trans ?_
  cases s with
  | help => cases h
  | version => cases h
  | verbose =>
    obtain rfl := Except.ok.inj h
    exact .refl _ _
  | denyWarnings => exact give_grows hs h
  | config =>
    obtain rfl := Except.ok.inj h
    exact await_grows (.inr hs) none
  | format =>
    obtain rfl := Except.ok.inj h
    exact await_grows (.inr hs) none
  | output =>
    obtain rfl := Except.ok.inj h
    exact await_grows (.inr hs) none

theorem addFile_grows (allowed : List Switch) {name : String} (h : g.addFile name = .ok g') :
    Grows allowed g g' := by
  have hfiles : ∀ (g : Given) (names : List String),
      Grows allowed g { g with pending := .files names } := by
    intro g names
    refine ⟨fun _ he => he, fun x hx => .inl ?_⟩
    rcases hx with hx | hx
    · exact .inl hx
    · cases hx
  unfold addFile at h
  split at h
  · obtain rfl := Except.ok.inj h
    exact hfiles g _
  · obtain ⟨settled, hsettled, h⟩ := bind_eq_ok_iff.mp h
    obtain rfl := pure_eq_ok_iff.mp h
    exact (settle_grows allowed hsettled).trans (hfiles settled _)

end Given

open Given (Grows)

variable {g g' : Given} {plain : Bool} {word : String}

theorem readLong_grows {switches : List Switch} {long : List Char}
    (h : readLong switches g long = .ok g') : Grows switches g g' := by
  unfold readLong at h
  dsimp only at h
  split at h
  · cases h
  · next s _ hs _ => exact Given.begin_grows (List.mem_of_find?_eq_some hs) h
  · next s value _ hs _ =>
    split_ifs at h
    exact Given.attach_grows (List.mem_of_find?_eq_some hs) h

theorem readShort_grows {switches : List Switch} {short : List Char}
    (h : readShort switches g short = .ok g') : Grows switches g g' := by
  induction short generalizing g with
  | nil =>
    obtain rfl := Except.ok.inj h
    exact .refl _ _
  | cons c cs ih =>
    unfold readShort at h
    split at h
    · cases h
    · next s hs =>
      have hmem := List.mem_of_find?_eq_some hs
      split_ifs at h
      · exact Given.attach_grows hmem h
      · exact Given.attach_grows hmem h
      · split at h
        · next next hnext => exact (Given.begin_grows hmem hnext).trans (ih h)
        · cases h

theorem readWord_grows {v : Verb} (h : readWord v plain g word = .ok g') :
    Grows v.switches g g' := by
  have hpositional : ∀ {g'},
      (if v.takesFiles then g.addFile word else .error .unknownArgument) = .ok g' →
        Grows v.switches g g' := by
    intro g' h
    split_ifs at h
    exact Given.addFile_grows _ h
  unfold readWord at h
  dsimp only at h
  split at h
  · exact readLong_grows h
  · exact readShort_grows h
  · split at h
    · next s hs =>
      obtain rfl := Except.ok.inj h
      have hbegun : g.pendingSwitch? = some s := by
        unfold awaitsValue at hs
        unfold Given.pendingSwitch?
        split at hs
        · next hpending =>
          rw [hpending]
          exact hs
        · cases hs
      exact Given.await_grows (.inl (.inr hbegun)) _
    · exact hpositional h
  · exact hpositional h

theorem readWords_grows {v : Verb} {words : List String} (h : readWords v plain g words = .ok g') :
    Grows v.switches g g' := by
  induction words generalizing plain g with
  | nil => exact Given.settle_grows _ h
  | cons word rest ih =>
    unfold readWords at h
    split_ifs at h
    · exact ih h
    · split at h
      · next next hnext => exact (readWord_grows hnext).trans (ih h)
      · cases h

/-- Both commands find the same switch, unless it is looked for what only a generation knows. -/
theorem find?_check_switches {p : Switch → Bool} (h : p .denyWarnings = false) :
    Verb.check.switches.find? p = Verb.generate.switches.find? p := by
  simp [Verb.switches, List.find?, h]

theorem readShort_check (g : Given) (short : List Char) :
    readShort Verb.check.switches g short = readShort Verb.generate.switches g short := by
  induction short generalizing g with
  | nil => rfl
  | cons c cs ih =>
    unfold readShort
    rw [find?_check_switches rfl]
    simp only [ih]

/-- A long option is the same to both commands, or it denies warnings. -/
theorem readLong_check (g : Given) (long : List Char) :
    readLong Verb.check.switches g long = readLong Verb.generate.switches g long ∨
      readLong Verb.check.switches g long = .error .unknownArgument ∧
        ∀ g', readLong Verb.generate.switches g long = .ok g' → g.begin .denyWarnings = .ok g' := by
  unfold readLong
  dsimp only
  cases hname : Switch.denyWarnings.long == (splitAssign long).1 with
  | false =>
    rw [find?_check_switches hname]
    exact .inl rfl
  | true =>
    have hlong : (splitAssign long).1 = Switch.denyWarnings.long := (beq_iff_eq.mp hname).symm
    rw [hlong]
    refine .inr ⟨rfl, fun g' h => ?_⟩
    cases hvalue : (splitAssign long).2 with
    | none =>
      rw [hvalue] at h
      exact h
    | some value =>
      rw [hvalue] at h
      cases h

theorem readWord_check (plain : Bool) (g : Given) (word : String) :
    readWord .check plain g word = readWord .generate plain g word ∨
      readWord .check plain g word = .error .unknownArgument ∧
        ∀ g', readWord .generate plain g word = .ok g' → g.begin .denyWarnings = .ok g' := by
  unfold readWord
  dsimp only
  split
  · exact readLong_check g _
  · exact .inl (readShort_check g _)
  · exact .inl rfl
  · exact .inl rfl

def Given.Lenient (g : Given) : Prop :=
  ∀ e ∈ g.options, e.1 ≠ .denyWarnings

theorem not_lenient_of_begin (h : g.begin .denyWarnings = .ok g') : ¬ g'.Lenient := by
  obtain ⟨settled, -, h⟩ := bind_eq_ok_iff.mp h
  obtain rfl := Given.give_eq_ok h
  intro hlenient
  exact hlenient (.denyWarnings, "") (by simp) rfl

theorem Given.Grows.lenient {allowed : List Switch} (h : Grows allowed g g') (hg : g'.Lenient) :
    g.Lenient :=
  fun e he => hg e (h.options he)

theorem generate_of_check {words : List String} (h : readWords .check plain g words = .ok g') :
    readWords .generate plain g words = .ok g' := by
  induction words generalizing plain g with
  | nil => exact h
  | cons word rest ih =>
    unfold readWords at h ⊢
    split_ifs at h ⊢ with hplain
    · exact ih h
    · rcases readWord_check plain g word with hsame | ⟨hunknown, -⟩
      · rw [← hsame]
        split at h
        · exact ih h
        · cases h
      · rw [hunknown] at h
        cases h

theorem check_of_generate {words : List String}
    (h : readWords .generate plain g words = .ok g') (hlenient : g'.Lenient) :
    readWords .check plain g words = .ok g' := by
  induction words generalizing plain g with
  | nil => exact h
  | cons word rest ih =>
    unfold readWords at h ⊢
    split_ifs at h ⊢ with hplain
    · exact ih h
    · split at h
      · next next hnext =>
        rcases readWord_check plain g word with hsame | ⟨-, hdeny⟩
        · rw [hsame, hnext]
          exact ih h
        · -- What denies warnings stays given, to the end of the line.
          have hnot := not_lenient_of_begin (hdeny next hnext)
          exact absurd ((readWords_grows h).lenient hlenient) hnot
      · cases h

/-- What a check reads is what a generation reads that does not deny warnings. -/
theorem readWords_check_iff {words : List String} (hg : ¬ g.Begun .denyWarnings) :
    readWords .check plain g words = .ok g' ↔
      readWords .generate plain g words = .ok g' ∧ g'.Lenient := by
  constructor
  · intro h
    refine ⟨generate_of_check h, fun e he hdeny => ?_⟩
    have hmem : Switch.denyWarnings ∈ g'.options.map Prod.fst := List.mem_map.mpr ⟨e, he, hdeny⟩
    rcases (readWords_grows h).begun _ (.inl hmem) with hbegun | hknown
    · exact hg hbegun
    · exact absurd hknown (by decide)
  · rintro ⟨h, hlenient⟩
    exact check_of_generate h hlenient

theorem denyWarnings_runOptions : g.runOptions.denyWarnings = false ↔ g.Lenient := by
  simp [Given.runOptions, Given.value?, Given.Lenient]

@[simp]
theorem Verb.ofText?_text (v : Verb) : Verb.ofText? v.text = some v := by
  cases v <;> decide

/-- Words that name no command either stop every line that begins with them, or leave the command
behind them to read its own words. -/
theorem readLine_front {front : List String} (hfront : ∀ word ∈ front, Verb.ofText? word = none)
    (given plain : Bool) :
    (∀ (v : Verb) words r, readLine given plain (front ++ v.text :: words) ≠ .ok r) ∨
      ∀ (v : Verb) words, readLine given plain (front ++ v.text :: words) =
        (readWords v false {} words).map (·.request v) := by
  induction front generalizing given plain with
  | nil =>
    cases plain with
    | true => exact .inl fun v words r h => by simp [readLine] at h
    | false => exact .inr fun v words => by simp [readLine]
  | cons word front ih =>
    have hnone := hfront word List.mem_cons_self
    have hrest := ih fun w hw => hfront w (List.mem_cons_of_mem _ hw)
    simp only [List.cons_append, readLine, hnone]
    cases plain with
    | true => exact .inl fun v words r h => by simp at h
    | false =>
      simp only [Bool.false_eq_true, if_false]
      split_ifs
      · exact .inl fun v words r h => by cases h
      · exact hrest given true
      · split
        · cases readLong rootSwitches {} _ with
          | ok g => exact hrest true false
          | error stop => exact .inl fun v words r h => by cases h
        · cases readShort rootSwitches {} _ with
          | ok g => exact hrest true false
          | error stop => exact .inl fun v words r h => by cases h
        · exact .inl fun v words r h => by cases h

/-- A command line asks for a check with some options if and only if the same line asks for a
generation with these options, and they do not deny warnings. -/
theorem ofArguments_check_iff {front words : List String}
    (hfront : ∀ word ∈ front, Verb.ofText? word = none) {o : RunOptions} :
    Request.ofArguments (front ++ "check" :: words) = .ok (.check o) ↔
      Request.ofArguments (front ++ "generate" :: words) = .ok (.generate o) ∧
        o.denyWarnings = false := by
  have hstart : ¬ ({} : Given).Begun .denyWarnings := by
    rintro (h | h) <;> cases h
  rcases readLine_front hfront false false with hstop | hread
  · constructor
    · intro h
      exact absurd h (hstop .check words _)
    · rintro ⟨h, -⟩
      exact absurd h (hstop .generate words _)
  have hcheck : Request.ofArguments (front ++ "check" :: words) =
      (readWords .check false {} words).map (·.request .check) := hread .check words
  have hgenerate : Request.ofArguments (front ++ "generate" :: words) =
      (readWords .generate false {} words).map (·.request .generate) := hread .generate words
  rw [hcheck, hgenerate]
  constructor
  · intro h
    cases hread : readWords .check false {} words with
    | error stop =>
      rw [hread] at h
      cases h
    | ok g =>
      rw [hread] at h
      obtain ⟨hsame, hlenient⟩ := (readWords_check_iff hstart).mp hread
      obtain rfl : g.runOptions = o := by
        cases h
        rfl
      rw [hsame]
      exact ⟨rfl, denyWarnings_runOptions.mpr hlenient⟩
  · rintro ⟨h, hdeny⟩
    cases hread : readWords .generate false {} words with
    | error stop =>
      rw [hread] at h
      cases h
    | ok g =>
      rw [hread] at h
      obtain rfl : g.runOptions = o := by
        cases h
        rfl
      rw [(readWords_check_iff hstart).mpr ⟨hread, denyWarnings_runOptions.mp hdeny⟩]
      rfl

end CallBridge.Command
