import CallBridge.Command.Execution
import CallBridge.Proofs.Basic
import CallBridge.Proofs.Path.Lexical

/-! # Usable settings

A run starts from settings that were read in an absolute directory and hold what they must. All
settings that a command runs with are such, whether they come from a document or are the defaults.
-/
namespace CallBridge

/-- The settings are as a run gets them: read in an absolute directory, and valid. -/
structure Settings.Ready (s : Settings) : Prop where
  rooted : ∃ directory : Path, directory.isAbsolute = true ∧ s.root = directory.normalize
  valid : s.validate = .ok ()

namespace Settings

variable {s : Settings}

theorem ofNode?_root {directory : Path} {n : Yaml.Node} (h : ofNode? directory n = some s) :
    s.root = directory.normalize := by
  simp only [ofNode?, bind, Option.bind_eq_some_iff] at h
  obtain ⟨_, _, _, _, _, _, _, _, _, _, _, _, _, _, _, _, h⟩ := h
  obtain rfl := Option.some.inj h
  rfl

theorem ready_of_ofYaml {directory : Path} (hd : directory.isAbsolute = true) {text : String}
    (h : ofYaml directory text = .ok s) : s.Ready := by
  unfold ofYaml at h
  split at h
  · cases h
  · next r hr =>
    obtain ⟨⟨⟩, hvalid, h⟩ := bind_eq_ok_iff.mp h
    obtain rfl := pure_eq_ok_iff.mp h
    obtain ⟨n, -, hn⟩ := Option.bind_eq_some_iff.mp hr
    exact ⟨⟨directory, hd, ofNode?_root hn⟩, hvalid⟩

theorem Ready.located_base (hs : s.Ready) : s.base.Located := by
  obtain ⟨directory, hd, hroot⟩ := hs.rooted
  have hlocated : s.root.Located := by
    rw [hroot]
    exact Path.located_normalize hd
  unfold base
  cases s.baseDir with
  | none => exact hlocated
  | some dir => exact Path.located_absolutize hlocated.isAbsolute dir

theorem validate_eq_ok (h : s.validate = .ok ()) :
    s.resolvedOutputs.backend.same s.resolvedOutputs.bridge = false ∧
      s.resolvedOutputs.backend.same s.resolvedOutputs.types = false ∧
      s.resolvedOutputs.bridge.same s.resolvedOutputs.types = false := by
  unfold validate at h
  by_cases hnamespace : Text.isCamelCase s.defaultNamespace = true
  · by_cases hannotation : Text.isIdentifier s.annotation = true
    · simp only [hnamespace, hannotation, Bool.not_true, Bool.false_eq_true, ↓reduceIte] at h
      split_ifs at h with hsame
      · cases h
      · simpa [and_assoc] using hsame
    · simp only [hnamespace, Bool.eq_false_iff.mpr hannotation] at h
      cases h
  · simp only [Bool.eq_false_iff.mpr hnamespace] at h
    cases h

theorem quote_notMem_runtime (h : s.validate = .ok ()) :
    '\'' ∉ s.runtime.backend.toList ∧ '\'' ∉ s.runtime.bridge.toList := by
  have hcheck : ∀ {specifier : String} {failure : Failure},
      (if (Text.trim specifier.toList).isEmpty || specifier.toList.contains '\'' then
        Except.error failure else .ok ()) = .ok () → '\'' ∉ specifier.toList := by
    intro specifier failure hok
    split_ifs at hok with hbad
    simp only [Bool.or_eq_true, List.contains_iff_mem, not_or] at hbad
    exact hbad.2
  unfold validate at h
  dsimp only at h
  split_ifs at h
  -- A check in front that is not passed ends the whole.
  any_goals cases h
  obtain ⟨⟨⟩, hbackend, h⟩ := bind_eq_ok_iff.mp h
  obtain ⟨⟨⟩, hbridge, -⟩ := bind_eq_ok_iff.mp h
  exact ⟨hcheck hbackend, hcheck hbridge⟩

theorem exists_globs (h : s.validate = .ok ()) :
    ∃ includes excludes, s.includeSet = .ok includes ∧ s.excludeSet = .ok excludes := by
  unfold validate at h
  dsimp only at h
  split_ifs at h
  any_goals cases h
  obtain ⟨⟨⟩, -, h⟩ := bind_eq_ok_iff.mp h
  obtain ⟨⟨⟩, -, h⟩ := bind_eq_ok_iff.mp h
  obtain ⟨includes, hincludes, h⟩ := bind_eq_ok_iff.mp h
  obtain ⟨excludes, hexcludes, -⟩ := bind_eq_ok_iff.mp h
  exact ⟨includes, excludes, hincludes, hexcludes⟩

theorem ready_ofRoot {directory : Path} (hd : directory.isAbsolute = true) :
    (ofRoot directory).Ready := by
  have hroot : directory.normalize.Located := Path.located_normalize hd
  have hbelow : ∀ (p : Path) (l : Location), p.isAbsolute = false →
      (Text.splitAt '/' p.text.toList).filterMap (Path.component? false) = l.map .normal →
      Path.absolutize directory.normalize p = .ofLocation (directory.normalize.location ++ l) :=
    fun p l hp hl => hroot.absolutize_eq hp hl
  have hapart : ∀ l m : Location, (∀ n ∈ l, isFileName n = true) →
      (∀ n ∈ m, isFileName n = true) → l ≠ m →
      (Path.ofLocation (directory.normalize.location ++ l)).same
        (.ofLocation (directory.normalize.location ++ m)) = false := by
    intro l m hl hm hne
    rw [Bool.eq_false_iff, ne_eq, Path.same_ofLocation_iff]
    · exact fun h => hne (List.append_cancel_left h)
    · exact fun n hn => (List.mem_append.mp hn).elim (hroot.named n) (hl n)
    · exact fun n hn => (List.mem_append.mp hn).elim (hroot.named n) (hm n)
  have houtputs : (ofRoot directory).resolvedOutputs =
      ⟨.ofLocation (directory.normalize.location ++ ["src", "main", "bridge.generated.ts"]),
        .ofLocation (directory.normalize.location ++ ["src", "preload", "bridge.generated.ts"]),
        .ofLocation (directory.normalize.location ++ ["src", "renderer", "bridge.generated.d.ts"])⟩ := by
    dsimp only [resolvedOutputs, base, ofRoot]
    rw [hbelow ⟨"src/main/bridge.generated.ts"⟩ ["src", "main", "bridge.generated.ts"]
        (by decide +kernel) (by decide +kernel),
      hbelow ⟨"src/preload/bridge.generated.ts"⟩ ["src", "preload", "bridge.generated.ts"]
        (by decide +kernel) (by decide +kernel),
      hbelow ⟨"src/renderer/bridge.generated.d.ts"⟩ ["src", "renderer", "bridge.generated.d.ts"]
        (by decide +kernel) (by decide +kernel)]
  constructor
  · exact ⟨directory, hd, rfl⟩
  -- What is checked of the defaults does not depend on the directory, but for the outputs.
  have hother : (ofRoot ⟨"/"⟩).validate = .ok () := by decide +kernel
  obtain ⟨hb, ht, hbt⟩ := validate_eq_ok hother
  unfold validate at hother ⊢
  simp only [hb, ht, hbt] at hother
  simp only [houtputs]
  rw [hapart _ _ (by decide +kernel) (by decide +kernel) (by decide),
    hapart _ _ (by decide +kernel) (by decide +kernel) (by decide),
    hapart _ _ (by decide +kernel) (by decide +kernel) (by decide)]
  exact hother

/-- Every command that is given in an absolute directory runs with usable settings. -/
theorem ready_of_settingsOf {d : Disk} {here : Path} (hhere : here.isAbsolute = true)
    {asked : Option Path} {label : String}
    (h : Command.settingsOf d here (Command.settingsPath? d here asked) = .ok (s, label)) :
    s.Ready := by
  cases hpath : Command.settingsPath? d here asked with
  | none =>
    rw [hpath] at h
    obtain ⟨rfl, -⟩ := Prod.mk.inj (Except.ok.inj h)
    exact ready_ofRoot hhere
  | some p =>
    have habsolute : p.isAbsolute = true := by
      unfold Command.settingsPath? at hpath
      cases asked with
      | some q =>
        obtain rfl := Option.some.inj hpath
        exact (Path.located_absolutize hhere q).isAbsolute
      | none =>
        dsimp only at hpath
        split_ifs at hpath
        obtain rfl := Option.some.inj hpath
        have hname : Path.isAbsolute ⟨fileName⟩ = false := by decide +kernel
        rw [Path.isAbsolute_join (Path.text_ne_of_isAbsolute hhere) hname]
        exact hhere
    have hparent : (p.parent?.getD ⟨"/"⟩).isAbsolute = true := by
      cases hq : p.parent? with
      | none => rfl
      | some q => exact Path.isAbsolute_parent? habsolute hq
    rw [hpath] at h
    have hload : Command.loadSettings d p = .ok s := by
      unfold Command.settingsOf at h
      dsimp only at h
      cases hl : Command.loadSettings d p with
      | error failure =>
        rw [hl] at h
        cases h
      | ok r =>
        rw [hl] at h
        cases h
        rfl
    unfold Command.loadSettings at hload
    split at hload
    · cases hload
    · split at hload
      · cases hload
      · exact ready_of_ofYaml hparent hload

end Settings

end CallBridge
