import CallBridge.Generated.Bridge
import CallBridge.Generated.Types
import CallBridge.Proofs.Basic
import CallBridge.Proofs.Extraction.Exports
import Mathlib.Data.List.Flatten

/-! # Parameters of a record

The parameters of a record are those that a call passes a value for, in order. One that is declared
by a name keeps it, and one that takes its value apart is named by its index. The names are
different unless a declared one looks like that of an index, and the order of marks is the declared
one unless a parameter with a default value stands in front of one that has to be given.
-/
namespace CallBridge

open Syntax (Tree)

namespace Signature

/-- A call passes a value for the parameter: it is not the object that a method is called on. -/
def isPassed (p : Tree) : Bool :=
  p.is .identifier || (p.child? .pattern).any fun pattern => !pattern.is .this

def passed (function : Tree) : List Tree :=
  (parameterNodes function).filter isPassed

/-- The name that a pattern gives the whole of a value, if it does not take it apart. -/
def wholeName? (f : SourceFile) (pattern : Tree) : Option String :=
  if pattern.is .identifier then some (f.text pattern)
  else if pattern.is .restPattern then
    (pattern.firstNode?.filter (·.is .identifier)).map f.text
  else none

def declaredName? (f : SourceFile) (p : Tree) : Option String :=
  if p.is .identifier then some (f.text p) else (p.child? .pattern).bind (wholeName? f)

def numberedName (index : Nat) : String :=
  "arg" ++ toString index

def declaredType (f : SourceFile) (p : Tree) : String :=
  if p.is .identifier then unknownType else ((typeOf? p .type).map f.text).getD unknownType

def isMarked (p : Tree) : Bool :=
  p.is .optionalParameter

def hasDefault (p : Tree) : Bool :=
  !p.is .identifier && (p.child? .value).isSome

def isOmittable (p : Tree) : Bool :=
  isMarked p || hasDefault p

def isRest (p : Tree) : Bool :=
  !p.is .identifier && (p.child? .pattern).any (·.is .restPattern)

def parameterAt (f : SourceFile) (index : Nat) (p : Tree) : Parameter where
  name := (declaredName? f p).getD (numberedName index)
  type := declaredType f p
  optional := isOmittable p
  rest := isRest p

theorem nameOf_eq (f : SourceFile) (pattern : Tree) (index : Nat) :
    nameOf f pattern index = (wholeName? f pattern).getD (numberedName index) := by
  unfold nameOf wholeName? numberedName
  split_ifs with hname hrest
  · rfl
  · cases pattern.firstNode? with
    | none => rfl
    | some inner => by_cases hinner : inner.is .identifier = true <;> simp [Option.filter, hinner]
  · rfl

theorem parameter?_eq (f : SourceFile) (index : Nat) (p : Tree) :
    parameter? f index p = if isPassed p then some (parameterAt f index p) else none := by
  unfold parameter? isPassed parameterAt declaredName? declaredType isOmittable hasDefault isRest
  by_cases hbare : p.is .identifier = true
  · have hmarked : isMarked p = false := by simp [isMarked, Syntax.Tree.is_of_is hbare]
    simp [hbare, hmarked]
  · cases hpattern : p.child? .pattern with
    | none => simp [hbare]
    | some pattern =>
      by_cases hthis : pattern.is .this = true
      · simp [hbare, hthis]
      · simp [hbare, hthis, nameOf_eq, isMarked]

/-- The parameters of a record, one for each parameter that is passed. -/
theorem parameters_eq (f : SourceFile) (function : Tree) :
    parameters f function = (passed function).mapIdx (parameterAt f) := by
  -- An index counts the parameters done before, so the induction is for any of them.
  have hgen : ∀ (ps : List Tree) (done : List Parameter),
      ps.foldl (fun done p => done ++ (parameter? f done.length p).toList) done =
        done ++ (ps.filter isPassed).mapIdx fun i => parameterAt f (i + done.length) := by
    intro ps
    induction ps with
    | nil => simp
    | cons p ps ih =>
      intro done
      rw [List.foldl_cons, ih, parameter?_eq]
      split_ifs with hpassed
      · simp [hpassed, Nat.add_assoc, Nat.add_comm 1]
      · simp [hpassed]
  simpa [parameters, passed] using hgen (parameterNodes function) []

/-- The identifiers that a parameter list binds, inside patterns as well. -/
def boundNames (f : SourceFile) (function : Tree) : List String :=
  (parameterNodes function).flatMap fun p =>
    (if p.is .identifier then [p] else (p.child? .pattern).toList.flatMap patternNames).map f.text

/-- The names that a parameter list gives to whole values. -/
def declaredNames (f : SourceFile) (function : Tree) : List String :=
  (passed function).filterMap (declaredName? f)

theorem names_eq (f : SourceFile) (function : Tree) :
    (parameters f function).map Parameter.name =
      ((passed function).map (declaredName? f)).mapIdx fun i name =>
        name.getD (numberedName i) := by
  refine List.ext_getElem? fun i => ?_
  simp [parameters_eq, parameterAt, Function.comp_def]

theorem numberedName_injective : Function.Injective numberedName := by
  intro i j h
  have hl := congrArg String.toList h
  simp only [numberedName, String.toList_append, List.append_cancel_left_eq] at hl
  exact Text.toString_injective (String.toList_inj.mp hl)

theorem patternNames_sublist {t : Tree} {ts : List Tree} (h : t ∈ ts) :
    (patternNames t).Sublist (patternNamesAll ts) := by
  rw [patternNamesAll_eq_flatMap]
  exact sublist_flatMap_of_mem h

theorem wholeName?_sublist (f : SourceFile) (pattern : Tree) :
    (wholeName? f pattern).toList.Sublist ((patternNames pattern).map f.text) := by
  unfold wholeName?
  split_ifs with hname hrest
  · rw [patternNames_of_identifier hname]
    exact List.Sublist.refl _
  · cases hfirst : pattern.firstNode?.filter (·.is .identifier) with
    | none => exact List.nil_sublist _
    | some inner =>
      obtain ⟨hinner, hname⟩ := Option.filter_eq_some_iff.mp hfirst
      have hpart : inner ∈ pattern.children :=
        List.mem_of_mem_filter (List.mem_of_mem_head? hinner)
      have hnames : patternNames pattern = patternNamesAll pattern.children := by
        cases pattern with
        | node kind role span parts =>
          obtain rfl : kind = .restPattern := by simpa [Tree.is, Tree.kind?] using hrest
          rfl
        | token => cases hrest
        | missing => cases hrest
      have hsub := patternNames_sublist hpart
      rw [patternNames_of_identifier hname, ← hnames] at hsub
      exact hsub.map f.text
  · exact List.nil_sublist _

theorem declaredNames_sublist (f : SourceFile) (function : Tree) :
    (declaredNames f function).Sublist (boundNames f function) := by
  have hone : ∀ p : Tree, (declaredName? f p).toList.Sublist
      ((if p.is .identifier then [p] else (p.child? .pattern).toList.flatMap patternNames).map
        f.text) := by
    intro p
    unfold declaredName?
    split_ifs with hbare
    · exact List.Sublist.refl _
    · cases p.child? .pattern with
      | none => exact List.nil_sublist _
      | some pattern => simpa using wholeName?_sublist f pattern
  have hall : ((parameterNodes function).filterMap (declaredName? f)).Sublist
      (boundNames f function) := by
    rw [List.filterMap_eq_flatMap_toList]
    exact List.Sublist.flatMap_right _ fun p _ => hone p
  exact (List.filter_sublist.filterMap _).trans hall

theorem mem_names_iff {f : SourceFile} {function : Tree} {name : String} :
    name ∈ (parameters f function).map Parameter.name ↔
      name ∈ declaredNames f function ∨
        ∃ i p, (passed function)[i]? = some p ∧ declaredName? f p = none ∧ numberedName i = name := by
  have hat : ∀ i, ((parameters f function).map Parameter.name)[i]? =
      (passed function)[i]?.map fun p => (declaredName? f p).getD (numberedName i) := by
    intro i
    simp [names_eq, Function.comp_def]
  rw [List.mem_iff_getElem?]
  simp only [hat, Option.map_eq_some_iff]
  constructor
  · rintro ⟨i, p, hp, hname⟩
    cases hdeclared : declaredName? f p with
    | none =>
      rw [hdeclared] at hname
      exact .inr ⟨i, p, hp, hdeclared, hname⟩
    | some declared =>
      rw [hdeclared] at hname
      obtain rfl : declared = name := hname
      exact .inl (List.mem_filterMap.mpr ⟨p, List.mem_of_getElem? hp, hdeclared⟩)
  · rintro (hname | ⟨i, p, hp, hnone, rfl⟩)
    · obtain ⟨p, hp, hdeclared⟩ := List.mem_filterMap.mp hname
      obtain ⟨i, hi⟩ := List.mem_iff_getElem?.mp hp
      exact ⟨i, p, hi, by rw [hdeclared]; rfl⟩
    · exact ⟨i, p, hp, by rw [hnone]; rfl⟩

/-- A name that does not begin like a made up one is in a record if and only if it is declared. -/
theorem mem_names_iff_of_head {f : SourceFile} {function : Tree} {name : String}
    (h : name.toList.head? ≠ some 'a') :
    name ∈ (parameters f function).map Parameter.name ↔ name ∈ declaredNames f function := by
  rw [mem_names_iff, or_iff_left_iff_imp]
  rintro ⟨i, p, -, -, rfl⟩
  exact absurd (by simp [numberedName, String.toList_append]) h

/-- No whole value has the name that the index of one taken apart stands for. -/
def NumbersFree (f : SourceFile) (function : Tree) : Prop :=
  ∀ e ∈ (passed function).zipIdx, declaredName? f e.1 = none →
    numberedName e.2 ∉ declaredNames f function

instance (f : SourceFile) (function : Tree) : Decidable (NumbersFree f function) :=
  inferInstanceAs (Decidable (∀ e ∈ (passed function).zipIdx, _ → _))

theorem names_nodup_iff_of_declared {f : SourceFile} {function : Tree}
    (h : (declaredNames f function).Nodup) :
    ((parameters f function).map Parameter.name).Nodup ↔ NumbersFree f function := by
  have hdeclared : ((passed function).map (declaredName? f)).filterMap id =
      declaredNames f function := by
    rw [List.filterMap_map]
    rfl
  have hmem : ∀ name, some name ∈ (passed function).map (declaredName? f) ↔
      name ∈ declaredNames f function := by
    intro name
    simp [declaredNames]
  rw [names_eq, nodup_mapIdx_getD_iff numberedName_injective (hdeclared.symm ▸ h)]
  simp only [hmem, List.getElem?_map, Option.map_eq_some_iff, NumbersFree, Prod.forall,
    List.mem_zipIdx_iff_getElem?]
  constructor
  · intro hfree p i hp hnone
    exact hfree i ⟨p, hp, hnone⟩
  · rintro hfree i ⟨p, hp, hnone⟩
    exact hfree p i hp hnone

/-- The order of a parameter list that may be written: a rest parameter is the last one, and behind
one that is marked there are only such as may be left out, and the rest. -/
structure LegalOrder {α : Type} (marked omittable rest : α → Bool) (ps : List α) : Prop where
  rest_last : ps.Pairwise fun p _ => rest p = false
  marked_last : ps.Pairwise fun p q => marked p = true → omittable q = true ∨ rest q = true

instance {α : Type} (marked omittable rest : α → Bool) (ps : List α) :
    Decidable (LegalOrder marked omittable rest ps) :=
  decidable_of_iff
    ((ps.Pairwise fun p _ => rest p = false) ∧
      ps.Pairwise fun p q => marked p = true → omittable q = true ∨ rest q = true)
    ⟨fun h => ⟨h.1, h.2⟩, fun h => ⟨h.rest_last, h.marked_last⟩⟩

/-- Behind a parameter that a default value makes optional there are only such as may be left out,
and the rest. -/
def DefaultsLast (function : Tree) : Prop :=
  (passed function).Pairwise fun p q => hasDefault p = true → isOmittable q = true ∨ isRest q = true

instance (function : Tree) : Decidable (DefaultsLast function) :=
  inferInstanceAs (Decidable ((passed function).Pairwise _))

theorem legalOrder_map {α β : Type} {marked omittable rest : β → Bool} {g : α → β} {ps : List α} :
    LegalOrder marked omittable rest (ps.map g) ↔
      LegalOrder (marked ∘ g) (omittable ∘ g) (rest ∘ g) ps := by
  constructor
  · rintro ⟨hrest, hmarked⟩
    exact ⟨List.pairwise_map.mp hrest, List.pairwise_map.mp hmarked⟩
  · rintro ⟨hrest, hmarked⟩
    exact ⟨List.pairwise_map.mpr hrest, List.pairwise_map.mpr hmarked⟩

theorem LegalOrder.sublist {α : Type} {marked omittable rest : α → Bool} {ps qs : List α}
    (h : LegalOrder marked omittable rest qs) (hsub : ps.Sublist qs) :
    LegalOrder marked omittable rest ps :=
  ⟨h.rest_last.sublist hsub, h.marked_last.sublist hsub⟩

theorem parameters_map_marks (f : SourceFile) (function : Tree) :
    (parameters f function).map (fun p => (p.optional, p.rest)) =
      (passed function).map fun p => (isOmittable p, isRest p) := by
  refine List.ext_getElem? fun i => ?_
  simp [parameters_eq, parameterAt, Function.comp_def]

/-- Parameters with the marks of a record are in order if and only if those passed are. -/
theorem legalOrder_of_marks {α : Type} {optional rest : α → Bool} {ps : List α} {f : SourceFile}
    {function : Tree} (h : ps.map (fun p => (optional p, rest p)) =
      (parameters f function).map fun p => (p.optional, p.rest)) :
    LegalOrder optional optional rest ps ↔
      LegalOrder isOmittable isOmittable isRest (passed function) := by
  have hps : LegalOrder optional optional rest ps ↔
      LegalOrder Prod.fst Prod.fst Prod.snd (ps.map fun p => (optional p, rest p)) := by
    rw [legalOrder_map]
    rfl
  rw [hps, h, parameters_map_marks, legalOrder_map]
  rfl

theorem legalOrder_passed_iff {function : Tree}
    (h : LegalOrder isMarked isOmittable isRest (parameterNodes function)) :
    LegalOrder isOmittable isOmittable isRest (passed function) ↔ DefaultsLast function := by
  have hpassed : LegalOrder isMarked isOmittable isRest (passed function) :=
    h.sublist List.filter_sublist
  constructor
  · intro horder
    refine horder.marked_last.imp fun hafter hdefault => hafter ?_
    rw [isOmittable, hdefault, Bool.or_true]
  · intro hdefaults
    refine ⟨hpassed.rest_last, (hpassed.marked_last.and hdefaults).imp ?_⟩
    rintro p q ⟨hmarked, hdefault⟩ hp
    rcases Bool.or_eq_true_iff.mp hp with hp | hp
    · exact hmarked hp
    · exact hdefault hp

/-- A file with a function that takes its first value apart, in front of named parameters that have
a default value or take the rest. -/
def plottingFile : SourceFile :=
  let source : Syntax.Source := ⟨("export function plot(this: P, [x, y]: T, arg2: T, limit = 1, " ++
    "...rest: T) \x7b\x7d\n").toUTF8⟩
  ⟨⟨"/app/src/a.ts"⟩, source, Syntax.Dialect.plain.parse source⟩

theorem plottingFile_parameters :
    ∃ g ∈ Candidate.ofFile plottingFile (Scope.ofFile plottingFile), ∃ c ∈ g.candidates,
      boundNames plottingFile c.function = ["x", "y", "arg2", "limit", "rest"] ∧
      (parameters plottingFile c.function).map (fun p => (p.name, p.optional, p.rest)) =
        [("arg0", false, false), ("arg2", false, false), ("limit", true, false),
          ("rest", false, true)] ∧
      NumbersFree plottingFile c.function ∧
      LegalOrder isMarked isOmittable isRest (parameterNodes c.function) ∧
      DefaultsLast c.function := by
  decide +kernel

/-- The parameters of a record have different names exactly if no name that is declared is the one
that the index of a parameter taken apart stands for, and so have those of the forwarder and of the
signature that are written from it. -/
theorem names_nodup_iff {f : SourceFile} {function : Tree} (h : (boundNames f function).Nodup) :
    (((parameters f function).map Parameter.name).Nodup ↔ NumbersFree f function) ∧
    ∀ m : Method, m.parameters = parameters f function →
      (((Generated.Forwarder.ofMethod m).parameters.map Generated.ForwardedParameter.name).Nodup ↔
        NumbersFree f function) ∧
      (((Generated.Signature.ofMethod m).parameters.map Parameter.name).Nodup ↔
        NumbersFree f function) := by
  have hrecord := names_nodup_iff_of_declared (h.sublist (declaredNames_sublist f function))
  refine ⟨hrecord, fun m hm => ⟨?_, ?_⟩⟩
  · have hforwarder : (Generated.Forwarder.ofMethod m).parameters.map
        Generated.ForwardedParameter.name = (parameters f function).map Parameter.name := by
      simp [Generated.Forwarder.ofMethod, hm, Function.comp_def]
    rw [hforwarder]
    exact hrecord
  · have hsignature : (Generated.Signature.ofMethod m).parameters = parameters f function := hm
    rw [hsignature]
    exact hrecord

theorem plotting_names_nodup :
    ∃ g ∈ Candidate.ofFile plottingFile (Scope.ofFile plottingFile), ∃ c ∈ g.candidates,
      boundNames plottingFile c.function = ["x", "y", "arg2", "limit", "rest"] ∧
      ((parameters plottingFile c.function).map Parameter.name).Nodup := by
  obtain ⟨g, hg, c, hc, hbound, -, hfree, -⟩ := plottingFile_parameters
  have hnodup : (boundNames plottingFile c.function).Nodup := by
    rw [hbound]
    decide
  exact ⟨g, hg, c, hc, hbound, (names_nodup_iff hnodup).1.mpr hfree⟩

/-- A file with a function that has a parameter named like the number of the next one. -/
def numberedFile : SourceFile :=
  let source : Syntax.Source := ⟨("// @expose\nexport function move(arg1: T, \x7b x, y \x7d: T) " ++
    "\x7b\x7d\n").toUTF8⟩
  ⟨⟨"/app/src/a.ts"⟩, source, Syntax.Dialect.plain.parse source⟩

theorem numbered_name_bound_twice :
    numberedFile.faultLine? = none ∧
    ∃ g ∈ Candidate.ofFile numberedFile (Scope.ofFile numberedFile), ∃ c ∈ g.candidates,
      boundNames numberedFile c.function = ["arg1", "x", "y"] ∧
      (parameters numberedFile c.function).map Parameter.name = ["arg1", "arg1"] ∧
      ∀ m : Method, m.parameters = parameters numberedFile c.function →
        (Generated.Forwarder.ofMethod m).parameters.map Generated.ForwardedParameter.name =
          ["arg1", "arg1"] := by
  have hfault : numberedFile.faultLine? = none := by decide +kernel
  have hfile : ∃ g ∈ Candidate.ofFile numberedFile (Scope.ofFile numberedFile), ∃ c ∈ g.candidates,
      boundNames numberedFile c.function = ["arg1", "x", "y"] ∧
      parameters numberedFile c.function =
        [⟨"arg1", "T", false, false⟩, ⟨"arg1", "T", false, false⟩] := by
    decide +kernel
  obtain ⟨g, hg, c, hc, hbound, hparameters⟩ := hfile
  refine ⟨hfault, g, hg, c, hc, hbound, by rw [hparameters]; rfl, fun m hm => ?_⟩
  rw [Generated.Forwarder.ofMethod, hm, hparameters]
  rfl

/-- The record of a function with a legal parameter list has a rest parameter in the last place
only. Its order is legal exactly if no parameter with a default value stands in front of one that
has to be given, and so is that of the forwarder and of the signature that are written from it. -/
theorem order_legal_iff {f : SourceFile} {function : Tree}
    (h : LegalOrder isMarked isOmittable isRest (parameterNodes function)) :
    ((parameters f function).Pairwise fun p _ => p.rest = false) ∧
    (LegalOrder Parameter.optional Parameter.optional Parameter.rest (parameters f function) ↔
      DefaultsLast function) ∧
    ∀ m : Method, m.parameters = parameters f function →
      (LegalOrder Generated.ForwardedParameter.optional Generated.ForwardedParameter.optional
          Generated.ForwardedParameter.rest (Generated.Forwarder.ofMethod m).parameters ↔
        DefaultsLast function) ∧
      (LegalOrder Parameter.optional Parameter.optional Parameter.rest
          (Generated.Signature.ofMethod m).parameters ↔ DefaultsLast function) := by
  have hrest : ((parameters f function).map fun p => (p.optional, p.rest)).Pairwise
      fun p _ => p.2 = false := by
    rw [parameters_map_marks, List.pairwise_map]
    exact h.rest_last.sublist List.filter_sublist
  have hdefaults := legalOrder_passed_iff h
  refine ⟨List.pairwise_map.mp hrest, (legalOrder_of_marks rfl).trans hdefaults, fun m hm => ⟨?_, ?_⟩⟩
  · refine (legalOrder_of_marks (f := f) ?_).trans hdefaults
    simp [Generated.Forwarder.ofMethod, hm, Function.comp_def]
  · refine (legalOrder_of_marks (f := f) ?_).trans hdefaults
    simp [Generated.Signature.ofMethod, hm]

theorem plotting_order_legal :
    ∃ g ∈ Candidate.ofFile plottingFile (Scope.ofFile plottingFile), ∃ c ∈ g.candidates,
      LegalOrder isMarked isOmittable isRest (parameterNodes c.function) ∧
      LegalOrder Parameter.optional Parameter.optional Parameter.rest
        (parameters plottingFile c.function) := by
  obtain ⟨g, hg, c, hc, -, -, -, horder, hdefaults⟩ := plottingFile_parameters
  exact ⟨g, hg, c, hc, horder, (order_legal_iff horder).2.1.mpr hdefaults⟩

/-- A file with a function that has a default value in front of a parameter to be given. -/
def leadingDefaultFile : SourceFile :=
  let source : Syntax.Source := ⟨("// @expose\nexport function list(limit = 9, filter: T) " ++
    "\x7b\x7d\n").toUTF8⟩
  ⟨⟨"/app/src/a.ts"⟩, source, Syntax.Dialect.plain.parse source⟩

theorem leading_default_order_illegal :
    leadingDefaultFile.faultLine? = none ∧
    ∃ g ∈ Candidate.ofFile leadingDefaultFile (Scope.ofFile leadingDefaultFile),
      ∃ c ∈ g.candidates, LegalOrder isMarked isOmittable isRest (parameterNodes c.function) ∧
      ¬ LegalOrder Parameter.optional Parameter.optional Parameter.rest
        (parameters leadingDefaultFile c.function) ∧
      ∀ m : Method, m.parameters = parameters leadingDefaultFile c.function →
        (Generated.Forwarder.ofMethod m).parameters.map Generated.ForwardedParameter.text =
            ["limit?: unknown", "filter: unknown"] ∧
          (Generated.Signature.ofMethod m).parameters.map Generated.signatureParameter =
            ["limit?: any", "filter: T"] := by
  have hfault : leadingDefaultFile.faultLine? = none := by decide +kernel
  have hfile : ∃ g ∈ Candidate.ofFile leadingDefaultFile (Scope.ofFile leadingDefaultFile),
      ∃ c ∈ g.candidates, LegalOrder isMarked isOmittable isRest (parameterNodes c.function) ∧
      parameters leadingDefaultFile c.function =
        [⟨"limit", "any", true, false⟩, ⟨"filter", "T", false, false⟩] := by
    decide +kernel
  obtain ⟨g, hg, c, hc, horder, hparameters⟩ := hfile
  refine ⟨hfault, g, hg, c, hc, horder, ?_, fun m hm => ?_⟩
  · rw [hparameters]
    decide
  · rw [Generated.Forwarder.ofMethod, Generated.Signature.ofMethod, hm, hparameters]
    exact ⟨rfl, rfl⟩

end Signature

end CallBridge
