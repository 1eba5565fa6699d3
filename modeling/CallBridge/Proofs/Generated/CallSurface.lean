import CallBridge.Proofs.Basic
import CallBridge.Proofs.Generated.Lines
import CallBridge.Proofs.Surface.Groups
import CallBridge.Proofs.Text.StringLiteral
import Mathlib.Data.List.Forall2
import Mathlib.Data.List.Nodup

/-! # One call surface in three files

A call is what a statement of the backend module, a member of the bridge module and a member of the
type declarations have in common. The main statement is that the three texts of a surface are
written from one list of calls: the methods of the surface in order, each once.
-/
namespace CallBridge.Generated

structure Call where
  namespaceName : String
  name : String
  stream : Bool
  parameters : List ForwardedParameter
  deriving DecidableEq, Repr, Inhabited

namespace Call

def ofMethod (m : Method) : Call :=
  ⟨m.namespaceName, m.name, m.shape.isStream, m.parameters.map fun p => ⟨p.name, p.optional, p.rest⟩⟩

def place (c : Call) : String × String :=
  (c.namespaceName, c.name)

def key (c : Call) : String :=
  c.namespaceName ++ ":" ++ c.name

/-- The line is a statement that registers some handler for the channel of the call. -/
def Registers (c : Call) (line : String) : Prop :=
  ∃ handler, line = (if c.stream then "registerStream(" else "register(") ++ Text.literal c.key ++
    ", " ++ handler ++ ");"

def typed (p : ForwardedParameter) (type : String) : String :=
  (if p.rest then "..." ++ p.name else if p.optional then p.name ++ "?" else p.name) ++ ": " ++ type

/-- The line is a member, of the object for the namespace `object`, that forwards the call. -/
def Forwards (c : Call) (object line : String) : Prop :=
  object = c.namespaceName ∧
    line = c.name ++ ": (" ++
      ", ".intercalate (c.parameters.map fun p => typed p (if p.rest then "unknown[]" else "unknown")) ++
      ") => " ++ (if c.stream then "iterate(" else "invoke(") ++
      ", ".intercalate (Text.literal c.key ::
        c.parameters.map fun p => if p.rest then "..." ++ p.name else p.name) ++ ")"

/-- The line is a member of an interface that declares the call, for some types of its parameters
and its result. The name of the interface is that of the namespace with its first letter
capitalized. -/
def Declares (c : Call) (interface line : String) : Prop :=
  Text.lowerFirst interface = c.namespaceName ∧
    ∃ types result, types.length = c.parameters.length ∧
      line = c.name ++ "(" ++ ", ".intercalate (List.zipWith typed c.parameters types) ++ "): " ++
        (if c.stream then "AsyncGenerator<" ++ result ++ ", void, unknown>"
          else "Promise<" ++ result ++ ">")

end Call

def calls (s : Surface) : List Call :=
  s.methods.map Call.ofMethod

/-- Lines that stand in named blocks, each with the name of its block. -/
def entries (blocks : List (String × List String)) : List (String × String) :=
  blocks.flatMap fun b => b.2.map (b.1, ·)

/-- The members of the exposed objects in order, each with the namespace of its object. -/
def Bridge.members (b : Bridge) : List (String × String) :=
  b.blocks.flatMap fun o => o.forwarders.map fun f => (o.name, f.text)

/-- Three texts are written from the same calls. The backend has a registration for each of them, in
order, and no others. The bridge has one object for each namespace and the types one interface, and
the members of these, read through in order, forward and declare the calls. -/
structure WrittenFrom (cs : List Call) (t : Texts) : Prop where
  registers : ∃ lines, List.Forall₂ Call.Registers cs lines ∧ StandsIn lines "register" t.backend
  forwards : ∃ objects : List (String × List String),
    (objects.map Prod.fst).Nodup ∧ (∀ o ∈ objects, o.2 ≠ []) ∧
    List.Forall₂ (fun c e => c.Forwards e.1 e.2) cs (entries objects) ∧
    Bridge.Shows objects t.bridge
  declares : ∃ interfaces : List (String × List String),
    (interfaces.map Prod.fst).Nodup ∧ (∀ i ∈ interfaces, i.2 ≠ []) ∧
    List.Forall₂ (fun c e => c.Declares e.1 e.2) cs (entries interfaces) ∧
    Types.Shows interfaces t.types

theorem Call.registers_text (m : Method) (h : Handler) :
    (ofMethod m).Registers (Registration.text ⟨m.shape.isStream, m.key, h⟩) := by
  refine ⟨h.text, ?_⟩
  cases hs : m.shape.isStream <;>
    simp [ofMethod, hs, Registration.text, registerName, registerStreamName, key, Method.key,
      String.append_assoc]

/-- A parameter is written in a signature as in a forwarder, but for its type. -/
theorem typed_eq_signatureParameter (p : Parameter) :
    Call.typed ⟨p.name, p.optional, p.rest⟩ p.type = signatureParameter p := by
  unfold Call.typed signatureParameter
  split_ifs <;> simp [String.append_assoc]

theorem typed_unknown (p : ForwardedParameter) :
    Call.typed p (if p.rest then "unknown[]" else "unknown") = p.text := by
  have hmany : ": " ++ "unknown[]" = ": unknown[]" := rfl
  have hone : ": " ++ "unknown" = ": unknown" := rfl
  have hoptional : "?" ++ ": unknown" = "?: unknown" := rfl
  unfold Call.typed ForwardedParameter.text
  split_ifs <;> simp only [String.append_assoc, hmany, hone, hoptional]

theorem Call.forwards_text (m : Method) :
    (ofMethod m).Forwards m.namespaceName (Forwarder.ofMethod m).text := by
  refine ⟨rfl, ?_⟩
  have hpassed : (fun p : ForwardedParameter => if p.rest then "..." ++ p.name else p.name) =
      ForwardedParameter.argument := rfl
  simp only [typed_unknown, hpassed]
  cases hs : m.shape.isStream <;>
    simp [ofMethod, hs, Forwarder.ofMethod, Forwarder.text, invokeName, iterateName, key,
      Method.key, String.append_assoc]

theorem zipWith_typed (ps : List Parameter) :
    List.zipWith Call.typed (ps.map fun p => ⟨p.name, p.optional, p.rest⟩) (ps.map Parameter.type) =
      ps.map signatureParameter := by
  induction ps with
  | nil => rfl
  | cons p ps ih => simp only [List.map_cons, List.zipWith_cons_cons, typed_eq_signatureParameter, ih]

theorem surfaceType_eq (r : ReturnShape) :
    surfaceType r = if r.isStream then "AsyncGenerator<" ++ r.inner ++ ", void, unknown>"
      else "Promise<" ++ r.inner ++ ">" := by
  cases r <;> rfl

theorem Call.declares_text {m : Method} (hm : Text.isCamelCase m.namespaceName = true) :
    (ofMethod m).Declares (Text.upperFirst m.namespaceName) (Signature.ofMethod m).text := by
  refine ⟨Text.lowerFirst_upperFirst hm, m.parameters.map Parameter.type, m.shape.inner, ?_, ?_⟩
  · simp [ofMethod]
  · simp only [ofMethod, zipWith_typed, Signature.text, Signature.ofMethod, surfaceType_eq]
    rfl

theorem texts_eq_ok_iff {s : Surface} {o : Outputs} {r : Runtime} {t : Texts} :
    texts s o r = .ok t ↔ ∃ backend bridge types,
      Backend.ofSurface s o.backend r.backend = .ok backend ∧
      Bridge.ofSurface s r.bridge = .ok bridge ∧ Types.ofSurface s o.types = .ok types ∧
      t = ⟨backend.text, bridge.text, types.text⟩ := by
  simp only [texts, bind_eq_ok_iff, pure_eq_ok_iff]
  constructor
  · rintro ⟨b, hb, br, hbr, ty, hty, rfl⟩
    exact ⟨b, br, ty, hb, hbr, hty, rfl⟩
  · rintro ⟨b, br, ty, hb, hbr, hty, rfl⟩
    exact ⟨b, hb, br, hbr, ty, hty, rfl⟩

/-- Lines that describe the methods of a surface one by one describe its calls. -/
theorem forall₂_calls {s : Surface} {β : Type} {describes : Call → β → Prop} {line : Method → β}
    (h : ∀ m ∈ s.methods, describes (.ofMethod m) (line m)) :
    List.Forall₂ describes (calls s) (s.methods.map line) := by
  rw [calls, List.forall₂_map_left_iff, List.forall₂_map_right_iff]
  exact List.forall₂_same.mpr h

theorem forall₂_registers {s : Surface} {output : Path} {runtime : String} {b : Backend}
    (h : Backend.ofSurface s output runtime = .ok b) :
    List.Forall₂ Call.Registers (calls s) (b.registrations.map Registration.text) := by
  simp only [Backend.ofSurface, bind_eq_ok_iff, pure_eq_ok_iff] at h
  obtain ⟨⟨names, imports⟩, -, rfl⟩ := h
  rw [List.map_map]
  exact forall₂_calls fun m _ => Call.registers_text m _

/-- A block for each group of a surface, with a line for each method of the group. -/
def groupBlocks (s : Surface) (name : String → String) (line : Method → String) :
    List (String × List String) :=
  s.groups.map fun g => (name g.name, g.methods.map line)

section Blocks
variable (s : Surface) (name : String → String) (line : Method → String)

theorem map_fst_groupBlocks : (groupBlocks s name line).map Prod.fst = s.namespaces.map name := by
  rw [groupBlocks, Surface.namespaces, List.map_map, List.map_map]
  rfl

theorem groupBlocks_ne_nil : ∀ b ∈ groupBlocks s name line, b.2 ≠ [] := by
  intro b hb
  obtain ⟨g, hg, rfl⟩ := List.mem_map.mp hb
  exact mt List.map_eq_nil_iff.mp (Surface.methods_ne_nil hg)

theorem entries_groupBlocks : entries (groupBlocks s name line) =
    s.methods.map fun m => (name m.namespaceName, line m) := by
  rw [← s.groups_flatMap_map fun space m => (name space, line m), entries, groupBlocks,
    List.flatMap_map]
  simp only [List.map_map, Function.comp_def]

end Blocks

theorem Bridge.objects_eq {s : Surface} {runtime : String} {b : Bridge}
    (h : Bridge.ofSurface s runtime = .ok b) :
    b.objects = groupBlocks s id fun m => (Forwarder.ofMethod m).text := by
  simp only [Bridge.ofSurface, bind_eq_ok_iff, pure_eq_ok_iff] at h
  obtain ⟨imports, -, rfl⟩ := h
  simp [Bridge.objects, groupBlocks, ExposeBlock.ofGroup, Function.comp_def]

theorem Types.declared_eq {s : Surface} {output : Path} {t : Types}
    (h : Types.ofSurface s output = .ok t) :
    t.declared = groupBlocks s Text.upperFirst fun m => (Signature.ofMethod m).text := by
  simp only [Types.ofSurface, bind_eq_ok_iff, pure_eq_ok_iff] at h
  obtain ⟨imports, -, rfl⟩ := h
  simp [Types.declared, groupBlocks, Interface.ofGroup, Group.interfaceName, Function.comp_def]

theorem entries_objects (b : Bridge) : entries b.objects = b.members := by
  simp [entries, Bridge.objects, Bridge.members, List.flatMap_map, Function.comp_def]

theorem map_fst_objects {s : Surface} {runtime : String} {b : Bridge}
    (h : Bridge.ofSurface s runtime = .ok b) : b.objects.map Prod.fst = s.namespaces := by
  rw [Bridge.objects_eq h, map_fst_groupBlocks, List.map_id]

theorem forall₂_forwards {s : Surface} {runtime : String} {b : Bridge}
    (h : Bridge.ofSurface s runtime = .ok b) :
    List.Forall₂ (fun c e => c.Forwards e.1 e.2) (calls s) (entries b.objects) := by
  rw [Bridge.objects_eq h, entries_groupBlocks]
  exact forall₂_calls fun m _ => Call.forwards_text m

theorem forall₂_declares {s : Surface} {output : Path} {t : Types}
    (hs : ∀ m ∈ s.methods, Text.isCamelCase m.namespaceName = true)
    (h : Types.ofSurface s output = .ok t) :
    List.Forall₂ (fun c e => c.Declares e.1 e.2) (calls s) (entries t.declared) := by
  rw [Types.declared_eq h, entries_groupBlocks]
  exact forall₂_calls fun m hm => Call.declares_text (hs m hm)

/-- Namespaces in camel case are told apart by the names of their interfaces. -/
theorem interfaceNames_nodup {s : Surface}
    (hs : ∀ m ∈ s.methods, Text.isCamelCase m.namespaceName = true) :
    (s.namespaces.map Text.upperFirst).Nodup := by
  refine List.Nodup.map_on (fun a ha b hb h => ?_) s.namespaces_nodup
  obtain ⟨m, hm, rfl⟩ := Surface.mem_namespaces_iff.mp ha
  obtain ⟨m', hm', rfl⟩ := Surface.mem_namespaces_iff.mp hb
  rw [← Text.lowerFirst_upperFirst (hs m hm), h, Text.lowerFirst_upperFirst (hs m' hm')]

theorem writtenFrom_of_texts {s : Surface} {o : Outputs} {r : Runtime} {t : Texts}
    (hs : ∀ m ∈ s.methods, Text.isCamelCase m.namespaceName = true) (ht : texts s o r = .ok t) :
    WrittenFrom (calls s) t := by
  obtain ⟨backend, bridge, types, hb, hbr, hty, rfl⟩ := texts_eq_ok_iff.mp ht
  refine ⟨⟨_, forall₂_registers hb, backend.standsIn_text.2.2⟩,
    ⟨bridge.objects, ?_, ?_, forall₂_forwards hbr, bridge.shows_text⟩,
    ⟨types.declared, ?_, ?_, forall₂_declares hs hty, types.shows_text⟩⟩
  · exact map_fst_objects hbr ▸ s.namespaces_nodup
  · exact Bridge.objects_eq hbr ▸ groupBlocks_ne_nil s _ _
  · rw [Types.declared_eq hty, map_fst_groupBlocks]
    exact interfaceNames_nodup hs
  · exact Types.declared_eq hty ▸ groupBlocks_ne_nil s _ _

/-- Keys of methods in camel case namespaces are written as different literals. -/
theorem literal_keys_nodup {s : Surface}
    (hs : ∀ m ∈ s.methods, Text.isCamelCase m.namespaceName = true) :
    ((calls s).map fun c => Text.literal c.key).Nodup := by
  rw [calls, List.map_map]
  refine (s.places_nodup.of_map).map_on ?_
  intro a ha b hb h
  have hp := Method.key_inj (hs a ha) (hs b hb) (Text.literal_injective h)
  exact List.inj_on_of_nodup_map s.places_nodup ha hb hp

/-- The three files describe one call surface. Whatever methods with camel case namespaces were
inserted one after the other, and wherever the files go, the three texts are written from the same
calls in the same order: one for each place that a method was inserted for, each under its own key.
A key is written as a literal of it, unless it ends a line. -/
theorem texts_describe_one_surface {ms : List Method} {o : Outputs} {r : Runtime} {t : Texts}
    (hms : ∀ m ∈ ms, Text.isCamelCase m.namespaceName = true)
    (ht : texts (Surface.empty.insertEach ms) o r = .ok t) :
    let s := Surface.empty.insertEach ms
    WrittenFrom (calls s) t ∧
      (calls s).map Call.place = s.methods.map Method.place ∧
      ((calls s).map Call.place).Nodup ∧
      (∀ p, p ∈ (calls s).map Call.place ↔ p ∈ ms.map Method.place) ∧
      ((calls s).map fun c => Text.literal c.key).Nodup ∧
      ∀ c ∈ calls s, (∀ x ∈ c.key.toList, Text.isLineEnd x = false) →
        Text.IsLiteralOf c.key (Text.literal c.key) := by
  intro s
  have hs : ∀ m ∈ s.methods, Text.isCamelCase m.namespaceName = true := by
    intro m hm
    rcases Surface.mem_insertEach hm with h | h
    · cases h
    · exact hms m h
  have hplaces : (calls s).map Call.place = s.methods.map Method.place := by
    simp only [calls, List.map_map]
    rfl
  refine ⟨writtenFrom_of_texts hs ht, hplaces, ?_, fun p => ?_, literal_keys_nodup hs,
    fun c _ => Text.isLiteralOf_literal⟩
  · rw [hplaces]
    exact s.places_nodup
  · rw [hplaces, Surface.mem_places_insertEach]
    simp [Surface.empty]

/-- Methods of two namespaces: a stream, a rest parameter, an optional one, and a second method for
a place that is taken. -/
def sampleMethods : List Method :=
  let file : Path := ⟨"/work/src/user.ts"⟩
  [⟨"userAPI", "watch", some "Users", [⟨"id", "string", true, false⟩], .asyncStream "User", file, 3,
      .named, []⟩,
    ⟨"api", "ping", none, [⟨"hosts", "string[]", false, true⟩], .value "number", file, 9, .default,
      []⟩,
    ⟨"userAPI", "get", some "Users", [⟨"id", "string", false, false⟩], .asyncValue "User", file, 5,
      .named, [⟨"User", .named "User", .file file⟩]⟩,
    ⟨"api", "ping", none, [], .asyncValue "void", ⟨"/work/src/b.ts"⟩, 1, .named, []⟩]

def sampleOutputs : Outputs :=
  ⟨⟨"/work/main.ts"⟩, ⟨"/work/preload.ts"⟩, ⟨"/work/types.d.ts"⟩⟩

theorem sample_texts_describe_one_surface :
    (∀ m ∈ sampleMethods, Text.isCamelCase m.namespaceName = true) ∧
      ∃ t, texts (Surface.empty.insertEach sampleMethods) sampleOutputs ⟨"run/backend", "run/bridge"⟩ =
        .ok t ∧ WrittenFrom (calls (Surface.empty.insertEach sampleMethods)) t ∧
          (calls (Surface.empty.insertEach sampleMethods)).map Call.place =
            [("api", "ping"), ("userAPI", "get"), ("userAPI", "watch")] := by
  have hms : ∀ m ∈ sampleMethods, Text.isCamelCase m.namespaceName = true := by decide +kernel
  have hok : (texts (Surface.empty.insertEach sampleMethods) sampleOutputs
      ⟨"run/backend", "run/bridge"⟩).isOk = true := by decide +kernel
  obtain ⟨t, ht⟩ := exists_eq_ok hok
  obtain ⟨hwritten, -⟩ := texts_describe_one_surface hms ht
  exact ⟨hms, t, ht, hwritten, by decide +kernel⟩

end CallBridge.Generated
