import CallBridge.Failure
import CallBridge.Text.LetterCase

/-! # The call surface

The exposed methods of a run, ordered by namespace and name, no two with the same. Every generated
file is written by walking this one list, so the files agree with each other and are the same in
every run.
-/
namespace CallBridge

/-- `a` stands before `b`: its namespace is smaller, or its name within one namespace. -/
def Method.Before (a b : Method) : Prop :=
  a.namespaceName < b.namespaceName ∨ a.namespaceName = b.namespaceName ∧ a.name < b.name

instance (a b : Method) : Decidable (a.Before b) :=
  inferInstanceAs (Decidable (_ ∨ _))

def Method.SameKey (a b : Method) : Prop :=
  a.namespaceName = b.namespaceName ∧ a.name = b.name

instance (a b : Method) : Decidable (a.SameKey b) :=
  inferInstanceAs (Decidable (_ ∧ _))

theorem Method.Before.trans {a b c : Method} (hab : a.Before b) (hbc : b.Before c) :
    a.Before c := by
  rcases hab with hab | ⟨hab, hab'⟩ <;> rcases hbc with hbc | ⟨hbc, hbc'⟩
  · exact .inl (String.lt_trans hab hbc)
  · exact .inl (hbc ▸ hab)
  · exact .inl (hab ▸ hbc)
  · exact .inr ⟨hab.trans hbc, String.lt_trans hab' hbc'⟩

theorem Method.before_of_not {a b : Method} (hba : ¬ b.Before a) (hne : ¬ a.SameKey b) :
    a.Before b := by
  have hns : ¬ b.namespaceName < a.namespaceName := fun h => hba (.inl h)
  by_cases h : a.namespaceName = b.namespaceName
  · have hname : ¬ b.name < a.name := fun h' => hba (.inr ⟨h.symm, h'⟩)
    refine .inr ⟨h, ?_⟩
    by_cases hlt : a.name < b.name
    · exact hlt
    · exact absurd ⟨h, String.le_antisymm hname hlt⟩ hne
  · refine .inl ?_
    by_cases hlt : a.namespaceName < b.namespaceName
    · exact hlt
    · exact absurd (String.le_antisymm hns hlt) h

structure Surface where
  methods : List Method
  ordered : methods.Pairwise Method.Before

structure Group where
  name : String
  methods : List Method
  deriving DecidableEq, Repr, Inhabited

namespace Surface

def empty : Surface :=
  ⟨[], .nil⟩

instance : Inhabited Surface :=
  ⟨empty⟩

def place (m : Method) : List Method → List Method
  | [] => [m]
  | x :: xs => if m.Before x then m :: x :: xs else x :: place m xs

theorem mem_place {m x : Method} {xs : List Method} : x ∈ place m xs ↔ x = m ∨ x ∈ xs := by
  induction xs with
  | nil => simp [place]
  | cons y ys ih =>
    by_cases h : m.Before y
    · simp [place, h]
    · simp only [place, h, ↓reduceIte, List.mem_cons, ih]
      constructor
      · rintro (h | h | h) <;> simp [h]
      · rintro (h | h | h) <;> simp [h]

theorem place_ordered {m : Method} {xs : List Method} (hxs : xs.Pairwise Method.Before)
    (hm : ∀ x ∈ xs, ¬ x.SameKey m) : (place m xs).Pairwise Method.Before := by
  induction xs with
  | nil => simp [place]
  | cons y ys ih =>
    have hy := List.pairwise_cons.mp hxs
    by_cases h : m.Before y
    · simp only [place, h, ↓reduceIte]
      refine List.pairwise_cons.mpr ⟨fun z hz => ?_, hxs⟩
      rcases List.mem_cons.mp hz with rfl | hz
      · exact h
      · exact h.trans (hy.1 z hz)
    · simp only [place, h, ↓reduceIte]
      refine List.pairwise_cons.mpr ⟨fun z hz => ?_, ih hy.2 fun x hx => hm x (.tail _ hx)⟩
      rcases mem_place.mp hz with rfl | hz
      · exact Method.before_of_not h (hm y (.head _))
      · exact hy.1 z hz

/-- Add a method. A second declaration with the same namespace and name is a failure that names
both. -/
def insert (s : Surface) (m : Method) : Except Failure Surface :=
  match h : s.methods.find? fun x => decide (x.SameKey m) with
  | some first => .error (.duplicateMethod first m)
  | none =>
    .ok ⟨place m s.methods, place_ordered s.ordered fun x hx => by
      have := List.find?_eq_none.mp h x hx
      simpa using this⟩

def runs : List Method → List Group
  | [] => []
  | m :: ms =>
    match runs ms with
    | [] => [⟨m.namespaceName, [m]⟩]
    | g :: gs =>
      if g.name = m.namespaceName then ⟨g.name, m :: g.methods⟩ :: gs
      else ⟨m.namespaceName, [m]⟩ :: g :: gs

def groups (s : Surface) : List Group :=
  runs s.methods

def namespaces (s : Surface) : List String :=
  s.groups.map Group.name

def group? (s : Surface) (name : String) : Option Group :=
  s.groups.find? (·.name == name)

def methodsOf (s : Surface) (name : String) : List Method :=
  ((s.group? name).map Group.methods).getD []

def size (s : Surface) : Nat :=
  s.methods.length

def isEmpty (s : Surface) : Bool :=
  s.groups.isEmpty

end Surface

namespace Group

def owners (g : Group) : List Owner :=
  Owner.sortDistinct (g.methods.filterMap Method.ownerClass?)

/-- The class that owns methods of the group, if there is exactly one. -/
def owner? (g : Group) : Option Owner :=
  match g.owners with
  | [o] => some o
  | _ => none

def needsInstance (g : Group) : Bool :=
  g.methods.any (·.className.isSome)

def interfaceName (g : Group) : String :=
  Text.upperFirst g.name

end Group

/-- The name of the instance that methods of a class are called on. -/
def Owner.instanceName (o : Owner) : String :=
  Text.lowerFirst o.name

namespace Surface

def owner? (s : Surface) (name : String) : Option Owner :=
  (s.group? name).bind Group.owner?

def needsInstance (s : Surface) (name : String) : Bool :=
  (s.group? name).any Group.needsInstance

/-- All owner classes, each where the first namespace that it owns stands. -/
def instances (s : Surface) : List Owner :=
  firstsDistinct Owner.same (s.groups.flatMap Group.owners)

def validate (s : Surface) : Except Failure Unit :=
  match s.groups.find? fun g => g.owners.length > 1 with
  | some g => .error (.ambiguousOwner g.name g.owners)
  | none => .ok ()

def insertAll (s : Surface) (ms : List Method) : Except Failure Surface :=
  ms.foldlM insert s

def ofMethods (ms : List Method) : Except Failure Surface := do
  let s ← empty.insertAll ms
  s.validate
  return s

end Surface

end CallBridge
