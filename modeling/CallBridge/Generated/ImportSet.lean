import CallBridge.Failure
import CallBridge.Text.Quoted

/-! # Imports of a generated file

A set of imports binds each local name once, to one export of one module. It is written as one
statement for each module: packages before relative specifiers, both in order, and the names of a
statement in the order of their local names.
-/
namespace CallBridge.Generated

structure ImportBinding where
  name : String
  source : ImportSource
  deriving DecidableEq, Repr, Inhabited

def ImportBinding.text (b : ImportBinding) : String :=
  match b.source.imported with
  | .named n => if n = b.name then b.name else n ++ " as " ++ b.name
  | .default => "default as " ++ b.name

/-- The imports of one file. `output` names the file in messages. -/
structure ImportSet where
  output : String
  typeOnly : Bool
  bindings : List ImportBinding
  ordered : bindings.Pairwise fun a b => a.name < b.name

structure ImportStatement where
  typeOnly : Bool
  specifier : String
  bindings : List ImportBinding
  deriving DecidableEq, Repr, Inhabited

/-- The statement as it is written. The specifier stands between quotes as it is. -/
def ImportStatement.text (s : ImportStatement) : String :=
  (if s.typeOnly then "import type" else "import") ++ " \x7b " ++
    ", ".intercalate (s.bindings.map ImportBinding.text) ++ " \x7d from '" ++ s.specifier ++ "';"

namespace ImportSet

def empty (output : String) (typeOnly : Bool) : ImportSet :=
  ⟨output, typeOnly, [], .nil⟩

def place (b : ImportBinding) : List ImportBinding → List ImportBinding
  | [] => [b]
  | x :: xs => if b.name < x.name then b :: x :: xs else x :: place b xs

theorem mem_place {b x : ImportBinding} {xs : List ImportBinding} :
    x ∈ place b xs ↔ x = b ∨ x ∈ xs := by
  induction xs with
  | nil => simp [place]
  | cons y ys ih =>
    by_cases h : b.name < y.name
    · simp [place, h]
    · simp only [place, h, ↓reduceIte, List.mem_cons, ih]
      constructor
      · rintro (h | h | h) <;> simp [h]
      · rintro (h | h | h) <;> simp [h]

theorem place_ordered {b : ImportBinding} {xs : List ImportBinding}
    (hxs : xs.Pairwise fun a b => a.name < b.name) (hb : ∀ x ∈ xs, x.name ≠ b.name) :
    (place b xs).Pairwise fun a b => a.name < b.name := by
  induction xs with
  | nil => simp [place]
  | cons y ys ih =>
    have hy := List.pairwise_cons.mp hxs
    by_cases h : b.name < y.name
    · simp only [place, h, ↓reduceIte]
      refine List.pairwise_cons.mpr ⟨fun z hz => ?_, hxs⟩
      rcases List.mem_cons.mp hz with rfl | hz
      · exact h
      · exact String.lt_trans h (hy.1 z hz)
    · simp only [place, h, ↓reduceIte]
      refine List.pairwise_cons.mpr ⟨fun z hz => ?_, ih hy.2 fun x hx => hb x (.tail _ hx)⟩
      rcases mem_place.mp hz with rfl | hz
      · by_cases hlt : y.name < z.name
        · exact hlt
        · exact absurd (String.le_antisymm h hlt) (hb y (.head _))
      · exact hy.1 z hz

def source? (s : ImportSet) (name : String) : Option ImportSource :=
  (s.bindings.find? (·.name == name)).map ImportBinding.source

/-- Bind a local name. Binding it again to the same export changes nothing, and to another one is
a failure. -/
def add (s : ImportSet) (name : String) (source : ImportSource) : Except Failure ImportSet :=
  match h : s.bindings.find? fun b => b.name == name with
  | some b =>
    if b.source = source then .ok s
    else .error (.importCollision name s.output b.source source)
  | none =>
    .ok ⟨s.output, s.typeOnly, place ⟨name, source⟩ s.bindings,
      place_ordered s.ordered fun x hx => by
        have := List.find?_eq_none.mp h x hx
        simpa using this⟩

def isRelative (specifier : String) : Bool :=
  specifier.toList.head? == some '.'

/-- The order of statements: packages first, then by the text of the specifier. -/
def Precedes (a b : String) : Prop :=
  isRelative a = false ∧ isRelative b = true ∨ isRelative a = isRelative b ∧ a < b

instance (a b : String) : Decidable (Precedes a b) :=
  inferInstanceAs (Decidable (_ ∨ _))

/-- Put a specifier in its place in an ordered list, unless it is there. -/
def placeSpecifier (a : String) : List String → List String
  | [] => [a]
  | b :: bs =>
    if a = b then b :: bs else if Precedes a b then a :: b :: bs else b :: placeSpecifier a bs

def specifiers (s : ImportSet) : List String :=
  s.bindings.foldr (fun b => placeSpecifier b.source.specifier) []

def statements (s : ImportSet) : List ImportStatement :=
  s.specifiers.map fun a => ⟨s.typeOnly, a, s.bindings.filter (·.source.specifier == a)⟩

def isEmpty (s : ImportSet) : Bool :=
  s.bindings.isEmpty

end ImportSet

end CallBridge.Generated
