import CallBridge.Failure

/-! # Glob patterns

Patterns on paths. `?` stands for any byte and `*` for any bytes, separators included; `**` between
separators stands for any number of whole components; `[…]` is a class of characters and `{…,…}` a
choice, which may be nested. A backslash takes away the meaning of the character behind it.

A pattern matches the whole path, byte by byte. `Part.ends` gives what a part may leave of a text.
-/
namespace CallBridge.Glob

inductive Part where
  | literal (c : Char)
  | any
  | many
  | leading
  | trailing
  | between
  | oneOf (negated : Bool) (ranges : List (Char × Char))
  | choice (branches : List (List Part))
  deriving Repr, Inhabited

/-- A choice that is being read: the branches before the current one, and the parts of the current
one, the last first. -/
structure Frame where
  branches : List (List Part)
  parts : List Part
  deriving Repr, Inhabited

/-- The choices that are open, the innermost one first, and the parts outside of them. -/
structure Reading where
  inner : List Frame
  outer : List Part
  deriving Repr, Inhabited

namespace Reading

def parts (r : Reading) : List Part :=
  match r.inner with
  | f :: _ => f.parts
  | [] => r.outer

def withParts (r : Reading) (ps : List Part) : Reading :=
  match r.inner with
  | f :: fs => { r with inner := { f with parts := ps } :: fs }
  | [] => { r with outer := ps }

def push (r : Reading) (p : Part) : Reading :=
  r.withParts (p :: r.parts)

def «open» (r : Reading) : Reading :=
  { r with inner := ⟨[], []⟩ :: r.inner }

/-- Begin the next branch, or take a comma outside of choices for itself. -/
def comma (r : Reading) : Reading :=
  match r.inner with
  | f :: fs => { r with inner := ⟨f.parts.reverse :: f.branches, []⟩ :: fs }
  | [] => r.push (.literal ',')

def close (r : Reading) : Except GlobFault Reading :=
  match r.inner with
  | f :: fs =>
    let branches := (f.parts.reverse :: f.branches).reverse
    .ok ({ r with inner := fs }.push (.choice branches))
  | [] => .error .unopenedAlternates

/-- Add two stars. They stand for components if separators or the ends of the pattern or branch
are at both sides. Returns what is left of the pattern. -/
def stars (r : Reading) (prev : Option Char) (rest : List Char) : Reading × List Char :=
  let plain := ((r.push .many).push .many, rest)
  if r.parts.isEmpty then
    match rest with
    | [] => (r.push .leading, [])
    | '/' :: rest => (r.push .leading, rest)
    | _ => plain
  else
    let inside := !r.inner.isEmpty
    let joins := prev == some '/' || (inside && (prev == some ',' || prev == some '{'))
    let replaced (p : Part) : Reading :=
      match r.parts with
      | .leading :: _ => r
      | .trailing :: _ => r
      | _ :: ps => r.withParts (p :: ps)
      | [] => r
    if !joins then plain
    else
      match rest with
      | [] => (replaced .trailing, [])
      | '/' :: rest => (replaced .between, rest)
      | c :: _ => if inside && (c = ',' || c = '}') then (replaced .trailing, rest) else plain

end Reading

/-- A class that is being read: its ranges, the last first, whether something was read, and whether
a range waits for its end. -/
structure ClassReading where
  ranges : List (Char × Char) := []
  first : Bool := true
  open? : Bool := false
  deriving Repr, Inhabited

private def extendRange (ranges : List (Char × Char)) (c : Char) :
    Except GlobFault (List (Char × Char)) :=
  match ranges with
  | (low, _) :: rest =>
    if c < low then .error (.invalidRange low c) else .ok ((low, c) :: rest)
  | [] => .ok [(c, c)]

/-- Read a class up to its closing bracket. Returns its ranges and what is left of the pattern. -/
def readClass (r : ClassReading) : List Char → Except GlobFault (List (Char × Char) × List Char)
  | [] => .error .unclosedClass
  | c :: cs => do
    if c = ']' && !r.first then
      let ranges := if r.open? then ('-', '-') :: r.ranges else r.ranges
      return (ranges.reverse, cs)
    else if c = '-' && !r.first && !r.open? then
      readClass { r with open? := true } cs
    else if r.open? then
      let ranges ← extendRange r.ranges c
      readClass { ranges, first := false, open? := false } cs
    else
      readClass { ranges := (c, c) :: r.ranges, first := false, open? := false } cs

private def readParts (fuel : Nat) (r : Reading) (prev : Option Char) (cs : List Char) :
    Except GlobFault Reading :=
  match fuel, cs with
  | 0, _ | _, [] => .ok r
  | fuel + 1, c :: cs =>
    let go (r : Reading) (rest : List Char) : Except GlobFault Reading :=
      readParts fuel r ((c :: cs)[cs.length - rest.length]?) rest
    match c with
    | '?' => go (r.push .any) cs
    | '*' =>
      match cs with
      | '*' :: cs => let (r, rest) := r.stars prev cs; go r rest
      | _ => go (r.push .many) cs
    | '[' => do
      let (negated, body) :=
        match cs with
        | '!' :: cs | '^' :: cs => (true, cs)
        | _ => (false, cs)
      let (ranges, rest) ← readClass {} body
      go (r.push (.oneOf negated ranges)) rest
    | '{' => go r.open cs
    | '}' => do go (← r.close) cs
    | ',' => go r.comma cs
    | '\\' =>
      match cs with
      | [] => .error .danglingEscape
      | c :: cs => go (r.push (.literal c)) cs
    | c => go (r.push (.literal c)) cs

structure Pattern where
  text : String
  parts : List Part
  deriving Repr, Inhabited

def Pattern.read (text : String) : Except Failure Pattern :=
  let cs := text.toList
  match readParts cs.length ⟨[], []⟩ none cs with
  | .error fault => .error (.glob text fault)
  | .ok r =>
    if r.inner.isEmpty then .ok ⟨text, r.outer.reverse⟩
    else .error (.glob text .unclosedAlternates)

/-- What is left of a text behind each of its fronts, the text itself first. -/
def suffixes : List UInt8 → List (List UInt8)
  | [] => [[]]
  | b :: bs => (b :: bs) :: suffixes bs

private def slash : UInt8 := 47

def behindSlashes : List UInt8 → List (List UInt8)
  | [] => []
  | b :: bs => if b = slash then bs :: behindSlashes bs else behindSlashes bs

def charBytes (c : Char) : List UInt8 :=
  c.toString.toUTF8.toList

/-- The byte is in the range. A range of longer characters runs from the last byte of its low end
to the first byte of its high end, and holds their other bytes. -/
def rangeHas (r : Char × Char) (b : UInt8) : Bool :=
  let low := charBytes r.1
  let high := charBytes r.2
  if r.1 = r.2 then low.contains b
  else
    low.contains b || high.contains b ||
      (match low.getLast?, high.head? with
        | some l, some h => l ≤ b && b ≤ h
        | _, _ => false)

private def distinct (texts : List (List UInt8)) : List (List UInt8) :=
  texts.foldr (fun t ts => if ts.any (·.length == t.length) then ts else t :: ts) []

private def dropLiteral : List UInt8 → List UInt8 → List (List UInt8)
  | [], bs => [bs]
  | _ :: _, [] => []
  | l :: ls, b :: bs => if l = b then dropLiteral ls bs else []

mutual

def Part.isVoid : Part → Bool
  | .choice branches => allVoid branches
  | _ => false

def areVoid : List Part → Bool
  | [] => true
  | p :: ps => p.isVoid && areVoid ps

def allVoid : List (List Part) → Bool
  | [] => true
  | b :: bs => areVoid b && allVoid bs

end

mutual

/-- What the part may leave of a text. Branches of a choice that stand for nothing do not count
beside others. -/
def Part.ends : Part → List UInt8 → List (List UInt8)
  | .literal c, s => dropLiteral (charBytes c) s
  | .any, s => s.tail?.toList
  | .many, s => suffixes s
  | .leading, s => s :: behindSlashes s
  | .trailing, s =>
    match s with
    | b :: bs => if b = slash then suffixes bs else []
    | [] => []
  | .between, s =>
    match s with
    | b :: bs => if b = slash then bs :: behindSlashes bs else []
    | [] => []
  | .oneOf negated ranges, s =>
    match s with
    | b :: bs => if ranges.any (rangeHas · b) != negated then [bs] else []
    | [] => []
  | .choice branches, s => if allVoid branches then [s] else choiceEnds branches s

def endsAll : List Part → List (List UInt8) → List (List UInt8)
  | [], ts => ts
  | p :: ps, ts => endsAll ps (distinct (ts.flatMap fun t => p.ends t))

def choiceEnds : List (List Part) → List UInt8 → List (List UInt8)
  | [], _ => []
  | b :: bs, s => (if areVoid b then [] else endsAll b [s]) ++ choiceEnds bs s

end

/-- The pattern matches the whole text. Two stars alone match everything. -/
def Pattern.matches (p : Pattern) (text : String) : Bool :=
  match p.parts with
  | [.leading] => true
  | ps => (endsAll ps [text.toUTF8.toList]).any List.isEmpty

end CallBridge.Glob

namespace CallBridge

abbrev GlobSet := List Glob.Pattern

def GlobSet.read (texts : List String) : Except Failure GlobSet :=
  texts.mapM Glob.Pattern.read

def GlobSet.matches (s : GlobSet) (text : String) : Bool :=
  s.any (·.matches text)

end CallBridge
