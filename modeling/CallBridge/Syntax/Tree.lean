import CallBridge.Syntax.Kind

/-! # Syntax trees

The concrete tree of a module: every token and every comment has a place in it. A node may be an
error or contain one, and a token may be missing.
-/
namespace CallBridge.Syntax

/-- A range of bytes of a source, and the rows, counted from 0, on which it begins and ends. -/
structure Span where
  start : Nat
  stop : Nat
  row : Nat
  endRow : Nat
  deriving DecidableEq, Repr, Inhabited

/-- A syntax tree: a node of some kind, a token that is written as it is, or a place where a token
is missing. -/
inductive Tree where
  | node (kind : Kind) (field : Option Field) (span : Span) (children : List Tree)
  | token (text : String) (span : Span)
  | missing (span : Span)
  deriving Repr, Inhabited

namespace Tree

def span : Tree → Span
  | node _ _ s _ => s
  | token _ s => s
  | missing s => s

def kind? : Tree → Option Kind
  | node k _ _ _ => some k
  | _ => none

def field? : Tree → Option Field
  | node _ f _ _ => f
  | _ => none

def children : Tree → List Tree
  | node _ _ _ cs => cs
  | _ => []

def is (t : Tree) (k : Kind) : Bool :=
  t.kind? == some k

def isNode (t : Tree) : Bool :=
  t.kind?.isSome

def isToken (t : Tree) (text : String) : Bool :=
  match t with
  | token s _ => s == text
  | _ => false

def nodes (t : Tree) : List Tree :=
  t.children.filter isNode

def firstNode? (t : Tree) : Option Tree :=
  t.nodes.head?

def child? (t : Tree) (f : Field) : Option Tree :=
  t.children.find? (·.field? == some f)

def hasToken (t : Tree) (text : String) : Bool :=
  t.children.any (·.isToken text)

def line (t : Tree) : Nat :=
  t.span.row + 1

def isFault : Tree → Bool
  | node k _ _ _ => k == .error
  | token _ _ => false
  | missing _ => true

mutual

def hasFault : Tree → Bool
  | node k f s cs => (node k f s cs).isFault || anyFault cs
  | t => t.isFault

def anyFault : List Tree → Bool
  | [] => false
  | t :: ts => t.hasFault || anyFault ts

end

mutual

/-- All trees within a tree, itself included, in source order. -/
def preorder : Tree → List Tree
  | node k f s cs => node k f s cs :: preorderAll cs
  | t => [t]

def preorderAll : List Tree → List Tree
  | [] => []
  | t :: ts => t.preorder ++ preorderAll ts

end

/-- Put trees on a stack, the last one first, so that the first one is on top. -/
def pushAll (stack ts : List Tree) : List Tree :=
  ts.reverse.foldl (fun rest t => t :: rest) stack

@[simp]
theorem pushAll_eq (stack ts : List Tree) : pushAll stack ts = ts ++ stack := by
  rw [pushAll, List.foldl_reverse]
  induction ts with
  | nil => rfl
  | cons t ts ih => rw [List.foldr_cons, ih, List.cons_append]

theorem preorderAll_eq_flatMap (ts : List Tree) : preorderAll ts = ts.flatMap preorder := by
  induction ts with
  | nil => rfl
  | cons t ts ih => rw [preorderAll, ih, List.flatMap_cons]

theorem preorderAll_append (ts us : List Tree) :
    preorderAll (ts ++ us) = preorderAll ts ++ preorderAll us := by
  simp only [preorderAll_eq_flatMap, List.flatMap_append]

theorem preorder_eq (t : Tree) : t.preorder = t :: preorderAll t.children := by
  cases t <;> rfl

/-- The line of the first fault in trees on a stack. The tree on top is looked at and taken off;
its parts are put in its place if it is marked as one that contains a fault. -/
def searchFault (marked : Tree → Bool) : List Tree → Option Nat
  | [] => none
  | t :: rest =>
    if t.isFault then some t.line
    else if marked t then searchFault marked (pushAll rest t.children)
    else searchFault marked rest
termination_by stack => (preorderAll stack).length
decreasing_by
  · simp [preorderAll, preorder_eq, preorderAll_append]
  · simp only [preorderAll, preorder_eq, List.length_append, List.length_cons]
    omega

/-- The line of the first fault in source order. Parts without a fault are not entered. -/
def faultLine? (t : Tree) : Option Nat :=
  searchFault hasFault [t]

def withField (f : Field) : Tree → Tree
  | node k _ s cs => node k (some f) s cs
  | t => t

end Tree

end CallBridge.Syntax
