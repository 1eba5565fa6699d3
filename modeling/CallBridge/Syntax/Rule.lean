import CallBridge.Syntax.Semicolon
import CallBridge.Syntax.Symbol
import CallBridge.Syntax.Tree

/-! # Grammar rules and how they are read

A rule says how a part of a source is made up, and which nodes the tree has for it. Of alternatives
the first one that fits is taken. White space and comments may stand in front of every token; a
comment becomes a part of the innermost node that has begun in front of it and goes on behind it.

Reading is bounded by a number of steps. It gives the trees of the rule and the place behind them,
and in any case how far it came: the furthest token that did not fit, and the row to blame.
-/
namespace CallBridge.Syntax

inductive Rule where
  /-- A token, not followed by any of some characters; a word is not followed by more of it. -/
  | token (text : String) (unlessBefore : String)
  | leaf (kind : Kind) (lexeme : Lexeme)
  | raw (lexeme : Lexeme)
  | rawToken (text : String)
  | ref (symbol : Symbol)
  | seq (rules : List Rule)
  | choice (rules : List Rule)
  | many (rule : Rule)
  | optional (rule : Rule)
  | node (kind : Kind) (rule : Rule)
  | field (field : Field) (rule : Rule)
  /-- A rule, and what may be built around it again and again: the kind of the node around, the
  role in it of what is there, and what follows. -/
  | chain (base : Rule) (tails : List (Kind × Option Field × Rule))
  | ahead (rule : Rule)
  | never (rule : Rule)
  /-- The end of a statement: a semicolon, or a place where none has to be written. -/
  | semicolon (operand signature : Bool)
  /-- A place where no semicolon has to be written, if it is one. Comments on the line in front of
  it belong to what ends here. -/
  | softEnd
  | joined (operand : Bool)
  | within (statement : Bool) (rule : Rule)
  | construct (rule : Rule)
  /-- A rule that has to be complete: no body within it may be left open. -/
  | whole (rule : Rule)
  deriving Inhabited

/-- The furthest token that did not fit, the row to blame for it, and whether it would have been
the first one of a construct. -/
structure Reach where
  pos : Nat
  row : Nat
  first : Bool
  deriving Repr, Inhabited

def Reach.none : Reach :=
  ⟨0, 0, false⟩

/-- The further one of two. If they are level, one that begins a construct goes first: what is in
front of it is complete. -/
def Reach.max (a b : Reach) : Reach :=
  if a.pos < b.pos ∨ a.pos = b.pos ∧ !a.first ∧ b.first then b else a

inductive Reading where
  | read (trees : List Tree) (place : Place) (reach : Reach)
  | failed (reach : Reach)
  deriving Inhabited

/-- What reading depends on. `start` is where the innermost construct began, and `outermost` the
one that no other is around; `closable` says whether the bodies around may be left open. -/
structure Context where
  source : Source
  grammar : Symbol → Rule
  statement : Bool := true
  start : Place := ⟨0, 0⟩
  outermost : Option Place := none
  closable : Bool := true

namespace Reading

def upTo (r : Reach) : Reading → Reading
  | read ts p r' => read ts p (r.max r')
  | failed r' => failed (r.max r')

def andThen (x : Reading) (f : List Tree → Place → Reading) : Reading :=
  match x with
  | read ts p r => (f ts p).upTo r
  | failed r => failed r

end Reading

def commentsFrom (s : Source) : (fuel : Nat) → Place → List Tree → List Tree × Place
  | 0, p, done => (done.reverse, p)
  | fuel + 1, p, done =>
    let q := s.placeAt p (s.skipChars isGap p.pos)
    match commentStop? s q.pos with
    | some stop =>
      let e := s.placeAt q stop
      commentsFrom s fuel e (.node .comment none ⟨q.pos, e.pos, q.row, e.row⟩ [] :: done)
    | none => (done.reverse, q)

def comments (s : Source) (p : Place) : List Tree × Place :=
  commentsFrom s (s.size - p.pos + 1) p []

def splitComments (ts : List Tree) : List Tree × List Tree :=
  (ts.takeWhile (·.is .comment), ts.dropWhile (·.is .comment))

private def spanOf (ts : List Tree) (p : Place) : Span :=
  match ts.head?, ts.getLast? with
  | some a, some b => ⟨a.span.start, b.span.stop, a.span.row, b.span.endRow⟩
  | _, _ => ⟨p.pos, p.pos, p.row, p.row⟩

/-- The node with the given parts. Comments in front stay outside. -/
def buildNode (kind : Kind) (ts : List Tree) (p : Place) : List Tree :=
  let (before, parts) := splitComments ts
  before ++ [.node kind none (spanOf parts p) parts]

/-- How far reading came if the token behind `p`, at `q`, does not fit. If it is the first one of a
construct, it is to blame itself; else the row on which the tokens that fit end. At the end of the
source there is no such token. If only the ends of bodies are missing there, they are missing
behind the last token or comment; else the outermost construct is to blame as a whole. -/
def Context.reach (c : Context) (p q : Place) : Reach :=
  let first := c.start.pos == q.pos
  let row :=
    if q.pos < c.source.size then (if first then q else p).row
    else if first && c.closable then
      (comments c.source p).1.getLast?.elim p.row (·.span.endRow)
    else (c.outermost.getD c.start).row
  ⟨q.pos, row, first⟩

def Context.stop (c : Context) (p : Place) (stop? : Nat → Option Nat)
    (tree : Span → Tree) : Reading :=
  let (cs, q) := comments c.source p
  match stop? q.pos with
  | some stop =>
    let e := c.source.placeAt q stop
    .read (cs ++ [tree ⟨q.pos, e.pos, q.row, e.row⟩]) e .none
  | none => .failed (c.reach p q)

private def isWord (text : String) : Bool :=
  text.toList.head?.any isWordPart

private def tokenStop? (s : Source) (text unlessBefore : String) (i : Nat) : Option Nat :=
  let stop := i + text.utf8ByteSize
  if !s.hasAt i text then none
  else if isWord text then if wordStop? s i == some stop then some stop else none
  else if s.charIs stop unlessBefore.toList.contains then none
  else some stop

def semicolonFrom (c : Context) (operand signature : Bool) :
    (fuel : Nat) → Place → List Tree → Option (List Tree × Place)
  | 0, _, _ => none
  | fuel + 1, p, done =>
    if endsStatement c.source p.pos operand signature then some (done.reverse, p)
    else
      let q := c.source.placeAt p (c.source.skipChars isGap p.pos)
      match commentStop? c.source q.pos with
      | some stop =>
        let e := c.source.placeAt q stop
        semicolonFrom c operand signature fuel e
          (.node .comment none ⟨q.pos, e.pos, q.row, e.row⟩ [] :: done)
      | none => none

/-- The place where a statement ends without a semicolon, and the comments in front of it. -/
def Context.unwritten? (c : Context) (operand signature : Bool) (p : Place) :
    Option (List Tree × Place) :=
  semicolonFrom c operand signature (c.source.size - p.pos + 1) p []

def Context.enter (c : Context) (p : Place) : Context :=
  let q := (comments c.source p).2
  { c with start := q, outermost := c.outermost.or (some q) }

mutual

def readRule (fuel : Nat) (c : Context) (rule : Rule) (p : Place) : Reading :=
  match fuel with
  | 0 => .failed .none
  | fuel + 1 =>
    match rule with
    | .token text unlessBefore =>
      c.stop p (tokenStop? c.source text unlessBefore) (.token text)
    | .leaf kind lexeme => c.stop p (lexeme.stop? c.source) fun s => .node kind none s []
    | .raw lexeme =>
      match lexeme.stop? c.source p.pos with
      | some stop => .read [] (c.source.placeAt p stop) .none
      | none => .failed (c.reach p p)
    | .rawToken text =>
      if c.source.hasAt p.pos text then
        let e := c.source.placeAt p (p.pos + text.utf8ByteSize)
        .read [.token text ⟨p.pos, e.pos, p.row, e.row⟩] e .none
      else .failed (c.reach p p)
    | .ref symbol => readRule fuel c (c.grammar symbol) p
    | .seq rules => readSeq fuel c rules p
    | .choice rules => readChoice fuel c rules p
    | .many rule => readMany fuel c rule p
    | .optional rule =>
      match readRule fuel c rule p with
      | .read ts q r => .read ts q r
      | .failed r => .read [] p r
    | .node kind rule =>
      (readRule fuel c rule p).andThen fun ts q => .read (buildNode kind ts q) q .none
    | .field field rule =>
      (readRule fuel c rule p).andThen fun ts q =>
        .read (ts.map fun t => if t.is .comment then t else t.withField field) q .none
    | .chain base tails =>
      (readRule fuel c base p).andThen fun ts q => readTails fuel c tails ts q
    | .ahead rule =>
      match readRule fuel c rule p with
      | .read _ _ _ => .read [] p .none
      | .failed r => .failed r
    | .never rule =>
      match readRule fuel c rule p with
      | .read _ _ _ => .failed (c.reach p (comments c.source p).2)
      | .failed _ => .read [] p .none
    | .semicolon operand signature =>
      match c.unwritten? operand signature p with
      | some (ts, q) => .read ts q .none
      | none => c.stop p (tokenStop? c.source ";" "") (.token ";")
    | .softEnd =>
      match c.unwritten? false false p with
      | some (ts, q) => .read ts q .none
      | none => .read [] p .none
    | .joined operand =>
      if c.statement && (c.unwritten? operand false p).isSome then
        .failed (c.reach p (comments c.source p).2)
      else .read [] p .none
    | .within statement rule => readRule fuel { c with statement } rule p
    | .construct rule => readRule fuel (c.enter p) rule p
    | .whole rule => readRule fuel { c with closable := false } rule p

def readSeq (fuel : Nat) (c : Context) (rules : List Rule) (p : Place) : Reading :=
  match fuel with
  | 0 => .failed .none
  | fuel + 1 =>
    match rules with
    | [] => .read [] p .none
    | rule :: rules =>
      (readRule fuel c rule p).andThen fun ts q =>
        (readSeq fuel c rules q).andThen fun us q => .read (ts ++ us) q .none

def readChoice (fuel : Nat) (c : Context) (rules : List Rule) (p : Place) : Reading :=
  match fuel with
  | 0 => .failed .none
  | fuel + 1 =>
    match rules with
    | [] => .failed .none
    | rule :: rules =>
      match readRule fuel c rule p with
      | .read ts q r => .read ts q r
      | .failed r => (readChoice fuel c rules p).upTo r

def readMany (fuel : Nat) (c : Context) (rule : Rule) (p : Place) : Reading :=
  match fuel with
  | 0 => .failed .none
  | fuel + 1 =>
    match readRule fuel c rule p with
    | .read ts q r =>
      if q.pos = p.pos then .read [] p r
      else
        ((readMany fuel c rule q).andThen fun us q => .read (ts ++ us) q .none).upTo r
    | .failed r => .read [] p r

def readTails (fuel : Nat) (c : Context) (tails : List (Kind × Option Field × Rule))
    (ts : List Tree) (p : Place) : Reading :=
  match fuel with
  | 0 => .failed .none
  | fuel + 1 =>
    match readTail fuel c tails ts p with
    | .read ts q r => (readTails fuel c tails ts q).upTo r
    | .failed r => .read ts p r

def readTail (fuel : Nat) (c : Context) (tails : List (Kind × Option Field × Rule))
    (ts : List Tree) (p : Place) : Reading :=
  match fuel with
  | 0 => .failed .none
  | fuel + 1 =>
    match tails with
    | [] => .failed .none
    | (kind, role, rule) :: tails =>
      match readRule fuel c rule p with
      | .read us q r =>
        let (before, parts) := splitComments ts
        let parts :=
          match role with
          | some f => parts.map (·.withField f)
          | none => parts
        .read (before ++ buildNode kind (parts ++ us) q) q r
      | .failed r => (readTail fuel c tails ts p).upTo r

end

end CallBridge.Syntax
