import CallBridge.Yaml.Token

/-! # Nodes of YAML documents

The tree of a document. An alias stands for the node that its anchor named last; inside of that
node it has no meaning yet and is kept as `unfinished`.
-/
namespace CallBridge.Yaml

inductive Node where
  | scalar (text : String) (style : Style) (tag : Option String)
  | sequence (items : List Node)
  | mapping (entries : List (Node × Node))
  | unfinished
  deriving Repr, Inhabited

/-- What is left of the tokens, and the nodes that anchors name, the last one first. -/
structure Reader where
  tokens : List Token
  anchors : List (String × Node)
  handles : List String
  deriving Inhabited

namespace Reader

def drop (r : Reader) : Reader :=
  { r with tokens := r.tokens.drop 1 }

def peek (r : Reader) : Option Token :=
  r.tokens.head?

def bind (r : Reader) (anchor : Option String) (n : Node) : Reader :=
  match anchor with
  | some name => { r with anchors := (name, n) :: r.anchors }
  | none => r

end Reader

def Node.nothing (tag : Option String := none) : Node :=
  .scalar "" .plain tag

private def tagText? (r : Reader) (handle suffix : String) : Option String :=
  if handle == "" then some suffix
  else if handle == "!!" then some ("tag:yaml.org,2002:" ++ suffix)
  else if handle == "!" || r.handles.contains handle then some (handle ++ suffix)
  else none

private def properties (r : Reader) : Option (Option String × Option String × Reader) :=
  match r.tokens with
  | .anchor a :: .tag h s :: rest => do
    return (some a, some (← tagText? r h s), { r with tokens := rest })
  | .tag h s :: .anchor a :: rest => do
    return (some a, some (← tagText? r h s), { r with tokens := rest })
  | .anchor a :: rest => some (some a, none, { r with tokens := rest })
  | .tag h s :: rest => do return (none, some (← tagText? r h s), { r with tokens := rest })
  | _ => some (none, none, r)

mutual

/-- A node. Block collections may begin only if `block`, and a sequence without indentation only
if `bare`. -/
private def node? (fuel : Nat) (block bare : Bool) (r : Reader) : Option (Node × Reader) :=
  match fuel with
  | 0 => none
  | fuel + 1 =>
    match r.tokens with
    | .alias name :: rest =>
      match r.anchors.find? (·.1 == name) with
      | some (_, n) => some (n, { r with tokens := rest })
      | none => none
    | _ => do
      let (anchor, tag, r) ← properties r
      let inner := r.bind anchor .unfinished
      let finish (x : Node × Reader) : Option (Node × Reader) := some (x.1, x.2.bind anchor x.1)
      match r.peek with
      | some .entry =>
        if bare then
          let (items, r) ← entries? fuel inner
          finish (.sequence items, r)
        else if anchor.isSome || tag.isSome then finish (.nothing tag, r)
        else none
      | some (.scalar text style) => finish (.scalar text style tag, r.drop)
      | some .flowSequenceStart =>
        let (items, r) ← flowItems? fuel true inner.drop
        finish (.sequence items, r)
      | some .flowMappingStart =>
        let (pairs, r) ← flowPairs? fuel true inner.drop
        finish (.mapping pairs, r)
      | some .sequenceStart =>
        if !block then none
        else
          let (items, r) ← entries? fuel inner.drop
          if r.peek == some .blockEnd then finish (.sequence items, r.drop) else none
      | some .mappingStart =>
        if !block then none
        else
          let (pairs, r) ← pairs? fuel inner.drop
          finish (.mapping pairs, r)
      | _ => if anchor.isSome || tag.isSome then finish (.nothing tag, r) else none

private def entries? (fuel : Nat) (r : Reader) : Option (List Node × Reader) :=
  match fuel with
  | 0 => none
  | fuel + 1 =>
    if r.peek == some .entry then do
      let r := r.drop
      let (n, r) ←
        match r.peek with
        | some .entry | some .key | some .value | some .blockEnd | none => some (.nothing, r)
        | _ => node? fuel true false r
      let (ns, r) ← entries? fuel r
      return (n :: ns, r)
    else some ([], r)

private def pairValue? (fuel : Nat) (r : Reader) : Option (Node × Reader) :=
  match fuel with
  | 0 => none
  | fuel + 1 =>
    if r.peek == some .value then
      let r := r.drop
      match r.peek with
      | some .key | some .value | some .blockEnd => some (.nothing, r)
      | _ => node? fuel true true r
    else some (.nothing, r)

/-- Pairs of a mapping in block style, with the token that ends it. -/
private def pairs? (fuel : Nat) (r : Reader) : Option (List (Node × Node) × Reader) :=
  match fuel with
  | 0 => none
  | fuel + 1 =>
    match r.peek with
    | some .blockEnd => some ([], r.drop)
    | some .key => do
      let r := r.drop
      let (k, r) ←
        match r.peek with
        | some .key | some .value | some .blockEnd => some (.nothing, r)
        | _ => node? fuel true true r
      let (v, r) ← pairValue? fuel r
      let (ps, r) ← pairs? fuel r
      return ((k, v) :: ps, r)
    | some .value => do
      let (v, r) ← pairValue? fuel r
      let (ps, r) ← pairs? fuel r
      return ((.nothing, v) :: ps, r)
    | _ => none

private def flowPair? (fuel : Nat) (r : Reader) : Option ((Node × Node) × Reader) :=
  match fuel with
  | 0 => none
  | fuel + 1 => do
    let ends (t : Option Token) : Bool :=
      t == some .flowEntry || t == some .flowMappingEnd || t == some .flowSequenceEnd
    if r.peek == some .key then
      let r := r.drop
      let (k, r) ←
        if r.peek == some .value || ends r.peek then some (Node.nothing, r)
        else node? fuel false false r
      if r.peek == some .value then
        let r := r.drop
        if ends r.peek then return ((k, .nothing), r)
        else
          let (v, r) ← node? fuel false false r
          return ((k, v), r)
      else return ((k, .nothing), r)
    else
      let (k, r) ← node? fuel false false r
      return ((k, .nothing), r)

/-- Items of a sequence in flow style, with the token that ends it. -/
private def flowItems? (fuel : Nat) (first : Bool) (r : Reader) : Option (List Node × Reader) :=
  match fuel with
  | 0 => none
  | fuel + 1 =>
    if r.peek == some .flowSequenceEnd then some ([], r.drop)
    else do
      let r ← if first then some r else if r.peek == some .flowEntry then some r.drop else none
      if r.peek == some .flowSequenceEnd then return ([], r.drop)
      else
        let (n, r) ←
          if r.peek == some .key then
            (flowPair? fuel r).map fun (p, r) => (Node.mapping [p], r)
          else node? fuel false false r
        let (ns, r) ← flowItems? fuel false r
        return (n :: ns, r)

/-- Pairs of a mapping in flow style, with the token that ends it. -/
private def flowPairs? (fuel : Nat) (first : Bool) (r : Reader) :
    Option (List (Node × Node) × Reader) :=
  match fuel with
  | 0 => none
  | fuel + 1 =>
    if r.peek == some .flowMappingEnd then some ([], r.drop)
    else do
      let r ← if first then some r else if r.peek == some .flowEntry then some r.drop else none
      if r.peek == some .flowMappingEnd then return ([], r.drop)
      else
        let (p, r) ← flowPair? fuel r
        let (ps, r) ← flowPairs? fuel false r
        return (p :: ps, r)

end

private def directives? : List Token → List String → Bool → Option (List String × List Token)
  | .versionDirective :: ts, hs, seen => if seen then none else directives? ts hs true
  | .tagDirective h :: ts, hs, seen =>
    if hs.contains h then none else directives? ts (h :: hs) seen
  | ts, hs, seen =>
    match ts with
    | .documentStart :: _ => some (hs, ts)
    | _ => if seen || !hs.isEmpty then none else some (hs, ts)

/-- The node of the only document of a text. A text without a document has the empty node, and a
text that cannot be read or has a second document has none. -/
def Node.read? (text : String) : Option Node := do
  let tokens ← scan text
  let (handles, ts) ← directives? tokens.toList [] false
  let fuel := 4 * tokens.size + 8
  match ts with
  | [] => return .nothing
  | .documentStart :: ts =>
    match ts with
    | [] | .documentEnd :: _ | .documentStart :: _ => closed? .nothing ts
    | _ =>
      let (n, r) ← node? fuel true false ⟨ts, [], handles⟩
      closed? n r.tokens
  | _ =>
    let (n, r) ← node? fuel true false ⟨ts, [], handles⟩
    closed? n r.tokens
where
  closed? (n : Node) (ts : List Token) : Option Node :=
    if ts.all (· == .documentEnd) then some n else none

end CallBridge.Yaml
