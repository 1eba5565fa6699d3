import CallBridge.Text.Blank

/-! # Tokens of YAML documents

The scanner cuts a document into tokens. Indentation becomes tokens of its own: a collection in
block style begins where a line is indented further than the one around it, and ends where a line
is indented less. A mapping key is seen only at its `:`, so the place where a key may stand is
remembered, and the tokens that begin a mapping and a key are put there afterwards.
-/
namespace CallBridge.Yaml

inductive Style where
  | plain
  | quoted
  | block
  deriving DecidableEq, Repr, Inhabited

inductive Token where
  | versionDirective
  | tagDirective (handle : String)
  | documentStart
  | documentEnd
  | sequenceStart
  | mappingStart
  | blockEnd
  | flowSequenceStart
  | flowSequenceEnd
  | flowMappingStart
  | flowMappingEnd
  | entry
  | flowEntry
  | key
  | value
  | alias (name : String)
  | anchor (name : String)
  | tag (handle suffix : String)
  | scalar (text : String) (style : Style)
  deriving DecidableEq, Repr, Inhabited

def isSpace (c : Char) : Bool :=
  c = ' ' || c = '\t'

def isBreak (c : Char) : Bool :=
  c = '\r' || c = '\n' || c = '\u0085' || c = '\u2028' || c = '\u2029'

def isGap : Option Char → Bool
  | none => true
  | some c => isSpace c || isBreak c

def isAllowed (c : Char) : Bool :=
  let n := c.toNat
  n == 0x09 || n == 0x0A || n == 0x0D || (0x20 ≤ n && n ≤ 0x7E) || n == 0x85 ||
    (0xA0 ≤ n && n ≤ 0xFFFD && n != 0xFEFF) || 0x10000 ≤ n

structure Cursor where
  rest : List Char
  index : Nat := 0
  line : Nat := 0
  column : Nat := 0
  deriving Repr, Inhabited

namespace Cursor

def peek (c : Cursor) (n : Nat := 0) : Option Char :=
  c.rest[n]?

def advance (c : Cursor) (n : Nat := 1) : Cursor :=
  { c with rest := c.rest.drop n, index := c.index + n, column := c.column + n }

def advanceLine (c : Cursor) : Cursor :=
  let n := if c.rest.take 2 == ['\r', '\n'] then 2 else 1
  { rest := c.rest.drop n, index := c.index + n, line := c.line + 1, column := 0 }

def lineBreak (c : Cursor) : Char :=
  match c.peek with
  | some '\u2028' => '\u2028'
  | some '\u2029' => '\u2029'
  | _ => '\n'

def gapAt (c : Cursor) (n : Nat := 0) : Bool :=
  isGap (c.peek n)

def atBreak (c : Cursor) : Bool :=
  c.peek.any isBreak

def atSpace (c : Cursor) : Bool :=
  c.peek.any isSpace

def skipWhile (c : Cursor) (p : Char → Bool) : Cursor :=
  c.advance (c.rest.takeWhile p).length

def atDocumentMark (c : Cursor) (mark : Char) : Bool :=
  c.column == 0 && c.rest.take 3 == [mark, mark, mark] && c.gapAt 3

def atDocumentIndicator (c : Cursor) : Bool :=
  c.atDocumentMark '-' || c.atDocumentMark '.'

end Cursor

structure KeyPlace where
  required : Bool
  position : Nat
  index : Nat
  line : Nat
  column : Nat
  deriving Repr, Inhabited

/-- The scanner between two tokens. `keys` holds the possible key of each flow level, the innermost
first, and `indents` the columns of the open block collections; column −1 is that of the
document. -/
structure Scan where
  cursor : Cursor
  tokens : Array Token := #[]
  keys : List (Option KeyPlace) := [none]
  indent : Int := -1
  indents : List Int := []
  keyAllowed : Bool := true
  deriving Inhabited

namespace Scan

def flowLevel (s : Scan) : Nat :=
  s.keys.length - 1

def inFlow (s : Scan) : Bool :=
  0 < s.flowLevel

def push (s : Scan) (t : Token) : Scan :=
  { s with tokens := s.tokens.push t }

/-- Begin a block collection at a column, its token at a position. -/
def roll (s : Scan) (column : Nat) (position : Nat) (t : Token) : Scan :=
  if !s.inFlow && s.indent < column then
    { s with
      indents := s.indent :: s.indents
      indent := column
      tokens := s.tokens.insertIdx! position t }
  else s

private def unrollTo (column : Int) : List Int → Int → Array Token → List Int × Int × Array Token
  | [], indent, tokens => ([], indent, tokens)
  | i :: is, indent, tokens =>
    if column < indent then unrollTo column is i (tokens.push .blockEnd)
    else (i :: is, indent, tokens)

/-- End the block collections that are indented further than a column. -/
def unroll (s : Scan) (column : Int) : Scan :=
  if s.inFlow then s
  else
    let (indents, indent, tokens) := unrollTo column s.indents s.indent s.tokens
    { s with indents, indent, tokens }

/-- A key cannot have begun any more. A required key must have been one. -/
def dropKey (s : Scan) : Option Scan :=
  match s.keys with
  | some k :: ks => if k.required then none else some { s with keys := none :: ks }
  | _ => some s

def saveKey (s : Scan) : Option Scan :=
  if !s.keyAllowed then some s
  else do
    let s ← s.dropKey
    let c := s.cursor
    let place : KeyPlace :=
      { required := !s.inFlow && s.indent == c.column
        position := s.tokens.size
        index := c.index
        line := c.line
        column := c.column }
    return { s with keys := some place :: s.keys.drop 1 }

def dropStaleKeys (s : Scan) : Option Scan := do
  let keys ← s.keys.mapM fun (k : Option KeyPlace) =>
    match k with
    | some place =>
      if place.line < s.cursor.line || place.index + 1024 < s.cursor.index then
        if place.required then none else some none
      else some (some place)
    | none => some none
  return { s with keys }

private def toTokenFrom (fuel : Nat) (s : Scan) : Scan :=
  match fuel with
  | 0 => s
  | fuel + 1 =>
    let c := s.cursor.skipWhile fun d => d = ' ' || (d = '\t' && (s.inFlow || !s.keyAllowed))
    let c := if c.peek == some '#' then c.skipWhile (!isBreak ·) else c
    if c.atBreak then
      toTokenFrom fuel
        { s with cursor := c.advanceLine, keyAllowed := s.keyAllowed || !s.inFlow }
    else { s with cursor := c }

def toToken (s : Scan) : Scan :=
  toTokenFrom (s.cursor.rest.length + 1) s

end Scan

private def isWordChar (c : Char) : Bool :=
  c.isAlphanum || c = '_' || c = '-'

private def isUriChar (c : Char) : Bool :=
  isWordChar c || ";/?:@&=+$.%!~*'()".toList.contains c

private def endOfLine? (c : Cursor) : Option Cursor :=
  let c := c.skipWhile isSpace
  let c := if c.peek == some '#' then c.skipWhile (!isBreak ·) else c
  if c.atBreak then some c.advanceLine else if c.peek.isNone then some c else none

private def tagHandle? (c : Cursor) : Option (String × Cursor) :=
  if c.peek != some '!' then none
  else
    let word := (c.rest.drop 1).takeWhile isWordChar
    let c' := c.advance (word.length + 1)
    if c'.peek == some '!' then some (String.ofList ('!' :: word ++ ['!']), c'.advance)
    else some (String.ofList ('!' :: word), c')

private def directive? (c : Cursor) : Option (Token × Cursor) := do
  let name := (c.rest.drop 1).takeWhile isWordChar
  let c := c.advance (name.length + 1)
  if !c.gapAt then none
  else if name == "YAML".toList then
    let c := c.skipWhile isSpace
    let number := c.rest.takeWhile fun d => d.isDigit || d = '.'
    if number == "1.1".toList || number == "1.2".toList then
      return (.versionDirective, ← endOfLine? (c.advance 3))
    else none
  else if name == "TAG".toList then
    let (handle, c) ← tagHandle? (c.skipWhile isSpace)
    if !(handle == "!" || handle.endsWith "!") || !c.atSpace then none
    else
      let c := c.skipWhile isSpace
      let address := c.rest.takeWhile isUriChar
      if address.isEmpty then none
      else
        let c := c.advance address.length
        if !c.gapAt then none else return (.tagDirective handle, ← endOfLine? c)
  else none

private def anchorName? (c : Cursor) : Option (String × Cursor) :=
  let name := c.rest.takeWhile isWordChar
  let c := c.advance name.length
  if name.isEmpty then none
  else if c.gapAt || c.peek.any ("?:,]\x7d%@`".toList.contains ·) then
    some (String.ofList name, c)
  else none

private def tag? (c : Cursor) (inFlow : Bool) : Option (Token × Cursor) := do
  let (handle, suffix, c) ←
    if c.peek 1 == some '<' then
      let c := c.advance 2
      let address := c.rest.takeWhile isUriChar
      let c := c.advance address.length
      if address.isEmpty || c.peek != some '>' then none
      else some ("", String.ofList address, c.advance)
    else do
      let (handle, c) ← tagHandle? c
      if handle.endsWith "!" && handle != "!" then
        let suffix := c.rest.takeWhile isUriChar
        if suffix.isEmpty then none
        else some (handle, String.ofList suffix, c.advance suffix.length)
      else
        let more := c.rest.takeWhile isUriChar
        let suffix := handle.toList.drop 1 ++ more
        some (if suffix.isEmpty then ("", "!", c.advance more.length)
          else ("!", String.ofList suffix, c.advance more.length))
  if c.gapAt || (inFlow && c.peek == some ',') then return (.tag handle suffix, c) else none

/-- The line breaks and blank lines between two lines of text: a single break becomes a blank. -/
private def folded (leading : Char) (trailing : List Char) : List Char :=
  if leading = '\n' then (if trailing.isEmpty then [' '] else trailing)
  else leading :: trailing

private def hexValue? (cs : List Char) : Option Nat :=
  cs.foldlM (fun n c =>
    if c.isDigit then some (16 * n + (c.toNat - 48))
    else if 'a' ≤ c && c ≤ 'f' then some (16 * n + (c.toNat - 87))
    else if 'A' ≤ c && c ≤ 'F' then some (16 * n + (c.toNat - 55))
    else none) 0

private def escape? (c : Char) : Option (Char ⊕ Nat) :=
  match c with
  | '0' => some (.inl '\x00')
  | 'a' => some (.inl '\x07')
  | 'b' => some (.inl '\x08')
  | 't' | '\t' => some (.inl '\t')
  | 'n' => some (.inl '\n')
  | 'v' => some (.inl '\x0b')
  | 'f' => some (.inl '\x0c')
  | 'r' => some (.inl '\r')
  | 'e' => some (.inl '\x1b')
  | ' ' => some (.inl ' ')
  | '"' => some (.inl '"')
  | '/' => some (.inl '/')
  | '\\' => some (.inl '\\')
  | 'N' => some (.inl '\u0085')
  | '_' => some (.inl '\u00a0')
  | 'L' => some (.inl '\u2028')
  | 'P' => some (.inl '\u2029')
  | 'x' => some (.inr 2)
  | 'u' => some (.inr 4)
  | 'U' => some (.inr 8)
  | _ => none

private def lineBreaks (fuel : Nat) (c : Cursor) (done : List Char) (spaces : Bool) :
    List Char × Cursor :=
  match fuel with
  | 0 => (done.reverse, c)
  | fuel + 1 =>
    let c := if spaces then c.skipWhile isSpace else c
    if c.atBreak then lineBreaks fuel c.advanceLine (c.lineBreak :: done) spaces
    else (done.reverse, c)

/-- A quoted scalar up to its closing quote; `done` holds its text so far, the last first. -/
private def quotedFrom (fuel : Nat) (double : Bool) (c : Cursor) (done : List Char) :
    Option (String × Cursor) :=
  match fuel with
  | 0 => none
  | fuel + 1 =>
    if c.atDocumentIndicator then none
    else
      match c.peek with
      | none => none
      | some d =>
        if isSpace d then
          let blanks := c.rest.takeWhile isSpace
          let c' := c.advance blanks.length
          if c'.atBreak then quotedFrom fuel double c' done
          else quotedFrom fuel double c' (blanks.reverse ++ done)
        else if isBreak d then
          let (trailing, c') := lineBreaks c.rest.length c.advanceLine [] true
          quotedFrom fuel double c' ((folded c.lineBreak trailing).reverse ++ done)
        else if !double && d = '\'' then
          if c.peek 1 == some '\'' then quotedFrom fuel double (c.advance 2) ('\'' :: done)
          else some (String.ofList done.reverse, c.advance)
        else if double && d = '"' then some (String.ofList done.reverse, c.advance)
        else if double && d = '\\' then
          match c.peek 1 with
          | none => none
          | some e =>
            if isBreak e then
              let (trailing, c') := lineBreaks c.rest.length c.advance.advanceLine [] true
              quotedFrom fuel double c' (trailing.reverse ++ done)
            else
              match escape? e with
              | none => none
              | some (.inl x) => quotedFrom fuel double (c.advance 2) (x :: done)
              | some (.inr n) =>
                let digits := (c.rest.drop 2).take n
                match hexValue? digits with
                | none => none
                | some v =>
                  if digits.length < n || 0x10FFFF < v || (0xD800 ≤ v && v ≤ 0xDFFF) then none
                  else quotedFrom fuel double (c.advance (2 + n)) (Char.ofNat v :: done)
        else quotedFrom fuel double c.advance (d :: done)

/-- The breaks and blank lines inside of a plain scalar: how the first line ended, and the breaks
of blank lines. A tab must not stand where indentation is due. -/
private def plainGap (fuel : Nat) (indent : Int) (c : Cursor) (leading : Option Char)
    (trailing : List Char) : Option (Option Char × List Char × Cursor) :=
  match fuel with
  | 0 => none
  | fuel + 1 =>
    match c.peek with
    | some d =>
      if isSpace d then
        if leading.isSome && (c.column : Int) < indent && d = '\t' then none
        else plainGap fuel indent c.advance leading trailing
      else if isBreak d then
        match leading with
        | none => plainGap fuel indent c.advanceLine (some c.lineBreak) trailing
        | some _ => plainGap fuel indent c.advanceLine leading (c.lineBreak :: trailing)
      else some (leading, trailing.reverse, c)
    | none => some (leading, trailing.reverse, c)

/-- The characters of a plain scalar up to the next gap, or nothing if they are not allowed. -/
private def plainRun (inFlow : Bool) : List Char → Option (List Char)
  | [] => some []
  | d :: ds =>
    if isGap (some d) then some []
    else if inFlow && d = ':' && ds.head?.any (",?[]\x7b\x7d".toList.contains ·) then none
    else if d = ':' && isGap ds.head? then some []
    else if inFlow && ",[]\x7b\x7d".toList.contains d then some []
    else (plainRun inFlow ds).map (d :: ·)

/-- A plain scalar; `done` holds its text so far, the last first, and `gap` what joins it with the
next run. Also tells whether it ends behind a line break. -/
private def plainFrom (fuel : Nat) (s : Scan) (c : Cursor) (done gap : List Char) (broken : Bool)
    (after : Cursor) : Option (String × Cursor × Bool) :=
  let finish := some (String.ofList done.reverse, after, broken)
  match fuel with
  | 0 => none
  | fuel + 1 =>
    if c.atDocumentIndicator || c.peek == some '#' then finish
    else do
      let run ← plainRun s.inFlow c.rest
      let (done, c, broken) :=
        if run.isEmpty then (done, c, broken)
        else (run.reverse ++ (gap.reverse ++ done), c.advance run.length, false)
      let after := if run.isEmpty then after else c
      if !(c.atSpace || c.atBreak) then return (String.ofList done.reverse, after, broken)
      let (leading, trailing, c') ← plainGap (c.rest.length + 1) (s.indent + 1) c none []
      match leading with
      | none => plainFrom fuel s c' done (c.rest.takeWhile isSpace) broken after
      | some l =>
        if !s.inFlow && (c'.column : Int) < s.indent + 1 then
          return (String.ofList done.reverse, c', true)
        else plainFrom fuel s c' done (folded l trailing) true c'

/-- The header of a block scalar: whether and how line breaks at the end are kept, and how far it
is indented. -/
private def blockHeader? (c : Cursor) : Option (Option Bool × Option Nat × Cursor) := do
  let chomp (d : Option Char) : Option Bool :=
    match d with
    | some '+' => some true
    | some '-' => some false
    | _ => none
  let width (d : Option Char) : Option Nat :=
    match d with
    | some d => if d.isDigit then some (d.toNat - 48) else none
    | none => none
  let (k, w, c) :=
    match chomp c.peek, width c.peek with
    | some k, _ =>
      match width (c.peek 1) with
      | some w => (some k, some w, c.advance 2)
      | none => (some k, none, c.advance)
    | none, some w =>
      match chomp (c.peek 1) with
      | some k => (some k, some w, c.advance 2)
      | none => (none, some w, c.advance)
    | none, none => (none, none, c)
  if w == some 0 then none else return (k, w, ← endOfLine? c)

/-- Blank lines of a block scalar up to text that is indented, and the widest indentation met. -/
private def blockBreaks (fuel : Nat) (indent : Option Int) (c : Cursor) (done : List Char)
    (widest : Nat) : Option (List Char × Nat × Cursor) :=
  match fuel with
  | 0 => none
  | fuel + 1 =>
    let limit : List Char → List Char := fun cs =>
      match indent with
      | some i => cs.take (i - c.column).toNat
      | none => cs
    let c := c.advance (limit (c.rest.takeWhile (· = ' '))).length
    let widest := max widest c.column
    if c.peek == some '\t' && (match indent with
        | some i => (c.column : Int) < i
        | none => true) then none
    else if c.atBreak then blockBreaks fuel indent c.advanceLine (c.lineBreak :: done) widest
    else some (done.reverse, widest, c)

/-- Lines of a block scalar. `lead` is the break behind the last line, `blank` tells that this line
began with a blank. -/
private def blockLines (fuel : Nat) (literal : Bool) (indent : Int) (c : Cursor)
    (done : List Char) (lead : List Char) (trailing : List Char) (blank : Bool) :
    Option (List Char × List Char × List Char × Cursor) :=
  match fuel with
  | 0 => none
  | fuel + 1 =>
    if (c.column : Int) != indent || c.peek.isNone then some (done, lead, trailing, c)
    else do
      let startsBlank := c.atSpace
      let joined :=
        if !literal && lead == ['\n'] && !blank && !startsBlank then
          (if trailing.isEmpty then [' '] else trailing)
        else lead ++ trailing
      let text := c.rest.takeWhile (!isBreak ·)
      let c := c.advance text.length
      let done := text.reverse ++ (joined.reverse ++ done)
      if c.peek.isNone then some (done, [], [], c)
      else
        let (trailing, _, c') ← blockBreaks (c.rest.length + 1) (some indent) c.advanceLine [] 0
        blockLines fuel literal indent c' done [c.lineBreak] trailing startsBlank

private def blockScalar? (s : Scan) (literal : Bool) (c : Cursor) : Option (String × Cursor) := do
  let (chomp, width, c) ← blockHeader? c
  let fuel := c.rest.length + 2
  let (indent, trailing, c) ←
    match width with
    | some w => do
      let indent : Int := if 0 ≤ s.indent then s.indent + w else w
      let (trailing, _, c) ← blockBreaks fuel (some indent) c [] 0
      some (indent, trailing, c)
    | none => do
      let (trailing, widest, c) ← blockBreaks fuel none c [] 0
      some (max (max (widest : Int) (s.indent + 1)) 1, trailing, c)
  let (done, lead, trailing, c) ← blockLines fuel literal indent c [] [] trailing false
  let text := done.reverse ++ (if chomp == some false then [] else lead) ++
    (if chomp == some true then trailing else [])
  return (String.ofList text, c)

private def flowEnd (s : Scan) (t : Token) : Option Scan := do
  let s ← s.dropKey
  let keys := if s.inFlow then s.keys.drop 1 else s.keys
  return { s.push t with keys, keyAllowed := false, cursor := s.cursor.advance }

private def value (s : Scan) : Option Scan :=
  match s.keys with
  | some k :: ks =>
    let s := { s with tokens := s.tokens.insertIdx! k.position .key, keys := none :: ks }
    let s := s.roll k.column k.position .mappingStart
    some { s.push .value with keyAllowed := false, cursor := s.cursor.advance }
  | _ =>
    if !s.inFlow && !s.keyAllowed then none
    else
      let s := s.roll s.cursor.column s.tokens.size .mappingStart
      some { s.push .value with keyAllowed := !s.inFlow, cursor := s.cursor.advance }

private def step (s : Scan) : Option Scan := do
  let s ← s.toToken.dropStaleKeys
  let s := s.unroll s.cursor.column
  let c := s.cursor
  match c.peek with
  | none => return s
  | some d =>
    if c.column == 0 && d = '%' then
      let s ← (s.unroll (-1)).dropKey
      let (t, c) ← directive? c
      return { s.push t with keyAllowed := false, cursor := c }
    else if c.atDocumentIndicator then
      let s ← (s.unroll (-1)).dropKey
      let t := if d = '-' then Token.documentStart else .documentEnd
      return { s.push t with keyAllowed := false, cursor := c.advance 3 }
    else if d = '[' || d = '{' then
      let s ← s.saveKey
      let t := if d = '[' then Token.flowSequenceStart else .flowMappingStart
      return { s.push t with keys := none :: s.keys, keyAllowed := true, cursor := c.advance }
    else if d = ']' then flowEnd s .flowSequenceEnd
    else if d = '}' then flowEnd s .flowMappingEnd
    else if d = ',' then
      let s ← s.dropKey
      return { s.push .flowEntry with keyAllowed := true, cursor := c.advance }
    else if d = '-' && c.gapAt 1 then
      if !s.inFlow && !s.keyAllowed then none
      else
        let s ← (s.roll c.column s.tokens.size .sequenceStart).dropKey
        return { s.push .entry with keyAllowed := true, cursor := c.advance }
    else if d = '?' && (s.inFlow || c.gapAt 1) then
      if !s.inFlow && !s.keyAllowed then none
      else
        let s ← (s.roll c.column s.tokens.size .mappingStart).dropKey
        return { s.push .key with keyAllowed := !s.inFlow, cursor := c.advance }
    else if d = ':' && (s.inFlow || c.gapAt 1) then value s
    else if d = '*' || d = '&' then
      let s ← s.saveKey
      let (name, c) ← anchorName? c.advance
      let t := if d = '*' then Token.alias name else .anchor name
      return { s.push t with keyAllowed := false, cursor := c }
    else if d = '!' then
      let s ← s.saveKey
      let (t, c) ← tag? c s.inFlow
      return { s.push t with keyAllowed := false, cursor := c }
    else if !s.inFlow && (d = '|' || d = '>') then
      let s ← s.dropKey
      let (text, c) ← blockScalar? s (d = '|') c.advance
      return { s.push (.scalar text .block) with keyAllowed := true, cursor := c }
    else if d = '\'' || d = '"' then
      let s ← s.saveKey
      let (text, c) ← quotedFrom (c.rest.length + 1) (d = '"') c.advance []
      return { s.push (.scalar text .quoted) with keyAllowed := false, cursor := c }
    else if !(isGap (some d) || "-?:,[]\x7b\x7d#&*!|>'\"%@`".toList.contains d) ||
        (d = '-' && !(c.peek 1).any isSpace) || (!s.inFlow && (d = '?' || d = ':')) then
      let s ← s.saveKey
      let (text, c, broken) ← plainFrom (c.rest.length + 1) s c [] [] false c
      return { s.push (.scalar text .plain) with keyAllowed := broken, cursor := c }
    else none

private def scanFrom (fuel : Nat) (s : Scan) : Option (Array Token) := do
  let s ← step s
  match s.cursor.peek with
  | none =>
    let s := (s.toToken.unroll (-1))
    let s ← s.dropKey
    return s.tokens
  | some _ =>
    match fuel with
    | 0 => none
    | fuel + 1 => scanFrom fuel s

/-- The tokens of a text, or nothing if it cannot be cut into tokens. -/
def scan (text : String) : Option (Array Token) :=
  let cs :=
    match text.toList with
    | '\ufeff' :: cs => cs
    | cs => cs
  if cs.all isAllowed then scanFrom (cs.length + 1) { cursor := ⟨cs, 0, 0, 0⟩ } else none

end CallBridge.Yaml
