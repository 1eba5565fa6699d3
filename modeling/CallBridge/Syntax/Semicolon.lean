import CallBridge.Syntax.Lexeme

/-! # Semicolons that are not written

A statement may end at a line break, in front of a closing brace, or at the end of the source. A
line break does not end it if the next token would carry it on; where an operator could follow, an
opening bracket carries it on as well.
-/
namespace CallBridge.Syntax

private def isPlainSpace (c : Char) : Bool :=
  c = ' ' || (0x09 ≤ c.toNat && c.toNat ≤ 0x0D)

private def isLetter (c : Char) : Bool :=
  ('a' ≤ c && c ≤ 'z') || ('A' ≤ c && c ≤ 'Z')

private def blockCommentStop (s : Source) : (fuel i : Nat) → Nat
  | 0, i => i
  | fuel + 1, i =>
    if s.hasAt i "*/" then i + 2
    else
      match s.glyph? i with
      | some (_, n) => blockCommentStop s fuel (i + n)
      | none => i

/-- The next token behind a line break; none if a slash stands there. -/
private def nextToken? (s : Source) : (fuel i : Nat) → Option Nat
  | 0, i => some i
  | fuel + 1, i =>
    let i := s.skipChars isPlainSpace i
    if s.hasAt i "//" then
      nextToken? s fuel
        (s.skipWhile (fun g => g ≠ .char '\n' && g ≠ .char '\u2028' && g ≠ .char '\u2029')
          (s.size - i) i)
    else if s.hasAt i "/*" then nextToken? s fuel (blockCommentStop s (s.size - i) (i + 2))
    else if s.hasAt i "/" then none
    else some i

/-- The token at an offset does not carry on the line in front of it. -/
private def startsAnew (s : Source) (i : Nat) (operand signature : Bool) : Bool :=
  match s.char? i with
  | none => true
  | some c =>
    if ['`', ',', '.', ';', '*', '%', '>', '<', '=', '?', '^', '|', '&', '/', ':'].contains c then
      false
    else if c = '{' then !signature
    else if c = '(' || c = '[' then !operand
    else if c = '+' then s.charIs (i + 1) (· = '+')
    else if c = '-' then s.charIs (i + 1) (· = '-')
    else if c = '!' then !s.charIs (i + 1) (· = '=')
    else if s.hasAt i "in" then
      if !s.charIs (i + 2) isLetter then false
      else if s.hasAt i "instanceof" then s.charIs (i + 10) isLetter
      else true
    else true

private def endsFrom (s : Source) (operand signature : Bool) : (fuel i : Nat) → Bool
  | 0, _ => true
  | fuel + 1, i =>
    match s.glyph? i with
    | none => true
    | some (.char c, n) =>
      if c = '\x00' then true
      else if c = '}' then
        if s.charIs (s.skipChars isPlainSpace (i + 1)) (· = ':') then operand else true
      else if c = '\n' then
        match nextToken? s (s.size - i) (i + 1) with
        | some j => startsAnew s j operand signature
        | none => false
      else if isPlainSpace c then endsFrom s operand signature fuel (i + n)
      else false
    | some (.invalid, _) => false

/-- A statement may end at an offset without a semicolon. `operand` tells that an operator could
follow, and `signature` that a body could. -/
def endsStatement (s : Source) (i : Nat) (operand signature : Bool) : Bool :=
  endsFrom s operand signature (s.size - i + 1) i

end CallBridge.Syntax
