import CallBridge.Syntax.Source
import CallBridge.Text.Blank

/-! # Lexical classes

What a word, a number, a string or a comment is. `Lexeme.stop?` gives the offset at which one that
begins at an offset ends.
-/
namespace CallBridge.Syntax

structure Place where
  pos : Nat
  row : Nat
  deriving DecidableEq, Repr, Inhabited

namespace Source

def charIs (s : Source) (i : Nat) (p : Char → Bool) : Bool :=
  (s.char? i).any p

def skipChars (s : Source) (p : Char → Bool) (i : Nat) : Nat :=
  s.skipWhile (fun g => match g with
    | .char c => p c
    | .invalid => false) (s.size - i) i

def placeAt (s : Source) (p : Place) (stop : Nat) : Place :=
  ⟨stop, p.row + s.lineFeeds p.pos stop⟩

end Source

def isGap (c : Char) : Bool :=
  Text.isBlank c || c = '\ufeff' || c = '\u2060' || c = '\u200b'

def isLineEnd (c : Char) : Bool :=
  c = '\n' || c = '\r' || c = '\u2028' || c = '\u2029'

def isWordPart (c : Char) : Bool :=
  0x20 ≤ c.toNat && !isGap c && !":;`\"'@#.,|^&<=>+-*/\\%?!~()[]\x7b\x7d".toList.contains c

def isHex (c : Char) : Bool :=
  c.isDigit || ('a' ≤ c && c ≤ 'f') || ('A' ≤ c && c ≤ 'F')

def unicodeEscape? (s : Source) (i : Nat) : Option Nat :=
  if !s.hasAt i "\\u" then none
  else if s.charIs (i + 2) (· = '{') then
    let j := s.skipChars isHex (i + 3)
    if i + 3 < j && s.charIs j (· = '}') then some (j + 1) else none
  else if (List.range 4).all fun k => s.charIs (i + 2 + k) isHex then some (i + 6)
  else none

def wordFrom (s : Source) : (fuel i : Nat) → Nat
  | 0, i => i
  | fuel + 1, i =>
    match s.glyph? i with
    | some (.char c, n) =>
      if isWordPart c then wordFrom s fuel (i + n)
      else
        match unicodeEscape? s i with
        | some j => wordFrom s fuel j
        | none => i
    | _ => i

def wordStop? (s : Source) (i : Nat) : Option Nat :=
  let j := wordFrom s (s.size - i) i
  if i < j && !s.charIs i Char.isDigit then some j else none

/-- The end of a comment at an offset. A comment that is not closed is none. -/
def commentStop? (s : Source) (i : Nat) : Option Nat :=
  if s.hasAt i "//" then
    some (s.skipWhile (fun g => match g with
      | .char c => !isLineEnd c && c ≠ '\x00'
      | .invalid => true) (s.size - i) (i + 2))
  else if s.hasAt i "/*" then block (s.size - i) (i + 2)
  else none
where
  block : (fuel i : Nat) → Option Nat
    | 0, _ => none
    | fuel + 1, i =>
      if s.hasAt i "*/" then some (i + 2)
      else
        match s.glyph? i with
        | some (g, n) => if g = .char '\x00' then none else block fuel (i + n)
        | none => none

def skipGaps (s : Source) : (fuel i : Nat) → Nat
  | 0, i => i
  | fuel + 1, i =>
    let j := s.skipChars isGap i
    match commentStop? s j with
    | some k => skipGaps s fuel k
    | none => j

private def digitsStop? (s : Source) (digit : Char → Bool) (i : Nat) : Option Nat :=
  let j := s.skipChars (fun c => digit c || c = '_') i
  if s.charIs i digit then some j else none

private def exponentStop (s : Source) (i : Nat) : Nat :=
  if s.charIs i fun c => c = 'e' || c = 'E' then
    let j := if s.charIs (i + 1) fun c => c = '+' || c = '-' then i + 2 else i + 1
    (digitsStop? s Char.isDigit j).getD i
  else i

def numberStop? (s : Source) (i : Nat) : Option Nat :=
  let big (j : Nat) : Nat := if s.charIs j (· = 'n') then j + 1 else j
  let based (letters : List Char) (digit : Char → Bool) : Option Nat :=
    if s.charIs i (· = '0') && s.charIs (i + 1) letters.contains then
      (digitsStop? s digit (i + 2)).map big
    else none
  (based ['x', 'X'] isHex).orElse fun _ =>
  (based ['b', 'B'] fun c => c = '0' || c = '1').orElse fun _ =>
  (based ['o', 'O'] fun c => '0' ≤ c && c ≤ '7').orElse fun _ =>
  match digitsStop? s Char.isDigit i with
  | some j =>
    if s.charIs j (· = '.') then
      let k := (digitsStop? s Char.isDigit (j + 1)).getD (j + 1)
      some (exponentStop s k)
    else if s.charIs j (· = 'n') then some (j + 1)
    else some (exponentStop s j)
  | none =>
    if s.charIs i (· = '.') then
      (digitsStop? s Char.isDigit (i + 1)).map (exponentStop s)
    else none

def escapeStop? (s : Source) (i : Nat) : Option Nat :=
  match s.glyph? (i + 1) with
  | some (.char 'x', _) =>
    if s.charIs (i + 2) isHex && s.charIs (i + 3) isHex then some (i + 4) else none
  | some (.char 'u', _) => unicodeEscape? s i
  | some (.char '\x00', _) => none
  | some (.char '\r', _) => some (if s.charIs (i + 2) (· = '\n') then i + 3 else i + 2)
  | some (_, n) => some (i + 1 + n)
  | none => none

private def stringFrom (s : Source) (quote : Char) : (fuel i : Nat) → Option Nat
  | 0, _ => none
  | fuel + 1, i =>
    match s.glyph? i with
    | none => none
    | some (.char c, n) =>
      if c = quote then some (i + 1)
      else if c = '\\' then
        match escapeStop? s i with
        | some j => stringFrom s quote fuel j
        | none => none
      else if c = '\n' || c = '\r' then
        let j := skipGaps s (s.size - i) i
        if s.charIs j (· = quote) then some (j + 1) else none
      else if c = '\x00' then none
      else stringFrom s quote fuel (i + n)
    | some (.invalid, n) => stringFrom s quote fuel (i + n)

/-- The end of a quoted string at an offset. Behind a line break only gaps may stand in front of
the closing quote. -/
def stringStop? (s : Source) (i : Nat) : Option Nat :=
  match s.char? i with
  | some c => if c = '\'' || c = '"' then stringFrom s c (s.size - i) (i + 1) else none
  | none => none

private def templateFrom (s : Source) : (fuel i : Nat) → Nat
  | 0, i => i
  | fuel + 1, i =>
    match s.glyph? i with
    | none => i
    | some (.char '`', _) => i
    | some (.char '\x00', _) => i
    | some (.char '$', _) => if s.hasAt i "$\x7b" then i else templateFrom s fuel (i + 1)
    | some (.char '\\', _) =>
      match escapeStop? s i with
      | some j => templateFrom s fuel j
      | none => i
    | some (_, n) => templateFrom s fuel (i + n)

private def regexFrom (s : Source) : (fuel i : Nat) → (inClass : Bool) → Option Nat
  | 0, _, _ => none
  | fuel + 1, i, inClass =>
    match s.glyph? i with
    | none | some (.char '\n', _) | some (.char '\x00', _) => none
    | some (.char '\\', _) =>
      match s.glyph? (i + 1) with
      | none | some (.char '\n', _) => none
      | some (_, n) => regexFrom s fuel (i + 1 + n) inClass
    | some (.char '[', _) => regexFrom s fuel (i + 1) true
    | some (.char ']', _) => regexFrom s fuel (i + 1) false
    | some (.char '/', _) => if inClass then regexFrom s fuel (i + 1) true else some i
    | some (_, n) => regexFrom s fuel (i + n) inClass

def regexStop? (s : Source) (i : Nat) : Option Nat :=
  if s.charIs i (· = '/') && !s.charIs (i + 1) fun c => c = '/' || c = '*' then
    (regexFrom s (s.size - i) (i + 1) false).map fun j =>
      s.skipChars (fun c => 'a' ≤ c && c ≤ 'z') (j + 1)
  else none

def reservedWords : List String :=
  ["break", "case", "catch", "class", "const", "continue", "debugger", "default", "delete", "do",
    "else", "enum", "extends", "false", "finally", "for", "function", "if", "import",
    "in", "instanceof", "new", "null", "return", "super", "switch", "this", "throw", "true", "try",
    "typeof", "undefined", "var", "void", "while", "with"]

inductive Lexeme where
  | word
  | identifier
  | privateWord
  | number
  | string
  | regex
  | templateText
  | elementText
  | elementName
  | hashBang
  deriving DecidableEq, Repr, Inhabited

private def nonEmpty (i j : Nat) : Option Nat :=
  if i < j then some j else none

def Lexeme.stop? (s : Source) (i : Nat) : Lexeme → Option Nat
  | word => wordStop? s i
  | identifier =>
    (wordStop? s i).bind fun j => if reservedWords.contains (s.text i j) then none else some j
  | privateWord => if s.hasAt i "#" then wordStop? s (i + 1) else none
  | number => numberStop? s i
  | string => stringStop? s i
  | regex => regexStop? s i
  | templateText => nonEmpty i (templateFrom s (s.size - i) i)
  | elementText =>
    nonEmpty i (s.skipWhile (fun g => !(['<', '>', '{', '}', '\x00'].any (g = .char ·)))
      (s.size - i) i)
  | elementName =>
    (wordStop? s i).map fun _ => s.skipChars (fun c => isWordPart c || c = '-') i
  | hashBang =>
    if i = 0 && s.hasAt i "#!" then some (s.skipChars (fun c => c ≠ '\n') (i + 2)) else none

end CallBridge.Syntax
