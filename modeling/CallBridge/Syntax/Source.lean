/-! # Source texts

The bytes of a source file, read as characters where they are valid UTF-8. The text of a range is
its characters, and empty if some byte of it is not valid.
-/
namespace CallBridge.Syntax

/-- What stands at a byte offset: a character, or a byte that belongs to none. -/
inductive Glyph where
  | char (c : Char)
  | invalid
  deriving DecidableEq, Repr, Inhabited

structure Source where
  bytes : ByteArray

namespace Source

def byte? (s : Source) (i : Nat) : Option UInt8 :=
  s.bytes[i]?

def trail? (s : Source) (i : Nat) : Option Nat :=
  match s.byte? i with
  | some b => if 0x80 ≤ b && b < 0xC0 then some (b.toNat - 0x80) else none
  | none => none

def valid (n size least : Nat) : Glyph × Nat :=
  if least ≤ n && n < 0x110000 && !(0xD800 ≤ n && n < 0xE000) then (.char (Char.ofNat n), size)
  else (.invalid, 1)

/-- What stands at an offset, and its length in bytes; nothing at the end. -/
def glyph? (s : Source) (i : Nat) : Option (Glyph × Nat) :=
  match s.byte? i with
  | none => none
  | some b =>
    let n := b.toNat
    some <|
      if n < 0x80 then (.char (Char.ofNat n), 1)
      else if 0xC2 ≤ n && n < 0xE0 then
        match s.trail? (i + 1) with
        | some t => valid ((n - 0xC0) * 64 + t) 2 0x80
        | none => (.invalid, 1)
      else if 0xE0 ≤ n && n < 0xF0 then
        match s.trail? (i + 1), s.trail? (i + 2) with
        | some t, some u => valid (((n - 0xE0) * 64 + t) * 64 + u) 3 0x800
        | _, _ => (.invalid, 1)
      else if 0xF0 ≤ n && n < 0xF5 then
        match s.trail? (i + 1), s.trail? (i + 2), s.trail? (i + 3) with
        | some t, some u, some v =>
          valid ((((n - 0xF0) * 64 + t) * 64 + u) * 64 + v) 4 0x10000
        | _, _, _ => (.invalid, 1)
      else (.invalid, 1)

def char? (s : Source) (i : Nat) : Option Char :=
  match s.glyph? i with
  | some (.char c, _) => some c
  | _ => none

def text (s : Source) (start stop : Nat) : String :=
  (String.fromUTF8? (s.bytes.extract start stop)).getD ""

def hasAt (s : Source) (i : Nat) (text : String) : Bool :=
  let b := text.toUTF8
  s.bytes.extract i (i + b.size) == b

def lineFeeds (s : Source) (start stop : Nat) : Nat :=
  (s.bytes.extract start stop).foldl (fun n b => if b = 10 then n + 1 else n) 0

/-- Go forward from an offset while what stands there fulfils a condition. At most `fuel` steps
are taken. -/
def skipWhile (s : Source) (p : Glyph → Bool) : (fuel i : Nat) → Nat
  | 0, i => i
  | fuel + 1, i =>
    match s.glyph? i with
    | some (g, n) => if p g then s.skipWhile p fuel (i + n) else i
    | none => i

def size (s : Source) : Nat :=
  s.bytes.size

end Source

end CallBridge.Syntax
