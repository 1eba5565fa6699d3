/-! # Names

The two classes of names that the generated files rely on. Both hold ASCII characters only. Names
that are numbered are told apart by their numbers.
-/
namespace CallBridge.Text

def isLetter (c : Char) : Bool :=
  ('a' ≤ c && c ≤ 'z') || ('A' ≤ c && c ≤ 'Z')

def isDigit (c : Char) : Bool :=
  '0' ≤ c && c ≤ '9'

/-- A small letter, then letters and digits. Namespaces are of this form. -/
def isCamelCase (s : String) : Bool :=
  match s.toList with
  | [] => false
  | c :: cs => ('a' ≤ c && c ≤ 'z') && cs.all fun d => isLetter d || isDigit d

/-- A letter, underscore or dollar sign, then these and digits. -/
def isIdentifier (s : String) : Bool :=
  match s.toList with
  | [] => false
  | c :: cs =>
    (isLetter c || c == '_' || c == '$') &&
      cs.all fun d => isLetter d || isDigit d || d == '_' || d == '$'

theorem toString_injective : Function.Injective (toString : Nat → String) := by
  intro i j h
  have hd := congrArg (fun s => Nat.ofDigitChars 10 s.toList 0) h
  simpa [Nat.toString_eq_ofList_toDigits] using hd

end CallBridge.Text
