import CallBridge.Text.Quoted

/-! # Structured documents

Values of the JSON data format whose members keep their order, and their indented text.
-/
namespace CallBridge.Report

inductive Document where
  | bool (b : Bool)
  | number (n : Nat)
  | text (s : String)
  | list (items : List Document)
  | object (members : List (String × Document))
  deriving Repr, Inhabited

namespace Document

private def pad (depth : Nat) : String :=
  String.ofList (List.replicate (2 * depth) ' ')

mutual

def textAt (depth : Nat) : Document → String
  | bool b => if b then "true" else "false"
  | number n => toString n
  | text s => Text.jsonString s
  | list [] => "[]"
  | list items => "[\n" ++ itemsAt (depth + 1) items ++ "\n" ++ pad depth ++ "]"
  | object [] => "\x7b\x7d"
  | object members => "\x7b\n" ++ membersAt (depth + 1) members ++ "\n" ++ pad depth ++ "\x7d"

def itemsAt (depth : Nat) : List Document → String
  | [] => ""
  | [d] => pad depth ++ textAt depth d
  | d :: ds => pad depth ++ textAt depth d ++ ",\n" ++ itemsAt depth ds

def membersAt (depth : Nat) : List (String × Document) → String
  | [] => ""
  | [(k, d)] => pad depth ++ Text.jsonString k ++ ": " ++ textAt depth d
  | (k, d) :: ms =>
    pad depth ++ Text.jsonString k ++ ": " ++ textAt depth d ++ ",\n" ++ membersAt depth ms

end

def pretty (d : Document) : String :=
  textAt 0 d

end Document

end CallBridge.Report
