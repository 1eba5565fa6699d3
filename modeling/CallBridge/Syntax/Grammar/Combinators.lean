import CallBridge.Syntax.Rule

/-! # Forms that many rules share

A text stands for the token that is written so. Lists, names and the parts that functions and
types have in common are given once here.
-/
namespace CallBridge.Syntax.Grammar

instance : Coe String Rule := ⟨fun text => .token text ""⟩

def oneOf (texts : List String) : Rule :=
  .choice (texts.map fun text => .token text "")

/-- A word that begins a longer form. If the line ends behind it, the word is a name instead. -/
def lead (text : String) : Rule :=
  .seq [.token text "", .joined true]

/-- One or more items with commas between them, and perhaps one behind. -/
def commaList (item : Rule) : Rule :=
  .seq [item, .many (.seq [",", item]), .optional ","]

/-- Any number of items with commas between them; an item may be left out. -/
def looseList (item : Rule) : Rule :=
  .seq [.optional item, .many (.seq [",", .optional item])]

/-- A rule in parentheses. Line breaks end nothing within. -/
def parens (rule : Rule) : Rule :=
  .seq ["(", .within false rule, ")"]

def bodyEnd : Rule :=
  .construct "\x7d"

/-- The end of a statement or member that is complete. Where an expression has come before,
a body in braces may end here although a colon follows. -/
def terminator : Rule :=
  .choice [.semicolon true false, .semicolon false false]

def reference : Rule :=
  .leaf .identifier .identifier

def binding : Rule :=
  .leaf .identifier .word

def typeBinding : Rule :=
  .leaf .typeIdentifier .word

def thisWord : Rule :=
  .node .this "this"

def property : Rule :=
  .choice [.leaf .propertyIdentifier .word, .leaf .privatePropertyIdentifier .privateWord]

def typeClause : Rule :=
  .node .typeClause (.seq [":", .ref .type])

def typeParametersOpt : Rule :=
  .optional (.field .typeParameters (.ref .typeParameters))

def typeArgumentsOpt : Rule :=
  .optional (.field .typeArguments (.ref .typeArguments))

def initializer : Rule :=
  .seq [.token "=" "=>", .field .value (.ref .expression)]

def memberEnd : Rule :=
  .choice [",", terminator]

end CallBridge.Syntax.Grammar
