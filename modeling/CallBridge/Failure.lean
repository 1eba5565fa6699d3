import CallBridge.Method

/-! # Failures

What ends a run as a whole. Only a failed write can come after an output was replaced.
-/
namespace CallBridge

inductive FileFault where
  | missing
  | alreadyExists
  | notDirectory
  | isDirectory
  | other (text : String)
  deriving DecidableEq, Repr, Inhabited

def FileFault.message : FileFault → String
  | missing => "No such file or directory (os error 2)"
  | alreadyExists => "File exists (os error 17)"
  | notDirectory => "Not a directory (os error 20)"
  | isDirectory => "Is a directory (os error 21)"
  | other text => text

inductive GlobFault where
  | unclosedClass
  | invalidRange (low high : Char)
  | unopenedAlternates
  | unclosedAlternates
  | danglingEscape
  deriving DecidableEq, Repr, Inhabited

def GlobFault.message : GlobFault → String
  | unclosedClass => "unclosed character class; missing ']'"
  | invalidRange low high => "invalid range; '" ++ low.toString ++ "' > '" ++ high.toString ++ "'"
  | unopenedAlternates =>
    "unopened alternate group; missing '\x7b' (maybe escape '\x7d' with '[\x7d]'?)"
  | unclosedAlternates =>
    "unclosed alternate group; missing '\x7d' (maybe escape '\x7b' with '[\x7b]'?)"
  | danglingEscape => "dangling '\\'"

/-- Where an imported name comes from: the specifier and the export. -/
structure ImportSource where
  specifier : String
  imported : ImportedName
  deriving DecidableEq, Repr, Inhabited

def ImportSource.describe (s : ImportSource) : String :=
  match s.imported with
  | .named name => "'" ++ s.specifier ++ "' (export " ++ name ++ ")"
  | .default => "'" ++ s.specifier ++ "' (default export)"

inductive Failure where
  | duplicateMethod (first second : Method)
  | ambiguousOwner (namespaceName : String) (owners : List Owner)
  | importCollision (name output : String) (first second : ImportSource)
  | settings (reason : String)
  | document (reason : String)
  | glob (pattern : String) (fault : GlobFault)
  | file (fault : FileFault)
  | walk (path : Path) (fault : FileFault)
  | write (path : Path) (fault : FileFault)
  deriving DecidableEq, Repr, Inhabited

namespace Failure

private def globText (pattern : String) (fault : GlobFault) : String :=
  "error parsing glob '" ++ pattern ++ "': " ++ fault.message

private def walkText (path : Path) (fault : FileFault) : String :=
  "IO error for operation on " ++ path.text ++ ": " ++ fault.message

def message : Failure → String
  | duplicateMethod first second =>
    "duplicate exposed method '" ++ second.key ++ "' declared at " ++ first.location ++ " and " ++
      second.location
  | ambiguousOwner namespaceName owners =>
    "namespace '" ++ namespaceName ++ "' is owned by more than one class: " ++
      ", ".intercalate (owners.map fun o => o.name ++ " (" ++ o.file.text ++ ")")
  | importCollision name output first second =>
    "'" ++ name ++ "' would be imported in " ++ output ++ " from both " ++ first.describe ++
      " and " ++ second.describe
  | settings reason => "invalid configuration: " ++ reason
  | document reason => "failed to parse configuration: " ++ reason
  | glob pattern fault => "invalid glob pattern: " ++ globText pattern fault
  | file fault => "IO error: " ++ fault.message
  | walk path fault => "IO error: " ++ walkText path fault
  | write path fault => "failed to write " ++ path.text ++ ": " ++ fault.message

/-- The messages of what caused the failure, the nearest cause first. -/
def causes : Failure → List String
  | document reason => [reason]
  | glob pattern fault => [globText pattern fault]
  | file fault => [fault.message]
  | walk path fault => [walkText path fault, fault.message]
  | write _ fault => [fault.message]
  | _ => []

def outputsUntouched : Failure → Bool
  | write _ _ => false
  | _ => true

end Failure

end CallBridge
