import CallBridge.Path
import CallBridge.Syntax.Grammar

/-! # Source files

A source file is read in the dialect that its extension stands for. Declaration files hold no
implementations and are not source files.
-/
namespace CallBridge

def Syntax.Dialect.ofPath? (p : Path) : Option Dialect :=
  match p.extension? with
  | some "ts" | some "mts" | some "cts" => some .plain
  | some "tsx" => some .markup
  | _ => none

/-- The path names a file that may declare exposed methods. -/
def Path.isSource (p : Path) : Bool :=
  !([".d.ts", ".d.mts", ".d.cts"].any fun e => (p.fileName?.getD "").endsWith e) &&
    (Syntax.Dialect.ofPath? p).isSome

structure SourceFile where
  path : Path
  source : Syntax.Source
  tree : Syntax.Tree

namespace SourceFile

/-- Read a source file. Nothing is read if the extension does not stand for a dialect. -/
def read? (path : Path) (bytes : ByteArray) : Option SourceFile :=
  (Syntax.Dialect.ofPath? path).map fun d => ⟨path, ⟨bytes⟩, d.parse ⟨bytes⟩⟩

/-- What is said of a file whose extension does not stand for a dialect. -/
def unsupported (path : Path) : String :=
  "unsupported file type: " ++ path.text

def faultLine? (f : SourceFile) : Option Nat :=
  f.tree.faultLine?

def text (f : SourceFile) (t : Syntax.Tree) : String :=
  f.source.text t.span.start t.span.stop

def directory (f : SourceFile) : Path :=
  f.path.parent?.getD ⟨"/"⟩

end SourceFile

end CallBridge
