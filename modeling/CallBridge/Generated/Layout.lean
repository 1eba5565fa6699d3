/-! # Layout of generated files

A generated file is a header and further blocks, with a blank line between blocks.
-/
namespace CallBridge.Generated

def header : String :=
  "// This file is generated by bridgegen. Do not edit it by hand.\n" ++
    "// Regenerate with `bridgegen generate`."

/-- The blocks that are not empty, with a blank line between them and a line end behind. -/
def layout (blocks : List String) : String :=
  "\n\n".intercalate (blocks.filter (· ≠ "")) ++ "\n"

def unlines (lines : List String) : String :=
  "\n".intercalate lines

end CallBridge.Generated
