/-! # The first settings file

The text that a new settings file begins with. It holds the usual settings and leaves out tests.
-/
namespace CallBridge.Command

def template : String :=
  "\n".intercalate [
    "# bridgegen configuration.",
    "#",
    "# Paths are relative to baseDir, which is relative to this file.",
    "",
    "baseDir: .",
    "",
    "# Namespace used by a bare `@expose` decorator or `@expose` comment tag.",
    "defaultNamespace: api",
    "",
    "# Decorator and comment tag name.",
    "annotation: expose",
    "",
    "include:",
    "  - \"src/**/*.ts\"",
    "  - \"src/**/*.tsx\"",
    "exclude:",
    "  - \"**/*.test.ts\"",
    "  - \"**/*.spec.ts\"",
    "",
    "outputs:",
    "  backend: src/main/bridge.generated.ts",
    "  bridge: src/preload/bridge.generated.ts",
    "  types: src/renderer/bridge.generated.d.ts",
    "",
    "runtime:",
    "  backend: \"@bridgegen/runtime/backend\"",
    "  bridge: \"@bridgegen/runtime/bridge\"",
    ""]

end CallBridge.Command
