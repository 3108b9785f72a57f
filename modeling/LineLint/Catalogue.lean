/-
**The built-in rules.**

Main definitions:

* `LineLint.Catalogue.script`, `LineLint.Catalogue.python`, `LineLint.Catalogue.layout` — the rules
  for JavaScript and TypeScript, for Python, and for every text;
* `LineLint.Catalogue.builtin` — all of them, in the order in which they report.
-/

import LineLint.Rule

set_option relaxedAutoImplicit false
set_option autoImplicit false

namespace LineLint.Catalogue

/-- The languages of the rules for scripts. -/
def scriptLanguages : List String := ["js", "ts", "jsx", "tsx"]

/-- The rules for JavaScript and TypeScript. -/
def script : List Rule :=
  [{ id := "no-var"
     pattern := "\\bvar\\s+\\w+"
     message := "Use \"let\" or \"const\" instead of \"var\""
     severity := "warning"
     languages := some scriptLanguages },
   { id := "no-debug-statements"
     pattern := "console\\.(log|debug|info)\\("
     message := "Remove debug statements"
     severity := "warning"
     languages := some scriptLanguages },
   { id := "todo-comment"
     pattern := "TODO|FIXME|HACK:"
     message := "TODO/FIXME comment found"
     severity := "info"
     languages := some scriptLanguages },
   { id := "eqeqeq"
     pattern := "(?<![=!])==(?!=)"
     message := "Use === instead of =="
     severity := "warning"
     languages := some scriptLanguages
     fixable := true },
   { id := "array-literal"
     pattern := "new\\s+Array\\("
     message := "Use array literal []"
     severity := "info"
     languages := some scriptLanguages
     fixable := true },
   { id := "throw-error"
     pattern := "throw\\s+new\\s+Error"
     message := "Just \"throw Error\" is enough"
     severity := "info"
     languages := some scriptLanguages }]

/-- The rules for Python. -/
def python : List Rule :=
  [{ id := "bare-except"
     pattern := "except\\s*:"
     message := "Use \"except Exception:\""
     severity := "warning"
     languages := some ["py"] },
   { id := "print-call"
     pattern := "print\\s*\\("
     message := "Consider using logging"
     severity := "info"
     languages := some ["py"] },
   { id := "wildcard-import"
     pattern := "from\\s+\\w+\\s+import\\s+\\*"
     message := "Avoid wildcard imports"
     severity := "warning"
     languages := some ["py"] }]

/-- The rules for the layout of every text.  A carriage return at the end of a line does not count
toward its length. -/
def layout : List Rule :=
  [{ id := "max-line-length"
     pattern := "[^\\r\\n]\x7b120,\x7d"
     message := "Line exceeds 120 characters"
     severity := "info" },
   { id := "trailing-whitespace"
     pattern := "\\s+$"
     message := "Trailing whitespace"
     severity := "info"
     fixable := true },
   { id := "no-tabs"
     pattern := "\\t"
     message := "Use spaces instead of tabs"
     severity := "warning"
     fixable := true }]

/-- All built-in rules, in the order in which they report. -/
def builtin : List Rule := script ++ python ++ layout

end LineLint.Catalogue
