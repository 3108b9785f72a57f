/-
**The language of a text.**

Main definitions:

* `LineLint.languageFor` — the ending of a file name, in lower case.
-/

import LineLint.Path
import LineLint.Text.Case

set_option relaxedAutoImplicit false
set_option autoImplicit false

namespace LineLint

/-- The language of the text with a given name: the ending of the last component, in lower case.  A
backslash divides components as a slash does. -/
def languageFor (source : String) : Option String :=
  let slashed := source.toList.map (fun c => if c = '\\' then '/' else c)
  (Path.ofText (String.ofList slashed)).ending.map Text.lower

end LineLint
