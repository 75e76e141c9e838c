/-
**Values of a YAML document.**

Settings are written in YAML.  A document is a tree of maps and lists over scalars; what type a
scalar has is up to the reader of the settings, who only needs to know whether it was quoted.

Main definitions:

* `HintCheck.Yaml` — a value;
* `HintCheck.Yaml.bool?`, `HintCheck.Yaml.text?`, `HintCheck.Yaml.items?`,
  `HintCheck.Yaml.entries?` — the value as a value of a type.
-/

import HintCheck.Text.Basic

set_option relaxedAutoImplicit false
set_option autoImplicit false

namespace HintCheck

/-- A value of a YAML document. -/
inductive Yaml where
  /-- A text; `plain` tells that it was written without quotation marks. -/
  | scalar (text : Text) (plain : Bool)
  | list (items : List Yaml)
  | map (entries : List (Yaml × Yaml))

namespace Yaml

/-- The value that stands where nothing was written. -/
def absent : Yaml := scalar [] true

/-- The value as a truth value, which is never quoted. -/
def bool? : Yaml → Option Bool
  | scalar cs true =>
    if ["true", "True", "TRUE"].any (·.toList == cs) then some true
    else if ["false", "False", "FALSE"].any (·.toList == cs) then some false
    else none
  | _ => none

/-- The value as a text. -/
def text? : Yaml → Option Text
  | scalar cs _ => some cs
  | _ => none

/-- The value as a list; nothing is the empty list. -/
def items? : Yaml → Option (List Yaml)
  | list vs => some vs
  | scalar [] true => some []
  | _ => none

/-- The value as a map with texts for keys; nothing is the empty map. -/
def entries? : Yaml → Option (List (Text × Yaml))
  | map kvs => kvs.mapM fun kv => kv.1.text?.map (·, kv.2)
  | scalar [] true => some []
  | _ => none

end Yaml

end HintCheck
