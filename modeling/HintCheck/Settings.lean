/-
**Settings.**

Settings turn rules on and off and adjust them.  A switch is named after a rule or after a group of
rules, cut at slashes; the switch with the longest name decides.

Main definitions:

* `HintCheck.Settings` — the settings;
* `HintCheck.Settings.enabled` — whether a rule is on;
* `HintCheck.normalizeTags` — names of tags as they are compared;
* `HintCheck.Settings.ofYaml?`, `HintCheck.Settings.read?` — the settings of a document.

Main results:

* `HintCheck.Settings.enabled_of_no_switch` — without switches every rule is on.
-/

import HintCheck.Report.Diagnostic
import HintCheck.Text.Lowercase
import HintCheck.Yaml.Block

set_option relaxedAutoImplicit false
set_option autoImplicit false

namespace HintCheck

/-! ### Names of tags -/

/-- Adds a name at the end unless it is empty or there already. -/
def addTagName (kept : List Text) (name : Text) : List Text :=
  if name.isEmpty || kept.contains name then kept else kept ++ [name]

/-- A tag's name in small letters, without blanks around it and without at signs in front. -/
def normalizeTag (name : Text) : Text :=
  Text.lowercase ((Text.trim name).dropWhile (· == '@'))

/-- The names of tags in the form in which comments hold them, each once. -/
def normalizeTags (names : List Text) : List Text := (names.map normalizeTag).foldl addTagName []

/-! ### The settings -/

/-- The settings for functions and methods. -/
structure MethodSettings where
  /-- Tags that do not belong into a comment. -/
  invalidTags : List Text := []
  /-- Whether a comment without the tag of an array has to get one. -/
  reportMissingTags : Bool := true
  /-- Whether the documented result of a getter is compared with its property. -/
  reportGetterDoc : Bool := true
  /-- Whether the declared result of a getter is compared with its property. -/
  reportGetterDecl : Bool := true
  deriving Repr

/-- The settings of all rules. -/
structure Settings where
  /-- The switches for rules and groups of rules. -/
  switches : List (Text × Bool) := []
  /-- Whether methods are looked up in the classes and interfaces above. -/
  useIndex : Bool := false
  method : MethodSettings := {}
  /-- Tags that do not belong into the comment of a class. -/
  classTags : List Text := ["package".toList]
  iteratorSeverity : Severity := .warning
  deriving Repr

namespace Settings

/-- The beginnings of a name that end in front of a slash, and the name itself, shortest first;
`done` precedes them all. -/
def beginningsFrom (done : Text) : Text → List Text
  | [] => [done]
  | c :: cs =>
    if c = '/' then done :: beginningsFrom (done ++ [c]) cs else beginningsFrom (done ++ [c]) cs

/-- A rule's name and the groups it belongs to, shortest name first. -/
def beginnings (name : Text) : List Text := beginningsFrom [] name

/-- Whether a rule is on: as the switch with the longest name says, and on without any. -/
def enabled (s : Settings) (rule : Text) : Bool :=
  ((beginnings rule).reverse.findSome? fun name => s.switches.lookup name).getD true

theorem enabled_of_no_switch (s : Settings) (h : s.switches = []) (rule : Text) :
    s.enabled rule = true := by
  have hn : (beginnings rule).reverse.findSome? (fun _ => (none : Option Bool)) = none :=
    List.findSome?_eq_none_iff.2 fun _ _ => rfl
  simp [enabled, h, hn]

/-! ### Reading settings -/

/-- The switches with one of them set anew. -/
def setSwitch (switches : List (Text × Bool)) (name : Text) (on : Bool) : List (Text × Bool) :=
  switches.filter (·.1 != name) ++ [(name, on)]

/-- The switches of a map. -/
def switchesOf (v : Yaml) : Option (List (Text × Bool)) := do
  let entries ← v.entries?
  entries.foldlM (fun switches kv => kv.2.bool?.map (setSwitch switches kv.1)) []

/-- The texts of a list. -/
def textsOf (v : Yaml) : Option (List Text) := do
  (← v.items?).mapM Yaml.text?

/-- A settings map with each of its known keys at most once, folded with the reader of an entry.
Other keys are passed over. -/
def readFields {α : Type} (known : List String) (field : α → String → Yaml → Option α) (start : α)
    (v : Yaml) : Option α := do
  let entries ← v.entries?
  let named := entries.filterMap fun kv =>
    (known.find? (·.toList == kv.1)).map fun k => (k, kv.2)
  if (named.map (·.1)).Nodup then named.foldlM (fun a kv => field a kv.1 kv.2) start else none

/-- The settings for methods with one entry read. -/
def methodField (m : MethodSettings) (key : String) (v : Yaml) : Option MethodSettings :=
  match key with
  | "invalid_tags" => (textsOf v).map fun tags => { m with invalidTags := normalizeTags tags }
  | "report_missing_tags" => v.bool?.map fun b => { m with reportMissingTags := b }
  | "report_nullable_basic_getter_doc_type" => v.bool?.map fun b => { m with reportGetterDoc := b }
  | "report_nullable_basic_getter_fn_type" => v.bool?.map fun b => { m with reportGetterDecl := b }
  | _ => some m

/-- The settings for methods of a map. -/
def methodOf (v : Yaml) : Option MethodSettings :=
  readFields
    ["invalid_tags", "report_missing_tags", "report_nullable_basic_getter_doc_type",
      "report_nullable_basic_getter_fn_type"] methodField {} v

/-- The tags of a map for classes. -/
def classTagsOf (v : Yaml) : Option (List Text) :=
  readFields ["invalid_tags"] (fun _ _ tags => (textsOf tags).map normalizeTags)
    ["package".toList] v

/-- The severity of a map for iterators. -/
def iteratorOf (v : Yaml) : Option Severity :=
  readFields ["report_type"] (fun _ _ word => word.text?.bind Severity.ofText?) .warning v

/-- The settings with one entry read. -/
def settingsField (s : Settings) (key : String) (v : Yaml) : Option Settings :=
  match key with
  | "rules" => (switchesOf v).map fun switches => { s with switches }
  | "use_reflection" => v.bool?.map fun b => { s with useIndex := b }
  | "method" => (methodOf v).map fun m => { s with method := m }
  | "description" => (classTagsOf v).map fun tags => { s with classTags := tags }
  | "iterator" => (iteratorOf v).map fun severity => { s with iteratorSeverity := severity }
  | _ => some s

/-- The settings of a value, or nothing when some entry has a wrong type. -/
def ofYaml? (v : Yaml) : Option Settings :=
  readFields ["rules", "use_reflection", "method", "description", "iterator"] settingsField {} v

/-- The settings of a document. -/
def read? (cs : Text) : Option Settings := (Yaml.read? cs).bind ofYaml?

end Settings

end HintCheck
