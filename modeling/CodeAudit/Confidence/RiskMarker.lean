import CodeAudit.Language.Basic
import CodeAudit.Pattern.Build
import CodeAudit.Settings.Basic

/-!
# Risk markers

Reflection, imports at run time and plugins reach code that no look at the tree sees, so a finding
that says "never used" is weaker in their presence; and a generated file is not worth editing.
Markers are found in the text by patterns, each with the name it is reported under, and add up to
a penalty.  **Generated code overrides**: its penalty takes the place of all others.
-/

namespace CodeAudit

/-- A pattern of a family, with the name it is reported under. -/
structure Marker where
  name : String
  pattern : Pattern

/-- What was found in a source, and what it takes off every confidence. -/
structure RiskMarkers where
  reflection : Bool := false
  dynamicImport : Bool := false
  plugin : Bool := false
  generated : Bool := false
  penalty : Float := 0.0
  /-- What matched: names of patterns, then the text of the generated-code banner. -/
  patterns : List String := []
  deriving Inhabited

namespace Marker

/-- A marker that is a fixed word; `name` is how it is reported. -/
def fixed (name word : String) : Marker := ⟨name, .word word⟩

/-- A marker that is a word and then an opening parenthesis, with blanks allowed between. -/
def opening (name word : String) : Marker := ⟨name, .chain [.word word, .spaces, .char '(']⟩

/-- An import of a computed module: between the parenthesis and `operator` nothing is closed. -/
def computed (name : String) (operator : Char) : Marker :=
  ⟨name, .chain [.word "require", .spaces, .char '(', .many (.charNotIn ")"), .char operator]⟩

/-! ## 1. Families -/

def goReflection : List Marker :=
  [.fixed "reflect\\.ValueOf" "reflect.ValueOf", .fixed "reflect\\.TypeOf" "reflect.TypeOf",
    .fixed "reflect\\.MethodByName" "reflect.MethodByName", .fixed "reflect\\.Call" "reflect.Call",
    .fixed "\\.MethodByName\\(" ".MethodByName(", .fixed "reflect\\.New" "reflect.New"]

def goPlugin : List Marker :=
  [.fixed "plugin\\.Open" "plugin.Open", .fixed "plugin\\.Lookup" "plugin.Lookup",
    .fixed "\\.Lookup\\(" ".Lookup("]

def scriptReflection : List Marker :=
  [.opening "eval\\s*\\(" "eval", .opening "Function\\s*\\(" "Function",
    .fixed "new Function" "new Function", .fixed "\\.constructor" ".constructor",
    .fixed "Object\\.getOwnPropertyNames" "Object.getOwnPropertyNames", .fixed "Reflect\\." "Reflect."]

def scriptDynamicImport : List Marker :=
  [.opening "import\\s*\\(" "import", .computed "require\\s*\\([^)]*\\+" '+',
    .computed "require\\s*\\([^)]*\\[" '[', .fixed "System\\.import" "System.import",
    .fixed "__webpack_require__" "__webpack_require__"]

def pythonReflection : List Marker :=
  [.opening "eval\\s*\\(" "eval", .opening "exec\\s*\\(" "exec", .opening "getattr\\s*\\(" "getattr",
    .opening "setattr\\s*\\(" "setattr", .opening "hasattr\\s*\\(" "hasattr",
    .fixed "__getattribute__" "__getattribute__", .fixed "__setattr__" "__setattr__",
    .fixed "inspect\\." "inspect."]

def pythonDynamicImport : List Marker :=
  [.opening "__import__\\s*\\(" "__import__", .fixed "importlib\\." "importlib.",
    .fixed "imp\\.load_module" "imp.load_module", .fixed "imp\\.find_module" "imp.find_module"]

def plainReflection : List Marker :=
  [.opening "eval\\s*\\(" "eval", .opening "exec\\s*\\(" "exec", .opening "\\.call\\s*\\(" ".call",
    .opening "\\.apply\\s*\\(" ".apply"]

/-- Reflection in a language; sources without a grammar have a family of their own. -/
def reflection : Option Language → List Marker
  | some .go => goReflection
  | some .javascript | some .typescript => scriptReflection
  | some .python => pythonReflection
  | none => plainReflection

/-- Imports at run time. -/
def dynamicImport : Option Language → List Marker
  | some .javascript | some .typescript => scriptDynamicImport
  | some .python => pythonDynamicImport
  | some .go | none => []

/-- Plugins. -/
def plugin : Option Language → List Marker
  | some .go => goPlugin
  | _ => []

/-- A comment that says the file was generated. -/
def banner : Pattern :=
  .chain [.words ["//", "#", "<!--"], .spaces,
    .wordsAnyCase ["code generated", "do not edit", "this file was generated", "@generated", "autogenerated"]]

/-- The members of a family that occur in a source. -/
def present (family : List Marker) (source : List Char) : List String :=
  (family.filter fun m => m.pattern.occursIn source).map Marker.name

end Marker

namespace RiskMarkers

/-! ## 2. Penalty and cause -/

/-- The penalty for what was found. -/
def penaltyOf (p : Penalties) (m : RiskMarkers) : Float :=
  if m.generated then p.generated
  else
    let total := 0.0 + (if m.reflection then p.reflection else 0.0)
    let total := total + (if m.dynamicImport then p.dynamicImport else 0.0)
    let total := total + (if m.plugin then p.plugin else 0.0)
    if total < 1.0 then total else 1.0

/-- The markers of a source in a language, given by name. -/
def ofSource (p : Penalties) (source : List Char) (language : String) : RiskMarkers :=
  let known := Language.ofName? language
  let reflection := Marker.present (Marker.reflection known) source
  let dynamicImport := Marker.present (Marker.dynamicImport known) source
  let plugin := Marker.present (Marker.plugin known) source
  let banner := (Marker.banner.find? source).bind fun m => Text.slice m.start m.stop source
  let found : RiskMarkers :=
    { reflection := !reflection.isEmpty
      dynamicImport := !dynamicImport.isEmpty
      plugin := !plugin.isEmpty
      generated := banner.isSome
      patterns := reflection ++ dynamicImport ++ plugin ++ banner.toList.map String.ofList }
  { found with penalty := penaltyOf p found }

/-- The sentence that names the main cause of the penalty. -/
def cause? (m : RiskMarkers) : Option String :=
  if m.generated then some "Generated code detected, manual changes would be overwritten"
  else if m.reflection then some "Reflection detected, references may be invisible to static analysis"
  else if m.dynamicImport then some "Dynamic imports detected, modules may be loaded at runtime"
  else if m.plugin then some "Plugin loading detected, symbols may be resolved at runtime"
  else none

end RiskMarkers

end CodeAudit
