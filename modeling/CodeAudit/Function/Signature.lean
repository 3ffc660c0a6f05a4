import CodeAudit.Function.Basic
import CodeAudit.Quality.Orphan

/-!
# The shapes of definitions

Which nodes define a function, and where in them its name, its parameters and its declared result
stand.  A definition that lacks its name or its parameters is none.
-/

namespace CodeAudit

/-- The parts of a definition. -/
structure Signature where
  definition : Site
  name : Site
  parameters : Site
  result : Option Site

namespace Site

/-- The first named child in a role that is of one of some kinds. -/
def roleOfKind? (n : Site) (role : String) (kinds : List String) : Option Site :=
  n.children.find? fun c => c.label.field == some role && c.label.named && c.hasKind kinds

/-- The first named child in a role. -/
def namedRole? (n : Site) (role : String) : Option Site :=
  n.children.find? fun c => c.label.field == some role && c.label.named

end Site

namespace Signature

/-- Name, parameters and result of a node that holds all of them itself. -/
def direct? (n : Site) (nameKinds parameterKinds : List String) (resultRole : Option String) :
    Option Signature :=
  (n.roleOfKind? "name" nameKinds).bind fun name =>
    (n.roleOfKind? "parameters" parameterKinds).map fun parameters =>
      ⟨n, name, parameters, resultRole.bind n.namedRole?⟩

/-- Parameters and result of a function value. -/
def valueParts? (value : Site) (resultRole : Option String) : Option (Site × Option Site) :=
  let full := (value.roleOfKind? "parameters" ["formal_parameters"]).map fun p =>
    (p, resultRole.bind value.namedRole?)
  match value.kind with
  | "arrow_function" =>
    full.or ((value.roleOfKind? "parameter" ["identifier"]).map fun p => (p, none))
  | "function_expression" => full
  | _ => none

/-- A variable that holds a function. -/
def ofVariable? (n : Site) (resultRole : Option String) : Option Signature :=
  (n.roleOfKind? "name" ["identifier"]).bind fun name =>
    ((n.fields "value").filter (·.label.named)).findSome? fun value =>
      (valueParts? value resultRole).map fun (parameters, result) => ⟨n, name, parameters, result⟩

/-- Definitions of the two script languages; only one of them declares results. -/
def ofScript? (n : Site) (resultRole : Option String) : Option Signature :=
  match n.kind with
  | "function_declaration" | "generator_function_declaration" =>
    direct? n ["identifier"] ["formal_parameters"] resultRole
  | "variable_declarator" => ofVariable? n resultRole
  | "method_definition" =>
    (n.namedRole? "name").bind fun name =>
      (n.roleOfKind? "parameters" ["formal_parameters"]).map fun parameters =>
        ⟨n, name, parameters, resultRole.bind n.namedRole?⟩
  | _ => none

end Signature

namespace Language

/-- The parts of a definition; `none` for a node that defines no function. -/
def signature? (l : Language) (n : Site) : Option Signature :=
  if !n.label.named then none
  else
    match l with
    | .go =>
      match n.kind with
      | "function_declaration" =>
        Signature.direct? n ["identifier"] ["parameter_list"] (some "result")
      | "method_declaration" =>
        Signature.direct? n ["field_identifier"] ["parameter_list"] (some "result")
      | _ => none
    | .javascript => Signature.ofScript? n none
    | .typescript => Signature.ofScript? n (some "return_type")
    | .python =>
      if n.kind == "function_definition" then
        Signature.direct? n ["identifier"] ["parameters"] (some "return_type")
      else none

/-- The kinds of classes that own methods. -/
def ownerKinds : Language → List String
  | .go => []
  | .javascript => ["class_declaration", "class"]
  | .typescript => ["class_declaration", "abstract_class_declaration", "class"]
  | .python => ["class_definition"]

/-- Who can see a function. -/
def visibility (l : Language) (source : List Char) (n : Site) (name : List Char) : Visibility :=
  match l with
  | .go => if startsUpper name then .exported else .hidden
  | .javascript | .typescript =>
    let restricted := match n.childOfKind? ["accessibility_modifier"] with
      | some m => ["private".toList, "protected".toList].contains (m.text source)
      | none => false
    if name.head? == some '#' || restricted then .hidden
    else if (n.enclosing? ["export_statement"]).isSome then .exported
    else .visible
  | .python => if name.head? == some '_' && !isDunder name then .hidden else .visible

end Language

end CodeAudit
