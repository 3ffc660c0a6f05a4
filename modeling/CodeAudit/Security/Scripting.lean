import CodeAudit.Security.Splice
import CodeAudit.Text.Case
import CodeAudit.Text.Literal

/-!
# User input in pages

In a browser, input must not reach a sink that takes markup; on a server, request data must not
be rendered without escaping.  Words inside quoted literals are not code, so they are left out
before a value is judged.
-/

namespace CodeAudit.Security

/-! ## 1. Browser sinks -/

/-- Words of input in the value of a sink. -/
def inputWords : List String :=
  ["req.", "request.", "params", "query", "body", "form", "input", "user", "data", "value", "location"]

/-- Words of functions that make a value safe. -/
def sanitizerWords : List String := ["escape", "sanitize", "dompurify"]

/-- Whether a value carries input that nothing has made safe. -/
def carriesInput (value : List Char) : Bool :=
  let code := Text.lower (Text.stripLiterals value)
  Text.mentionsAny inputWords code && !Text.mentionsAny sanitizerWords code

/-- The value that a node hands to a sink for markup, if it does. -/
def sinkValue? (s : Snippet) (n : Site) : Option Site :=
  match n.kind with
  | "assignment_expression" | "augmented_assignment_expression" =>
    let property := ((n.field? "left").filter (·.kind == "member_expression")).bind (·.field? "property")
    match property with
    | some p => if isOneOf ["innerHTML", "outerHTML"] (s.text p) then n.field? "right" else none
    | none => none
  | "call_expression" =>
    let callee := n.calleeText s.source
    if isOneOf ["document.write", "document.writeln"] callee ||
        lastSegment callee == "insertAdjacentHTML".toList then n.field? "arguments"
    else none
  | _ => none

def domInjection? (s : Snippet) (n : Site) : Option Vulnerability :=
  (sinkValue? s n).bind fun value =>
    if carriesInput (s.text value) then
      some (((Vulnerability.atSite .xss .high s.source n
        "Potential XSS: user input assigned to innerHTML/outerHTML or used in document.write").describe
        "User input directly inserted into DOM without sanitization"
        "Use textContent instead of innerHTML, or sanitize with DOMPurify").withConfidence s.scores.xssDom)
    else none

/-! ## 2. Server sinks -/

/-- Functions that render a template. -/
def renderFunctions : List String :=
  ["Execute", "ExecuteTemplate", "Render", "render", "render_template", "render_template_string",
    "render_to_string"]

/-- Calls that declare a text to be safe markup. -/
def trustedMarkup : List String := ["template.HTML", "Markup", "markupsafe.Markup", "mark_safe"]

/-- Data of a request. -/
def requestData : Pattern :=
  .oneOf [.chain [.wordEdge, .words ["r", "req", "request"], .char '.'], .word "FormValue",
    .word "URL.Query", .chain [.wordEdge, .word "args", .wordEdge],
    .chain [.wordEdge, .word "form", .wordEdge]]

def markupRemedy : Dialect → String
  | .python => "Rely on template auto-escaping and reserve mark_safe()/Markup() for trusted content"
  | _ => "Use html/template with automatic escaping or html.EscapeString()"

def templateInjection? (s : Snippet) (dialect : Dialect) (n : Site) : Option Vulnerability :=
  if !n.hasKind dialect.callKinds then none
  else
    let callee := n.calleeText s.source
    let args := n.argumentsText s.source
    let sink := isOneOf renderFunctions (lastSegment callee) || isOneOf trustedMarkup callee
    if sink && requestData.occursIn args && !Text.mentions "escape" (Text.lower args) then
      some (((Vulnerability.atSite .xss .high s.source n
        ("Potential XSS in " ++ String.ofList callee ++ ": unescaped user input in HTML output")).describe
        "User input rendered in HTML without proper escaping"
        (markupRemedy dialect)).withConfidence s.scores.xssTemplate)
    else none

/-- User input in pages, one result per line. -/
def scriptInjections (dialect : Dialect) (s : Snippet) : List Vulnerability :=
  Vulnerability.mergeByLine <|
    match dialect with
    | .javascript => s.nodes.filterMap (domInjection? s)
    | .go | .python => s.nodes.filterMap (templateInjection? s dialect)
    | .generic => []

end CodeAudit.Security
