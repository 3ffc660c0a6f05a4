import CodeAudit.Snippet
import CodeAudit.Text.Case

/-!
# What protects a program

Functions that authenticate, authorise, limit or share are told apart by words in their names and
their code.  The findings are information, not complaints.  **A function that matched is reported
as a whole**: functions inside it are not looked at.

Without a tree the words are looked for in the text, and a class of middleware is reported once.
-/

namespace CodeAudit.Security

/-- A class of middleware: what it is called, what it implements, and how it is recognised in a
function (name and code, in lower case) and in a text (as it stands and in lower case). -/
structure Scheme where
  kind : FindingKind
  name : String
  inFunction : (name code : List Char) → Bool
  inText : (text folded : List Char) → Bool

def schemes : List Scheme :=
  let has := fun w text => Text.mentions w text
  [{ kind := .jwtMiddleware
     name := "BearerAuth"
     inFunction := fun name code =>
      has "jwt" name || has "bearer" name || has "token" name ||
        (has "bearer" code && has "authorization" code) || has "jwt" code || has "jsonwebtoken" code
     inText := fun text folded =>
      (has "Authorization" text && has "bearer" folded) ||
        (has "bearer" folded && has "authorization" folded) || has "jwt" folded ||
        has "jsonwebtoken" folded ||
        (has "token" folded && (has "parse" folded || has "verify" folded)) },
    { kind := .apikeyMiddleware
      name := "ApiKeyAuth"
      inFunction := fun name code =>
        has "apikey" name || has "api_key" name ||
          Text.mentionsAny ["x-api-key", "xapikey", "extractapikey", "validateapikey"] code
      inText := fun text folded =>
        has "X-API-Key" text || has "x-api-key" folded || has "xapikey" folded ||
          has "extractapikey" folded || has "getapikey" folded ||
          (has "apikey" folded && (has "validate" folded || has "check" folded)) },
    { kind := .oauthMiddleware
      name := "OAuth2"
      inFunction := fun name code => has "oauth" name || has "oauth" code
      inText := fun _ folded => has "oauth" folded },
    { kind := .rbacMiddleware
      name := "RBAC"
      inFunction := fun name code =>
        has "rbac" name || has "role" name || has "authorize" name || has "rbac" code ||
          (has "role" code && (has "check" code || has "verify" code))
      inText := fun _ folded =>
        has "rbac" folded || has "permission" folded || has "authorize" folded ||
          (has "role" folded && (has "check" folded || has "verify" folded)) },
    { kind := .ratelimitMiddleware
      name := "RateLimit"
      inFunction := fun name code =>
        has "ratelimit" name || has "rate_limit" name || has "ratelimit" code || has "throttle" code
      inText := fun _ folded =>
        has "ratelimit" folded || has "rate_limit" folded || has "throttle" folded },
    { kind := .corsMiddleware
      name := "CORS"
      inFunction := fun name code =>
        has "cors" name || has "cors" code || has "access-control-allow-origin" code
      inText := fun _ folded =>
        has "cors" folded || has "cross-origin" folded || has "access-control-allow-origin" folded }]

/-! ## 1. With a tree -/

/-- The name of a function, borrowed from the variable it is bound to where it has none. -/
def functionName? (s : Snippet) (n : Site) : Option (List Char) :=
  match n.field? "name" with
  | some name => some (s.text name)
  | none =>
    n.parent?.bind fun parent =>
      if parent.hasKind ["variable_declarator", "assignment_expression", "pair"] then
        ((parent.field? "name").or ((parent.field? "left").or (parent.field? "key"))).map s.text
      else none

/-- Whether a function wraps a handler: its head names the handler type. -/
def wrapsHandler (code : List Char) : Bool :=
  Text.mentions "http.Handler" (Text.upTo '\x7b' code) && Text.mentions "func" code

/-- The classes that a function belongs to, by kind and scheme. -/
def classesOf (s : Snippet) (name code : List Char) : List (FindingKind × String) :=
  let nameLower := Text.lower name
  let codeLower := Text.lower code
  let found := (schemes.filter fun c => c.inFunction nameLower codeLower).map fun c => (c.kind, c.name)
  if found.isEmpty && s.language == "go" && wrapsHandler code then [(.genericMiddleware, "Middleware")]
  else found

def middlewareFinding (s : Snippet) (n : Site) (name : String) : FindingKind × String → Finding
  | (kind, scheme) =>
    let firstLine := Text.trimEnd (((Text.lines (s.text n)).head?).getD [])
    { ((((Finding.atSite kind .info s.source n
        s!"Security middleware detected: {name} ({scheme})").withSuggestion
        s!"Middleware implements {scheme} security scheme").withConfidence s.scores.middleware).withReasoning
        s!"Function {name} matches {scheme} middleware pattern") with
      code := String.ofList firstLine }

/-- The findings of one node; functions inside a function that matched are not looked at. -/
def middlewareAt (functionKinds : List String) (s : Snippet) (n : Site) : List Finding × Bool :=
  if !n.hasKind functionKinds then ([], true)
  else
    match functionName? s n with
    | none => ([], true)
    | some name =>
      let classes := classesOf s name (s.text n)
      (classes.map (middlewareFinding s n (String.ofList name)), classes.isEmpty)

/-! ## 2. Without a tree -/

/-- The line that shows a class by itself, from zero; the first line if none does. -/
def lineOfScheme (c : Scheme) (lines : List (List Char)) : Nat :=
  (lines.findIdx? fun l => c.inText l (Text.lower l)).getD 0

def textFinding (s : Snippet) (lines : List (List Char)) (c : Scheme) : Finding :=
  let line := lineOfScheme c lines
  let base := (((Finding.atLine c.kind .info (line + 1) (lines[line]?.getD [])
    s!"Security middleware detected: {c.name}").withSuggestion
    s!"Middleware implements {c.name} security scheme").withConfidence
    s.scores.middlewareGeneric).withReasoning
    s!"Pattern detected via generic analysis for {s.language} language"
  -- two lines before and two after, as far as there are any
  let start := line - 2
  let stop := min (line + 3) lines.length
  if start < stop then
    { base with code := String.ofList (Text.join "\n" ((lines.take stop).drop start)) }
  else base

/-- One finding per class that the text as a whole shows. -/
def middlewareInText (s : Snippet) : List Finding :=
  let folded := Text.lower s.source
  let lines := Text.lines s.source
  Finding.sort <| (schemes.filter fun c => c.inText s.source folded).map (textFinding s lines)

/-- The middleware of a source. -/
def middleware (functionKinds : List String) (s : Snippet) : List Finding :=
  match s.root? with
  | none => middlewareInText s
  | some root => Finding.sort (root.gather (middlewareAt functionKinds s))

end CodeAudit.Security
