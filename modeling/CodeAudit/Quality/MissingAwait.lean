import CodeAudit.Quality.Profile
import CodeAudit.Text.Case

/-!
# Promises that nobody waits for

Inside an asynchronous function, a call that looks as if it returned a promise should be awaited,
or the promise be handed on to a method that consumes it.  A call belongs to the nearest function
around it: **the search below an asynchronous function stops at every function inside it.**
-/

namespace CodeAudit.Quality

/-- All function-like nodes. -/
def awaitFunctions : List String :=
  ["function_declaration", "function_expression", "function", "arrow_function",
    "method_definition", "generator_function_declaration"]

/-- Methods that consume a promise. -/
def consumers : List (List Char) := ["then".toList, "catch".toList, "finally".toList]

def isAsync (n : Site) : Bool := n.children.any (·.kind == "async")

/-- Whether a callee sounds as if it returned a promise. -/
def looksPromised (callee : List Char) : Bool :=
  let folded := Text.lower callee
  Text.mentions "fetch" folded || Text.endsWith "Async" callee || Text.mentions "promise" folded

/-- Whether a member expression names a consumer. -/
def namesConsumer (s : Snippet) (member : Site) : Bool :=
  consumers.contains (((member.field? "property").map s.text).getD [])

/-- Whether a node is the child in a role of its parent. -/
def inRole (n parent : Site) (role : String) : Bool :=
  match parent.field? role with
  | some child => child.same n
  | none => false

/-- Whether the promise of a call is consumed where it stands: by a method called on it, or
because the call's result is called. -/
def isConsumed (s : Snippet) (call : Site) : Bool :=
  (match call.field? "function" with
    | some callee => callee.kind == "member_expression" && namesConsumer s callee
    | none => false) ||
  (match call.parent? with
    | some parent =>
      (parent.kind == "member_expression" && inRole call parent "object" && namesConsumer s parent) ||
        (parent.kind == "call_expression" && inRole call parent "function")
    | none => false)

/-- Whether a call looks as if its promise was dropped. -/
def isUnawaited (s : Snippet) (call : Site) : Bool :=
  !call.hasAncestor ["await_expression"] awaitFunctions && !isConsumed s call &&
    looksPromised (call.calleeText s.source)

def awaitFinding (s : Snippet) (call : Site) : Finding :=
  (Finding.atSite .missingAwait .error s.source call
    "Potential missing await keyword in async function").withSuggestion
    "Add 'await' keyword before the async call"

/-- The dropped promises of a function's own body. -/
def unawaitedIn (s : Snippet) (body : Site) : List Finding :=
  body.gather fun n =>
    if n.hasKind awaitFunctions then ([], false)
    else if n.kind == "call_expression" && isUnawaited s n then ([awaitFinding s n], true)
    else ([], true)

/-- One finding per dropped promise of an asynchronous function. -/
def missingAwaits (s : Snippet) : List Finding :=
  Finding.sort <| (s.nodes.filter fun n => n.hasKind awaitFunctions && isAsync n).flatMap fun f =>
    match f.field? "body" with
    | some body => unawaitedIn s body
    | none => []

end CodeAudit.Quality
