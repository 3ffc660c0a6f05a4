import CodeAudit.Analysis.Support
import CodeAudit.Quality.Delimiter
import CodeAudit.Quality.Duplicate
import CodeAudit.Quality.MissingAwait
import CodeAudit.Quality.Orphan
import CodeAudit.Quality.SilentHandler
import CodeAudit.Quality.Unreachable
import CodeAudit.Quality.Unused
import CodeAudit.Security.Command
import CodeAudit.Security.Crypto
import CodeAudit.Security.Middleware
import CodeAudit.Security.Scripting
import CodeAudit.Security.Secret
import CodeAudit.Security.Sql
import CodeAudit.Selector

/-!
# The battery

Which detector runs for which support, and what all of them say about one snippet.
-/

namespace CodeAudit

/-- The checks of quality. -/
inductive QualityCheck where
  | duplicates
  | unused
  | unreachable
  | orphaned
  | emptyCatch
  | missingAwait
  | braceMismatch
  deriving DecidableEq, Repr, Inhabited

namespace QualityCheck

/-- All checks, in the order in which they run. -/
def all : List QualityCheck :=
  [.duplicates, .unused, .unreachable, .orphaned, .emptyCatch, .missingAwait, .braceMismatch]

/-- The selector that asks for a check. -/
def selector : QualityCheck → Selector
  | .duplicates => .duplicates
  | .unused => .unused
  | .unreachable => .unreachable
  | .orphaned => .orphaned
  | .emptyCatch => .emptyCatch
  | .missingAwait => .missingAwait
  | .braceMismatch => .braceMismatch

/-- The findings of a check in a source of a known language.  Only the script languages have
promises to wait for. -/
def runIn (l : Language) (s : Snippet) : QualityCheck → List Finding
  | .duplicates => Quality.duplicates l.profile s
  | .unused => Quality.unused l s
  | .unreachable => Quality.unreachable l.profile s
  | .orphaned => Quality.orphans l s
  | .emptyCatch => Quality.silentHandlers l s
  | .missingAwait =>
    match l with
    | .javascript | .typescript => Quality.missingAwaits s
    | .go | .python => []
  | .braceMismatch => Quality.mismatches s

/-- The findings of a check; without a grammar there are none. -/
def run (support : Support) (s : Snippet) (c : QualityCheck) : List Finding :=
  match support with
  | .grammar l => c.runIn l s
  | .plainText => []

end QualityCheck

/-- The checks of security. -/
inductive SecurityCheck where
  | sqlInjection
  | scriptInjection
  | commandInjection
  | weakCrypto
  | secrets
  deriving DecidableEq, Repr, Inhabited

/-- The dialect that the checks of security know a support by. -/
def Support.dialect : Support → Security.Dialect
  | .grammar .go => .go
  | .grammar .javascript | .grammar .typescript => .javascript
  | .grammar .python => .python
  | .plainText => .generic

namespace SecurityCheck

/-- All checks, in the order in which they run. -/
def all : List SecurityCheck :=
  [.sqlInjection, .scriptInjection, .commandInjection, .weakCrypto, .secrets]

/-- The vulnerabilities that a check finds. -/
def run (support : Support) (s : Snippet) : SecurityCheck → List Vulnerability
  | .sqlInjection => Security.sqlInjections support.dialect s
  | .scriptInjection => if support.hasGrammar then Security.scriptInjections support.dialect s else []
  | .commandInjection => Security.commandInjections support.dialect s
  | .weakCrypto => Security.weakCrypto support.dialect s
  | .secrets => Security.secrets s

end SecurityCheck

namespace Support

/-- The kinds of functions that can be middleware. -/
def middlewareKinds : Support → List String
  | .grammar .go => ["function_declaration", "method_declaration"]
  | .grammar .javascript | .grammar .typescript => Language.scriptFunctions
  | .grammar .python => ["function_definition"]
  | .plainText => []

/-- What protects the program. -/
def middleware (support : Support) (s : Snippet) : List Finding :=
  match support with
  | .grammar _ => Security.middleware support.middlewareKinds s
  | .plainText => Security.middlewareInText s

end Support

/-- What the battery of security says about a snippet. -/
structure SecurityScan where
  vulnerabilities : List Vulnerability
  middleware : List Finding

namespace Battery

/-- The findings of the checks that are asked for, in the order of their places. -/
def quality (support : Support) (selectors : SelectorSet) (s : Snippet) : List Finding :=
  Finding.sort <|
    (QualityCheck.all.filter fun c => selectors.runs c.selector).flatMap fun c => c.run support s

/-- All vulnerabilities, of each line and kind the surest, and the middleware. -/
def security (support : Support) (s : Snippet) : SecurityScan where
  vulnerabilities := Vulnerability.mergeByLine (SecurityCheck.all.flatMap fun c => c.run support s)
  middleware := support.middleware s

end Battery

end CodeAudit
