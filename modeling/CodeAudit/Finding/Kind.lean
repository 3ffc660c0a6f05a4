import CodeAudit.Text.Case

/-!
# Severities and kinds of findings

Two scales of severity share one type: quality findings are errors, warnings or information,
vulnerabilities go from critical to low.  A kind says what was found; it settles what sort of fix
would apply, and **a kind that is about security is never fixed without a human**.
-/

namespace CodeAudit

inductive Severity where
  | critical
  | high
  | medium
  | low
  | error
  | warning
  | info
  deriving DecidableEq, Repr, Inhabited

namespace Severity

def all : List Severity := [.critical, .high, .medium, .low, .error, .warning, .info]

def name : Severity → String
  | .critical => "critical"
  | .high => "high"
  | .medium => "medium"
  | .low => "low"
  | .error => "error"
  | .warning => "warning"
  | .info => "info"

/-- Weight in the risk score; the quality scale has none. -/
def weight : Severity → Float
  | .critical => 10.0
  | .high => 7.0
  | .medium => 4.0
  | .low => 1.0
  | _ => 0.0

/-- Rank on one scale that joins the two: the worse, the higher. -/
def rank : Severity → Nat
  | .critical => 5
  | .high | .error => 4
  | .medium | .warning => 3
  | .low => 2
  | .info => 1

/-- The severity with a name, in any letter case. -/
def ofName? (s : String) : Option Severity := all.find? fun v => v.name == Text.lowerString s

theorem ofName?_name (v : Severity) : ofName? v.name = some v := by cases v <;> decide

end Severity

/-- What was found. -/
inductive FindingKind where
  | duplicateFunction
  | unusedVariable
  | unreachableCode
  | orphanedCode
  | emptyCatch
  | missingAwait
  | braceMismatch
  | sqlInjection
  | xss
  | commandInjection
  | insecureCrypto
  | hardcodedSecret
  | jwtMiddleware
  | apikeyMiddleware
  | oauthMiddleware
  | rbacMiddleware
  | ratelimitMiddleware
  | corsMiddleware
  | genericMiddleware
  deriving DecidableEq, Repr, Inhabited

/-- What an automated fix would do. -/
inductive FixType where
  | delete
  | refactor
  | comment
  deriving DecidableEq, Repr, Inhabited

def FixType.name : FixType → String
  | .delete => "delete"
  | .refactor => "refactor"
  | .comment => "comment"

namespace FindingKind

def all : List FindingKind :=
  [.duplicateFunction, .unusedVariable, .unreachableCode, .orphanedCode, .emptyCatch,
    .missingAwait, .braceMismatch, .sqlInjection, .xss, .commandInjection, .insecureCrypto,
    .hardcodedSecret, .jwtMiddleware, .apikeyMiddleware, .oauthMiddleware, .rbacMiddleware,
    .ratelimitMiddleware, .corsMiddleware, .genericMiddleware]

def name : FindingKind → String
  | .duplicateFunction => "duplicate_function"
  | .unusedVariable => "unused_variable"
  | .unreachableCode => "unreachable_code"
  | .orphanedCode => "orphaned_code"
  | .emptyCatch => "empty_catch"
  | .missingAwait => "missing_await"
  | .braceMismatch => "brace_mismatch"
  | .sqlInjection => "sql_injection"
  | .xss => "xss"
  | .commandInjection => "command_injection"
  | .insecureCrypto => "insecure_crypto"
  | .hardcodedSecret => "hardcoded_secret"
  | .jwtMiddleware => "jwt_middleware"
  | .apikeyMiddleware => "apikey_middleware"
  | .oauthMiddleware => "oauth_middleware"
  | .rbacMiddleware => "rbac_middleware"
  | .ratelimitMiddleware => "ratelimit_middleware"
  | .corsMiddleware => "cors_middleware"
  | .genericMiddleware => "generic_middleware"

/-- The kind with exactly this name. -/
def ofName? (s : String) : Option FindingKind := all.find? fun k => k.name == s

/-- Whether the kind is a vulnerability.  The middleware kinds are not: they describe what
protects a program. -/
def isSecurity : FindingKind → Bool
  | .sqlInjection | .xss | .commandInjection | .insecureCrypto | .hardcodedSecret => true
  | _ => false

/-- The sort of fix that applies. -/
def fixType : FindingKind → FixType
  | .orphanedCode | .unusedVariable => .delete
  | .emptyCatch | .duplicateFunction | .missingAwait => .refactor
  | _ => .comment

theorem ofName?_name (k : FindingKind) : ofName? k.name = some k := by cases k <;> decide

end FindingKind

end CodeAudit
