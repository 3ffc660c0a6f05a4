import CodeAudit.Language.Basic
import CodeAudit.Text.Quoted

/-!
# Support for a language

A request names its language.  A known name gives the language with its grammar; any other name
that is not blank gives plain-text support, under which only the detectors that read lines run.
-/

namespace CodeAudit

/-- Why a request has no answer. -/
inductive AnalysisError where
  /-- The name of the language is blank. -/
  | languageUnsupported (name : String)
  /-- There is no grammar to make a tree with. -/
  | parserUnavailable
  /-- The request was withdrawn, or ran out of time, before its tree was made. -/
  | cancelled
  | unknownSelector (name : String)
  deriving DecidableEq, Repr

/-- How a source is read. -/
inductive Support where
  /-- With the grammar of a language. -/
  | grammar (language : Language)
  /-- Line by line. -/
  | plainText
  deriving DecidableEq, Repr, Inhabited

namespace Support

/-- The name a support goes by. -/
def name : Support → String
  | .grammar l => l.name
  | .plainText => "generic"

def hasGrammar : Support → Bool
  | .grammar _ => true
  | .plainText => false

/-- The support for a language asked for by name. -/
def ofName (name : String) : Except AnalysisError Support :=
  if (Text.trim name.toList).isEmpty then .error (.languageUnsupported name)
  else
    match Language.ofName? name with
    | some l => .ok (.grammar l)
    | none => .ok .plainText

/-- How messages and cache keys name the language: known languages by their one name, others as
they were asked for, without blanks around and in lower case. -/
def languageName (requested : String) : Support → String
  | .grammar l => l.name
  | .plainText => Language.normalName requested

end Support

namespace AnalysisError

def message : AnalysisError → String
  | .languageUnsupported name => "language not supported: " ++ Text.quoted name
  | .parserUnavailable => "no parser available for language " ++ Support.plainText.name
  | .cancelled => "analysis cancelled"
  | .unknownSelector name => "unknown analysis selector: " ++ Text.quoted name

end AnalysisError

/-! ## 1. Registers of languages -/

/-- Why a support cannot be added to a register. -/
inductive RegistryError where
  | duplicate (language : Language)
  /-- The support has no language of its own. -/
  | unknown (name : String)
  deriving DecidableEq, Repr

def RegistryError.message : RegistryError → String
  | .duplicate l => s!"language already registered: {l.name}"
  | .unknown name => "support " ++ Text.quoted name ++ " does not name a known language"

/-- The languages that a register holds. -/
structure Registry where
  entries : List Language := []
  deriving DecidableEq, Repr, Inhabited

namespace Registry

/-- Adds a support; each language can be added once. -/
def register (r : Registry) : Support → Except RegistryError Registry
  | .plainText => .error (.unknown Support.plainText.name)
  | .grammar l => if r.entries.contains l then .error (.duplicate l) else .ok ⟨l :: r.entries⟩

/-- The registered languages, in the order of all languages. -/
def languages (r : Registry) : List Language := Language.all.filter r.entries.contains

end Registry

end CodeAudit
