import CodeAudit.Pattern.Build
import CodeAudit.Snippet

/-!
# Values spliced into text

A query or a command that is put together from pieces is where injection begins.  There are three
ways to put values into a string, and each family of languages has its own spelling of them.
-/

namespace CodeAudit.Security

/-- Family of languages that a detector knows the spelling of. -/
inductive Dialect where
  | go
  /-- Both script languages. -/
  | javascript
  | python
  /-- A language without a grammar: text only. -/
  | generic
  deriving DecidableEq, Repr, Inhabited

namespace Dialect

def ofName? : String → Option Dialect
  | "go" => some .go
  | "javascript" => some .javascript
  | "python" => some .python
  | "generic" => some .generic
  | _ => none

/-- Kinds of call nodes. -/
def callKinds : Dialect → List String
  | .python => ["call"]
  | .generic => []
  | .go | .javascript => ["call_expression"]

/-- Kinds of string literals. -/
def stringKinds : Dialect → List String
  | .go => ["interpreted_string_literal", "raw_string_literal"]
  | .javascript => ["string", "template_string"]
  | .python => ["string", "concatenated_string"]
  | .generic => []

end Dialect

/-- How a value gets into a string. -/
inductive Splice where
  | concatenation
  | interpolation
  | formatting
  deriving DecidableEq, Repr

def Splice.name : Splice → String
  | .concatenation => "string concatenation"
  | .interpolation => "string interpolation"
  | .formatting => "string formatting"

/-- A percent sign between a string literal and a value. -/
def percentFormat : Pattern :=
  .chain [.charIn "\"'", .spaces, .char '%', .spaces, .one fun c => Text.isWord c || c == '(']

/-- The opening of a string with substitutions. -/
def formattedString : Pattern :=
  .chain [.wordEdge, .charIn "fF", .optional (.charIn "rR"), .charIn "\"'"]

/-- The formatting that a script writes with operators, methods or prefixed strings. -/
def formatsInline (text : List Char) : Bool :=
  percentFormat.occursIn text || Text.mentions ".format(" text || formattedString.occursIn text

/-- Whether a text formats values, in the spelling of a dialect. -/
def formats (dialect : Dialect) (text : List Char) : Bool :=
  match dialect with
  | .go => Text.mentions "fmt.Sprintf" text
  | .python => formatsInline text
  | .javascript => false
  | .generic => Text.mentions "fmt.Sprintf" text || formatsInline text

/-- Whether a text holds a quote of any sort. -/
def hasLiteral (text : List Char) : Bool :=
  text.contains '"' || text.contains '\'' || text.contains (Char.ofNat 0x60)

/-- The first way in which a text splices values: concatenation before interpolation before
formatting. -/
def findSplice (text : List Char) (dialect : Dialect) : Option Splice :=
  if text.contains '+' && hasLiteral text then some .concatenation
  else if (dialect == .javascript || dialect == .generic) && Text.mentions "$\x7b" text then
    some .interpolation
  else if formats dialect text then some .formatting
  else none

/-- The part of a callee after its last point. -/
def lastSegment (callee : List Char) : List Char := Text.trim (Text.afterLast '.' callee)

/-- Whether a text is one of some words. -/
def isOneOf (words : List String) (text : List Char) : Bool := words.any fun w => w.toList == text

end CodeAudit.Security
