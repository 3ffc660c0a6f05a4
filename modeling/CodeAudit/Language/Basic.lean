import CodeAudit.Path
import CodeAudit.Text.Case

/-!
# Languages

The languages that a grammar is known for, and the three ways to find out which one a source is
written in: by a name, by the extension of its file, and by a guess from the text.
-/

namespace CodeAudit

inductive Language where
  | go
  | javascript
  | typescript
  | python
  deriving DecidableEq, Repr, Inhabited

namespace Language

/-- Every language, in the order in which they are listed. -/
def all : List Language := [.go, .javascript, .typescript, .python]

/-- The one name a language goes by in answers. -/
def name : Language → String
  | .go => "go"
  | .javascript => "javascript"
  | .typescript => "typescript"
  | .python => "python"

/-- The names a language can be asked for by. -/
def aliases : Language → List String
  | .go => ["go", "golang"]
  | .javascript => ["javascript", "js", "jsx", "mjs", "node"]
  | .typescript => ["typescript", "ts", "tsx"]
  | .python => ["python", "py", "python3"]

/-- The extensions of a language's files. -/
def extensions : Language → List String
  | .go => ["go"]
  | .javascript => ["js", "jsx", "mjs", "cjs"]
  | .typescript => ["ts", "tsx", "mts", "cts"]
  | .python => ["py", "pyw"]

/-- A name as it is compared: without blanks around it, in lower case. -/
def normalName (s : String) : String := String.ofList (Text.lower (Text.trim s.toList))

/-- The language asked for by a name. -/
def ofName? (s : String) : Option Language := all.find? fun l => l.aliases.contains (normalName s)

/-- The language of a file, by its extension in any letter case. -/
def ofPath? (p : Path) : Option Language :=
  p.extension?.bind fun e =>
    all.find? fun l => l.extensions.contains (String.ofList (Text.lower e))

/-- A guess from the text, by words that only one language is likely to hold. -/
def guess? (source : List Char) : Option Language :=
  let has := fun w => Text.mentions w source
  if has "package " && has "func " then some .go
  else if has "def " && has ":" && !source.contains '\x7b' then some .python
  else if has "interface " || has ": string" || has ": number" then some .typescript
  else if has "function" || has "const " || has "=>" then some .javascript
  else none

/-- A language's own name is one of its aliases. -/
theorem ofName?_name (l : Language) : ofName? l.name = some l := by cases l <;> decide

end Language

end CodeAudit
