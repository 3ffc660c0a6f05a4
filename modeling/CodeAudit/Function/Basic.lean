import CodeAudit.Finding.Basic
import CodeAudit.Language.Basic

/-!
# Functions of a source

What is told about a definition: its name and place, its parameters, its visibility, the comment
that documents it, and a few facts by name.
-/

namespace CodeAudit

inductive Visibility where
  | visible
  | hidden
  | exported
  deriving DecidableEq, Repr, Inhabited

def Visibility.name : Visibility → String
  | .visible => "public"
  | .hidden => "private"
  | .exported => "exported"

structure Function where
  name : List Char
  language : Language
  span : Span
  parameters : List String
  returnType : Option String
  visibility : Visibility
  documentation : String
  code : String
  /-- Facts by name, in the order of the names. -/
  metadata : List (String × String)
  deriving Inhabited

namespace Function

/-- Whether the name contains a keyword, letter case aside; an empty keyword is in every name. -/
def matchesKeyword (f : Function) (keyword : String) : Bool :=
  keyword.isEmpty || Text.hasInfix (Text.lower keyword.toList) (Text.lower f.name)

/-- Order of listing: by line, then column. -/
def le (a b : Function) : Bool :=
  if a.span.line ≠ b.span.line then a.span.line < b.span.line else a.span.column ≤ b.span.column

end Function

end CodeAudit
