import CodeAudit.Language.Basic
import CodeAudit.Snippet

/-!
# The shapes of a grammar

The detectors of quality are the same for every language; what differs is which kinds of nodes a
grammar uses for functions, blocks, jumps and identifiers.  A profile lists them.
-/

namespace CodeAudit

structure Profile where
  /-- Definitions of named functions. -/
  functionKinds : List String
  /-- Everything that has a body with declarations of its own. -/
  bodyKinds : List String
  /-- Named containers that qualify the name of a function inside them. -/
  scopeKinds : List String
  /-- Rows of statements. -/
  blockKinds : List String
  /-- Statements after which the next one is not reached. -/
  terminalKinds : List String
  /-- Identifiers that read a variable. -/
  referenceKinds : List String
  /-- Identifiers that can name a function. -/
  symbolKinds : List String
  commentKinds : List String
  /-- Declarations that take effect wherever they stand in their block. -/
  hoistedKinds : List String
  /-- Names that may be defined more than once. -/
  repeatable : List String

namespace Language

/-- Function declarations of the two script languages. -/
def scriptDeclarations : List String := ["function_declaration", "generator_function_declaration"]

/-- All function-like nodes of the two script languages. -/
def scriptFunctions : List String :=
  scriptDeclarations ++ ["function_expression", "arrow_function", "method_definition"]

/-- The shapes of the two script languages, which differ in the kinds of classes. -/
def scriptProfile (classes : List String) : Profile where
  functionKinds := scriptDeclarations
  bodyKinds := scriptFunctions
  scopeKinds := classes
  blockKinds := ["statement_block", "switch_case", "switch_default"]
  terminalKinds := ["return_statement", "throw_statement", "break_statement", "continue_statement"]
  referenceKinds := ["identifier", "shorthand_property_identifier"]
  symbolKinds := ["identifier", "property_identifier", "shorthand_property_identifier"]
  commentKinds := ["comment"]
  hoistedKinds := scriptDeclarations
  repeatable := []

def profile : Language → Profile
  | .go =>
    { functionKinds := ["function_declaration", "method_declaration"]
      bodyKinds := ["function_declaration", "method_declaration", "func_literal"]
      scopeKinds := []
      blockKinds := ["block", "statement_list", "expression_case", "type_case", "default_case",
        "communication_case"]
      terminalKinds := ["return_statement", "goto_statement", "break_statement",
        "continue_statement"]
      referenceKinds := ["identifier"]
      symbolKinds := ["identifier", "field_identifier"]
      commentKinds := ["comment"]
      hoistedKinds := []
      repeatable := ["init"] }
  | .javascript => scriptProfile ["class_declaration"]
  | .typescript => scriptProfile ["class_declaration", "abstract_class_declaration"]
  | .python =>
    { functionKinds := ["function_definition"]
      bodyKinds := ["function_definition", "lambda"]
      scopeKinds := ["class_definition", "function_definition"]
      blockKinds := ["block"]
      terminalKinds := ["return_statement", "raise_statement", "continue_statement",
        "break_statement"]
      referenceKinds := ["identifier"]
      symbolKinds := ["identifier"]
      commentKinds := ["comment"]
      hoistedKinds := []
      repeatable := [] }

end Language

/-- A name between two pairs of underscores. -/
def isDunder (name : List Char) : Bool :=
  4 < Text.utf8Length name && Text.startsWith "__" name && Text.endsWith "__" name

end CodeAudit
