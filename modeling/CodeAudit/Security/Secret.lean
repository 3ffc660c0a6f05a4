import CodeAudit.Pattern.Build
import CodeAudit.Snippet
import CodeAudit.Text.Case
import CodeAudit.Text.Literal

/-!
# Credentials in the source

A table of patterns knows the usual forms of keys, and a pass over the tree finds string literals
bound to names that sound like a credential.  Both report the code with the credential masked: the
table masks its second group, or the whole match where that group took no part.
-/

namespace CodeAudit.Security

/-! ## 1. The table -/

/-- A form of credential. -/
structure SecretRule where
  name : String
  pattern : Pattern
  severity : Severity

/-- Confidence of every rule of the table. -/
def secretConfidence : Float := 0.85

/-- A character of a class of English letters, digits and a few others, letter case aside. -/
def keyChar (others : String) : Pattern :=
  .one fun c =>
    let f := Pattern.fold c
    Text.isAsciiLetter f || Text.isAsciiDigit f || others.toList.contains f

/-- A letter or digit of the English alphabet, as it stands. -/
def plainKeyChar : Pattern := .one fun c => Text.isAsciiLetter c || Text.isAsciiDigit c

def quoteChar : Pattern := .charIn "\"'"

/-- A name, then `=` or `:`, then a value in quotes, which is the second group. -/
def assigned (name value : Pattern) : Pattern :=
  .chain [.group 1 name, .spaces, .charIn "=:", .spaces, quoteChar, .group 2 value, quoteChar]

def secretRules : List SecretRule :=
  [⟨"api_key",
      assigned (.oneOf [.chain [.anyCase "api", .optional (.charIn "_-"), .anyCase "key"], .anyCase "apikey"])
        (.times 16 none (keyChar "_-")), .critical⟩,
    ⟨"aws_access_key",
      .chain [.word "AKIA", .times 16 (some 16) (.one fun c => Text.isAsciiDigit c || ('A' ≤ c && c ≤ 'Z'))],
      .critical⟩,
    ⟨"aws_secret_key",
      .chain [.anyCase "aws", .optional (.group 1 (.times 0 (some 20) .anyChar)),
        .optional (.group 2 (.wordsAnyCase ["secret", "private"])), .times 0 (some 20) .anyChar, quoteChar,
        .times 40 (some 40) (keyChar "/+"), quoteChar],
      .critical⟩,
    ⟨"password",
      assigned (.wordsAnyCase ["password", "passwd", "pwd"]) (.times 8 none (.charNotIn "\"'")), .high⟩,
    ⟨"bearer_token",
      assigned (.wordsAnyCase ["token", "bearer", "secret"]) (.times 20 none (keyChar "_-.")), .high⟩,
    ⟨"private_key",
      .chain [.word "-----BEGIN ", .optional (.group 1 (.words ["RSA ", "EC ", "DSA ", "OPENSSH "])),
        .word "PRIVATE KEY-----"],
      .critical⟩,
    ⟨"stripe_key",
      .chain [.group 1 (.words ["sk", "pk", "rk"]), .char '_', .group 2 (.words ["live", "test"]), .char '_',
        .times 10 none plainKeyChar],
      .critical⟩]

def secretRemedy : String := "Move secret to environment variable or secure secret management system"

/-- The part of a match that is masked: its second group, else all of it. -/
def maskedPart (m : Pattern.Match) : Nat × Nat :=
  match m.capture? 2 with
  | some c => (c.start, c.stop)
  | none => (m.start, m.stop)

/-- What one rule says about one line. -/
def secretInLine? (line : Nat) (text : List Char) (rule : SecretRule) : Option Vulnerability :=
  (rule.pattern.find? text).map fun m =>
    let (start, stop) := maskedPart m
    (((Vulnerability.atLine .hardcodedSecret rule.severity line text
      s!"Potential hardcoded {rule.name} detected").describe
      s!"Hardcoded {rule.name} found in source code" secretRemedy).withConfidence
      secretConfidence).withCode (Text.trim (Text.redact text start stop))

/-- The table, applied to every line. -/
def secretsByTable (s : Snippet) : List Vulnerability :=
  s.lines.flatMap fun (line, text) => secretRules.filterMap (secretInLine? line text)

/-! ## 2. Literals bound to telling names -/

/-- Nodes that bind a value to a name. -/
def secretBindings : List String :=
  ["short_var_declaration", "assignment_statement", "const_spec", "var_spec", "variable_declarator",
    "assignment", "pair"]

def literalKinds : List String :=
  ["interpreted_string_literal", "raw_string_literal", "string", "template_string"]

/-- Parts of names that sound like a credential. -/
def secretWords : List String :=
  ["secret", "password", "passwd", "token", "apikey", "api_key", "private_key", "credential", "auth"]

/-- Parts of values that are not meant to be real. -/
def placeholderWords : List String :=
  ["xxx", "changeme", "example", "placeholder", "your_", "your-", "<", "$\x7b", "todo", "dummy"]

/-- Least length of a value that is reported, in bytes. -/
def leastSecret : Nat := 16

/-- A string literal, or the only one of a list. -/
def singleLiteral? (n : Site) : Option Site :=
  if n.hasKind literalKinds then some n
  else if n.kind == "expression_list" then
    match n.namedChildren with
    | [only] => if only.hasKind literalKinds then some only else none
    | _ => none
  else none

/-- The roles of name and value in a binding. -/
def bindingRoles (kind : String) : String × String :=
  match kind with
  | "variable_declarator" | "const_spec" | "var_spec" => ("name", "value")
  | "pair" => ("key", "value")
  | _ => ("left", "right")

/-- The name of a binding and the string literal bound to it. -/
def bindingParts? (n : Site) : Option (Site × Site) :=
  let (nameRole, valueRole) := bindingRoles n.kind
  (n.field? nameRole).bind fun name =>
    (n.field? valueRole).bind fun value => (singleLiteral? value).map (name, ·)

def isAnyQuote (c : Char) : Bool := c == '"' || c == '\'' || c == Char.ofNat 0x60

/-- A literal without the quotes around it. -/
def innerText (literal : List Char) : List Char :=
  Text.dropEndWhile isAnyQuote (literal.dropWhile isAnyQuote)

/-- Number of bytes of the quotes in front of a literal. -/
def openingLength (literal : List Char) : Nat := Text.utf8Length (literal.takeWhile isAnyQuote)

def secretBinding? (s : Snippet) (n : Site) : Option Vulnerability :=
  if !n.hasKind secretBindings then none
  else
    (bindingParts? n).bind fun (name, value) =>
      let inner := innerText (s.text value)
      if !Text.mentionsAny secretWords (Text.lower (s.text name)) ||
          Text.utf8Length inner < leastSecret ||
          Text.mentionsAny placeholderWords (Text.lower inner) then none
      else
        let start := value.label.start - n.label.start + openingLength (s.text value)
        some ((((Vulnerability.atSite .hardcodedSecret .high s.source n
          "Potential hardcoded secret in variable assignment").describe
          "Variable assignment contains potential secret value" secretRemedy).withConfidence
          s.scores.secretAssignment).withCode
          (Text.redact (s.text n) start (start + Text.utf8Length inner)))

/-- Literals bound to names that sound like a credential. -/
def secretsByBinding (s : Snippet) : List Vulnerability := s.nodes.filterMap (secretBinding? s)

/-- Credentials in the source, one result per line. -/
def secrets (s : Snippet) : List Vulnerability :=
  Vulnerability.mergeByLine (secretsByTable s ++ secretsByBinding s)

end CodeAudit.Security
