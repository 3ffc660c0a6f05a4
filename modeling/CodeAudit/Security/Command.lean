import CodeAudit.Security.Splice
import CodeAudit.Text.Case
import CodeAudit.Text.Literal

/-!
# Commands put together from input

A call that starts a shell or a program must not carry input or spliced text, unless something in
the arguments says that the input was made safe.
-/

namespace CodeAudit.Security

def goSinks : List String := ["exec.Command", "exec.CommandContext"]

def nodeSinks : List String := ["exec", "execSync", "spawn", "spawnSync", "execFile", "execFileSync"]

/-- Objects that the functions above are usually reached through. -/
def processObjects : List String := ["child_process", "childProcess", "cp", "shell"]

def shellSinks : List String := ["os.system", "os.popen"]

/-- Words of functions that make input safe. -/
def commandSanitizers : List String := ["validate", "sanitize", "whitelist", "shlex.quote", "escape"]

/-- A word for input from outside. -/
def inputWord : Pattern :=
  .chain [.wordEdge, .wordsAnyCase ["argv", "input", "request", "params", "query", "body", "filename",
    "cmd", "command", "user"], .wordEdge]

/-- The argument that asks for a shell. -/
def shellTrue : Pattern := .chain [.word "shell", .spaces, .char '=', .spaces, .word "True"]

def commandRemedy : Dialect → String
  | .go => "Use exec.Command with separate arguments, validate/sanitize input"
  | .javascript => "Use child_process.spawn with array arguments, validate/sanitize input"
  | .python | .generic => "Use subprocess.run with list arguments (shell=False), validate/sanitize input"

/-- Whether a call starts a shell or a program. -/
def isCommandSink (callee args : List Char) : Dialect → Bool
  | .go => isOneOf goSinks callee
  | .javascript =>
    Text.startsWith "child_process." callee ||
      (isOneOf nodeSinks (lastSegment callee) &&
        match Text.beforeLast? '.' callee with
        | none => true
        | some object =>
          isOneOf processObjects (Text.trim object) || Text.mentions "child_process" object)
  | .python =>
    isOneOf shellSinks callee ||
      (Text.startsWith "subprocess." callee &&
        (shellTrue.occursIn args || (findSplice args .python).isSome))
  | .generic => false

/-- Whether a text carries input or spliced values that nothing has made safe. -/
def isTainted (text : List Char) (dialect : Dialect) : Bool :=
  !Text.mentionsAny commandSanitizers (Text.lower text) &&
    ((findSplice text dialect).isSome || inputWord.occursIn text)

def commandCall? (s : Snippet) (dialect : Dialect) (n : Site) : Option Vulnerability :=
  if !n.hasKind dialect.callKinds then none
  else
    let callee := n.calleeText s.source
    let args := n.argumentsText s.source
    if isCommandSink callee args dialect && isTainted args dialect then
      some (((Vulnerability.atSite .commandInjection .critical s.source n
        ("Potential command injection in " ++ String.ofList callee ++ ": user input in shell command")).describe
        "User input used directly in shell command without validation"
        (commandRemedy dialect)).withConfidence s.scores.commandTree)
    else none

/-- What a line that starts a shell is called. -/
def shellLine? (text : List Char) : Option (String × String) :=
  if Text.mentions "os.system(" text then
    some ("Potential command injection: os.system with user input",
      "os.system called with potentially unsafe user input")
  else if shellTrue.occursIn text then
    some ("Potential command injection: subprocess with shell=True and user input",
      "subprocess called with shell=True and potentially unsafe user input")
  else none

def commandLine? (s : Snippet) (line : Nat) (text : List Char) : Option Vulnerability :=
  if Text.isCommentLine text then none
  else
    (shellLine? text).bind fun (message, description) =>
      if isTainted text .python then
        some (((Vulnerability.atLine .commandInjection .critical line text message).describe
          description (commandRemedy .python)).withConfidence s.scores.commandText)
      else none

/-- Commands put together from input, one result per line. -/
def commandInjections (dialect : Dialect) (s : Snippet) : List Vulnerability :=
  let byCall := s.nodes.filterMap (commandCall? s dialect)
  let byLine :=
    if dialect = .python ∨ dialect = .generic then
      s.lines.filterMap fun (line, text) => commandLine? s line text
    else []
  Vulnerability.mergeByLine (byCall ++ byLine)

end CodeAudit.Security
