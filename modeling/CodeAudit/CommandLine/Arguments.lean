import CodeAudit.Path

/-!
# Arguments of the command line

Words are read from left to right: options by their long or short names, values after them or
attached to them, and what is left over.  The first word of the top level that is no option names
the command; the rest is read by the options of that command.  Options for all commands may stand
on either side of it, and the later one counts.
-/

namespace CodeAudit.CommandLine

/-- An option: its long name, its letter, and whether it takes a value. -/
structure OptionSpec where
  long : String
  short : Option Char := none
  takesValue : Bool := true
  /-- Whether it may be given more than once. -/
  repeatable : Bool := false
  /-- Whether its value is a path, which cannot be empty. -/
  isPath : Bool := false
  deriving DecidableEq, Repr

/-- What ends the reading early. -/
inductive Stop where
  /-- The words make no sense. -/
  | usage
  /-- Help was asked for. -/
  | help
  /-- The version was asked for. -/
  | version
  deriving DecidableEq, Repr

/-- What was read: options in order with their values, and words that are no options. -/
structure Words where
  options : List (String × String) := []
  rest : List String := []
  deriving Repr, Inhabited

namespace Words

/-- The values of an option. -/
def values (w : Words) (long : String) : List String :=
  (w.options.filter fun o => o.1 == long).map Prod.snd

def value? (w : Words) (long : String) : Option String := (w.values long).head?

def has (w : Words) (long : String) : Bool := !(w.values long).isEmpty

/-- Adds an option, unless it was given before and may not be repeated. -/
def add (w : Words) (spec : OptionSpec) (value : String) : Except Stop Words :=
  if (w.has spec.long && !spec.repeatable) || (spec.isPath && value.isEmpty) then .error .usage
  else .ok { w with options := w.options ++ [(spec.long, value)] }

end Words

/-- Options of a level, and whether it knows the version. -/
structure Level where
  specs : List OptionSpec
  hasVersion : Bool := false
  /-- Whether reading ends at the first word that is no option. -/
  hasCommands : Bool := false

/-- Whether a word begins like an option. -/
def looksLikeOption (word : List Char) : Bool := word.head? == some '-' && 1 < word.length

/-- What a cluster of letters came to: the words so far, and an option that waits for its value. -/
abbrev Pending := Words × Option OptionSpec

/-- Reads the letters after a dash. -/
def readLetters (level : Level) (w : Words) : List Char → Except Stop Pending
  | [] => .ok (w, none)
  | c :: rest =>
    match level.specs.find? fun s => s.short == some c with
    | some spec =>
      if !spec.takesValue then
        match w.add spec "" with
        | .ok w => readLetters level w rest
        | .error e => .error e
      else
        match rest with
        | [] => .ok (w, some spec)
        | '=' :: value => (w.add spec (String.ofList value)).map fun w => (w, none)
        | value => (w.add spec (String.ofList value)).map fun w => (w, none)
    | none =>
      if c = 'h' then .error .help
      else if c = 'V' && level.hasVersion then .error .version
      else .error .usage

/-- Reads what stands after two dashes. -/
def readLong (level : Level) (w : Words) (word : List Char) : Except Stop Pending :=
  let name := String.ofList (word.takeWhile (· != '='))
  let attached := match word.dropWhile (· != '=') with
    | _ :: value => some (String.ofList value)
    | [] => none
  match level.specs.find? fun s => s.long == name with
  | some spec =>
    match spec.takesValue, attached with
    | true, some value => (w.add spec value).map fun w => (w, none)
    | true, none => .ok (w, some spec)
    | false, some _ => .error .usage
    | false, none => (w.add spec "").map fun w => (w, none)
  | none =>
    if name == "help" && attached.isNone then .error .help
    else if name == "version" && level.hasVersion && attached.isNone then .error .version
    else .error .usage

/-- Reads the words of a level.  Where there are no commands, one word that is no option is taken:
the path, which cannot be empty. -/
def read (level : Level) (w : Words) (pending : Option OptionSpec) : List String → Except Stop Words
  | [] => if pending.isSome then .error .usage else .ok w
  | word :: rest =>
    match pending with
    | some spec =>
      if looksLikeOption word.toList then .error .usage
      else
        match w.add spec word with
        | .ok w => read level w none rest
        | .error e => .error e
    | none =>
      match word.toList with
      | ['-', '-'] =>
        if level.hasCommands then .error .usage else .ok { w with rest := w.rest ++ rest }
      | '-' :: '-' :: name =>
        match readLong level w name with
        | .ok (w, pending) => read level w pending rest
        | .error e => .error e
      | '-' :: c :: letters =>
        match readLetters level w (c :: letters) with
        | .ok (w, pending) => read level w pending rest
        | .error e => .error e
      | _ =>
        if level.hasCommands then .ok { w with rest := word :: rest }
        else if w.rest.isEmpty && !word.isEmpty then read level { w with rest := [word] } none rest
        else .error .usage

/-! ## The commands -/

/-- Options of every command. -/
structure Source where
  path : String
  language : Option String
  format : String
  deriving DecidableEq, Repr

inductive Command where
  | analyze (source : Source) (selectors : List String) (validate : Bool) (projectRoot : Option String)
      (failOn : String)
  | security (source : Source) (severity failOn : String)
  | extract (source : Source) (name keyword : Option String)
  deriving DecidableEq, Repr

/-- A command with the settings file that was given. -/
structure Invocation where
  config : Option String
  command : Command
  deriving DecidableEq, Repr

/-- Options for all commands. -/
def sharedSpecs : List OptionSpec :=
  [{ long := "config", short := some 'c', isPath := true },
    { long := "verbose", short := some 'v', takesValue := false }]

def sourceSpecs : List OptionSpec :=
  [{ long := "language", short := some 'l' }, { long := "format", short := some 'f' }]

def topLevel : Level := { specs := sharedSpecs, hasVersion := true, hasCommands := true }

def analyzeLevel : Level where
  specs := sharedSpecs ++ sourceSpecs ++
    [{ long := "selector", short := some 's', repeatable := true },
      { long := "validate", takesValue := false }, { long := "project-root", isPath := true },
      { long := "fail-on" }]

def securityLevel : Level where
  specs := sharedSpecs ++ sourceSpecs ++ [{ long := "severity" }, { long := "fail-on" }]

def extractLevel : Level where
  specs := sharedSpecs ++ sourceSpecs ++
    [{ long := "name", short := some 'n' }, { long := "keyword", short := some 'k' }]

/-- The source of a command: exactly one path is left over. -/
def sourceOf (w : Words) : Except Stop Source :=
  match w.rest with
  | [path] =>
    if path.isEmpty then .error .usage
    else .ok ⟨path, w.value? "language", (w.value? "format").getD "pretty"⟩
  | _ => .error .usage

/-- What the words after `help` come to: it takes the name of one command, or nothing. -/
def helpOn (words : List String) : Stop :=
  match words with
  | [] => .help
  | [name] => if ["analyze", "security", "sec", "extract", "help"].contains name then .help else .usage
  | _ => .usage

/-- Reads the words after the name of a command. -/
def readCommand (name : String) (words : List String) : Except Stop (Command × Words) :=
  match name with
  | "analyze" => do
    let w ← read analyzeLevel {} none words
    let source ← sourceOf w
    return (.analyze source (w.values "selector") (w.has "validate") (w.value? "project-root")
      ((w.value? "fail-on").getD "error"), w)
  | "security" | "sec" => do
    let w ← read securityLevel {} none words
    let source ← sourceOf w
    return (.security source ((w.value? "severity").getD "all") ((w.value? "fail-on").getD "high"), w)
  | "extract" => do
    let w ← read extractLevel {} none words
    let source ← sourceOf w
    if w.has "name" && w.has "keyword" then .error .usage
    else return (.extract source (w.value? "name") (w.value? "keyword"), w)
  | "help" => .error (helpOn words)
  | _ => .error .usage

/-- Reads the arguments of the program. -/
def parse (words : List String) : Except Stop Invocation :=
  match read topLevel {} none words with
  | .error e => .error e
  | .ok top =>
    match top.rest with
    | [] => .error .usage
    | name :: rest =>
      match readCommand name rest with
      | .error e => .error e
      | .ok (command, w) => .ok ⟨(w.value? "config").or (top.value? "config"), command⟩

end CodeAudit.CommandLine
