import CodeAudit.Yaml.Scalar

/-!
# Reading YAML

The structure of a document: nodes by indentation, nodes between brackets, anchors and the aliases
that stand for them.  A map or list made by indentation has a *column*, and ends with the first
token that stands left of it; **a token that stands right of it where an entry should begin is an
error**.  A key has to stand on one line, first in its line or after a list mark.

The functions call each other with one unit of fuel less.  Each call passes over a character or
ends, so the length of the document is fuel enough.
-/

namespace CodeAudit.Yaml

/-- A node that was read: its value, the anchors known after it, and the next token. -/
structure Node where
  value : Yaml
  anchors : List (String × Yaml)
  after : Cursor
  /-- Whether the node took more than one line. -/
  lines : Bool := false

abbrev Anchors := List (String × Yaml)

def isNameChar (c : Char) : Bool :=
  Text.isAsciiLetter c || Text.isAsciiDigit c || c == '_' || c == '-'

/-- The name after an anchor or alias mark. -/
def nameAt? (c : Cursor) : Option (String × Cursor) :=
  let name := (c.rest.drop 1).takeWhile isNameChar
  let after := c.past (1 + name.length)
  let ends := endsToken after.rest || after.rest.head?.any ("?:,]\x7d%@".toList ++ [Char.ofNat 0x60]).contains
  if name.isEmpty || !ends then none else some (String.ofList name, after)

/-- The properties in front of a node: the name of its anchor. -/
structure Properties where
  anchor : Option String := none
  tagged : Bool := false

/-- Passes over one anchor and one tag, in either order. -/
def propertiesFrom (inFlow : Bool) : Nat → Properties → Cursor → Option (Properties × Cursor)
  | 0, p, c => some (p, c)
  | n + 1, p, c =>
    match c.rest with
    | '&' :: _ =>
      if p.anchor.isSome then none
      else
        (nameAt? c).bind fun (name, after) =>
          propertiesFrom inFlow n { p with anchor := some name } (after.skip inFlow true)
    | '!' :: rest =>
      if p.tagged then none
      else
        let ending := fun d => isBlank d || d == '\n' || (inFlow && flowIndicators.contains d)
        let size := (rest.takeWhile fun d => !ending d).length
        propertiesFrom inFlow n { p with tagged := true } ((c.past (1 + size)).skip inFlow true)
    | _ => some (p, c)

/-- Names a value, if it has an anchor. -/
def Properties.bind (p : Properties) (value : Yaml) (anchors : Anchors) : Anchors :=
  match p.anchor with
  | some name => (name, value) :: anchors
  | none => anchors

/-- Whether nothing stands where a node could in a place between brackets. -/
def Cursor.atFlowGap (c : Cursor) : Bool :=
  match c.rest with
  | ',' :: _ | ']' :: _ | '\x7d' :: _ | ':' :: _ => true
  | _ => false

/-! ## 1. Between brackets -/

mutual

/-- A node between brackets; nothing at all is an empty one. -/
def flowNode : Nat → Anchors → Cursor → Option Node
  | 0, _, _ => none
  | n + 1, anchors, c =>
    (propertiesFrom true 2 {} c).bind fun (p, c) =>
      let done (value : Yaml) (after : Cursor) (lines : Bool) : Option Node :=
        some ⟨value, p.bind value anchors, after.skip true true, lines⟩
      match c.rest with
      | [] => none
      | '[' :: _ =>
        (flowItems n anchors [] ((c.past 1).skip true true)).map fun r =>
          { r with anchors := p.bind r.value r.anchors, after := r.after.skip true true }
      | '\x7b' :: _ =>
        (flowEntries n anchors [] ((c.past 1).skip true true)).map fun r =>
          { r with anchors := p.bind r.value r.anchors, after := r.after.skip true true }
      | '"' :: _ | '\'' :: _ => c.quoted.bind fun s => done (.scalar false s.text) s.after s.lines
      | '*' :: _ =>
        (nameAt? c).bind fun (name, after) =>
          (anchors.lookup name).bind fun value => done value after false
      | _ =>
        if c.atFlowGap && !beginsPlain true c.rest then done .empty c false
        else (c.plain 0 true).bind fun s => done (.scalar true s.text) s.after s.lines

/-- The items of a list between brackets, after those of `found` (in reverse). -/
def flowItems : Nat → Anchors → List Yaml → Cursor → Option Node
  | 0, _, _, _ => none
  | n + 1, anchors, found, c =>
    match c.rest with
    | ']' :: _ => some ⟨.list found.reverse, anchors, c.past 1, false⟩
    | ',' :: _ | '\x7d' :: _ => none
    | _ =>
      (flowNode n anchors c).bind fun key =>
        let item : Option Node := match key.after.rest with
          | ':' :: _ =>
            (flowNode n key.anchors ((key.after.past 1).skip true true)).map fun v =>
              { v with value := .map [(key.value, v.value)] }
          | _ => some key
        item.bind fun item =>
          match item.after.rest with
          | ',' :: _ => flowItems n item.anchors (item.value :: found) ((item.after.past 1).skip true true)
          | ']' :: _ => flowItems n item.anchors (item.value :: found) item.after
          | _ => none

/-- The entries of a map between braces, after those of `found` (in reverse). -/
def flowEntries : Nat → Anchors → List (Yaml × Yaml) → Cursor → Option Node
  | 0, _, _, _ => none
  | n + 1, anchors, found, c =>
    match c.rest with
    | '\x7d' :: _ => some ⟨.map found.reverse, anchors, c.past 1, false⟩
    | ',' :: _ | ']' :: _ => none
    | _ =>
      (flowNode n anchors c).bind fun key =>
        let entry : Option (Yaml × Node) := match key.after.rest with
          | ':' :: _ =>
            (flowNode n key.anchors ((key.after.past 1).skip true true)).map fun v => (v.value, v)
          | _ => some (.empty, key)
        entry.bind fun (value, last) =>
          match last.after.rest with
          | ',' :: _ =>
            flowEntries n last.anchors ((key.value, value) :: found) ((last.after.past 1).skip true true)
          | '\x7d' :: _ => flowEntries n last.anchors ((key.value, value) :: found) last.after
          | _ => none

end

/-! ## 2. By indentation -/

/-- A node that can stand in a line: everything but lists and maps made by indentation. -/
def lineNode (fuel level : Nat) (anchors : Anchors) (p : Properties) (c : Cursor) : Option Node :=
  let done (value : Yaml) (anchors : Anchors) (after : Cursor) (lines : Bool) : Option Node :=
    some ⟨value, p.bind value anchors, after.skip false true, lines⟩
  match c.rest with
  | '[' :: _ =>
    (flowItems fuel anchors [] ((c.past 1).skip true true)).bind fun r =>
      done r.value r.anchors r.after false
  | '\x7b' :: _ =>
    (flowEntries fuel anchors [] ((c.past 1).skip true true)).bind fun r =>
      done r.value r.anchors r.after false
  | '"' :: _ | '\'' :: _ => c.quoted.bind fun s => done (.scalar false s.text) anchors s.after s.lines
  | '|' :: _ | '>' :: _ => (c.block level).bind fun s => done (.scalar false s.text) anchors s.after true
  | '*' :: _ =>
    if p.anchor.isSome || p.tagged then none
    else
      (nameAt? c).bind fun (name, after) =>
        (anchors.lookup name).bind fun value => done value anchors after false
  | _ => (c.plain level false).bind fun s => done (.scalar true s.text) anchors s.after s.lines

/-- Whether the token after a node makes it a key. -/
def Node.isKey (r : Node) : Bool := !r.after.fresh && r.after.atIndicator ':'

/-- Whether a node is followed by a new line or the end. -/
def Node.isComplete (r : Node) : Bool := r.after.fresh || r.after.rest.isEmpty

mutual

/-- A node whose lines stand at `level` or deeper; `keyAllowed` says whether a key may begin
here. -/
def blockNode : Nat → Nat → Bool → Anchors → Cursor → Option Node
  | 0, _, _, _, _ => none
  | n + 1, level, keyAllowed, anchors, c =>
    if c.atEnd || (c.fresh && c.column < level) then some ⟨.empty, anchors, c, false⟩
    else
      (propertiesFrom false 2 {} c).bind fun (p, inner) =>
        let moved := inner.fresh && inner.rest.length < c.rest.length
        let keyAllowed := keyAllowed || moved
        let start := if moved then inner.column else c.column
        if inner.atEnd || (inner.fresh && inner.column < level) then
          some ⟨.empty, p.bind .empty anchors, inner, false⟩
        else if inner.atIndicator '-' then
          if keyAllowed then
            (blockItems n inner.column false anchors [] inner).map fun r =>
              { r with anchors := p.bind r.value r.anchors }
          else none
        else if inner.atIndicator ':' && keyAllowed then
          blockEntries n start anchors [] .empty inner
        else
          let keyed := if moved then {} else p
          (lineNode n level anchors keyed inner).bind fun r =>
            if r.isKey then
              if keyAllowed && !r.lines then
                (blockEntries n start r.anchors [] r.value r.after).map fun m =>
                  if moved then { m with anchors := p.bind m.value m.anchors } else m
              else none
            else if r.isComplete then
              some (if moved then { r with anchors := p.bind r.value r.anchors } else r)
            else none

/-- The items of a list at a column, after those of `found` (in reverse).  A list that shares its
column with the map around it (`shared`) ends where that map goes on. -/
def blockItems : Nat → Nat → Bool → Anchors → List Yaml → Cursor → Option Node
  | 0, _, _, _, _, _ => none
  | n + 1, column, shared, anchors, found, c =>
    (blockNode n (column + 1) true anchors ((c.past 1).skip false false)).bind fun item =>
      let found := item.value :: found
      let c := item.after
      if c.atEnd || c.column < column then some ⟨.list found.reverse, item.anchors, c, true⟩
      else if !c.fresh || column < c.column then none
      else if c.atIndicator '-' then blockItems n column shared item.anchors found c
      else if shared then some ⟨.list found.reverse, item.anchors, c, true⟩
      else none

/-- The entries of a map at a column, after those of `found` (in reverse): the cursor is at the
colon after `key`. -/
def blockEntries : Nat → Nat → Anchors → List (Yaml × Yaml) → Yaml → Cursor → Option Node
  | 0, _, _, _, _, _ => none
  | n + 1, column, anchors, found, key, c =>
    let at_ := (c.past 1).skip false true
    let value : Option Node :=
      if at_.fresh && at_.column == column && at_.atIndicator '-' && !at_.atEnd then
        blockItems n column true anchors [] at_
      else blockNode n (column + 1) at_.fresh anchors at_
    value.bind fun v =>
      let found := (key, v.value) :: found
      let c := v.after
      if c.atEnd || c.column < column then some ⟨.map found.reverse, v.anchors, c, true⟩
      else if !c.fresh || column < c.column || c.atIndicator '-' then none
      else if c.atIndicator ':' then blockEntries n column v.anchors found .empty c
      else
        (propertiesFrom false 2 {} c).bind fun (p, inner) =>
          (lineNode n (column + 1) v.anchors p inner).bind fun k =>
            if k.isKey && !k.lines then blockEntries n column k.anchors found k.value k.after else none

end

/-! ## 3. Documents -/

/-- Characters that may stand in a document. -/
def isAllowed (c : Char) : Bool :=
  let n := c.toNat
  n == 0x09 || n == 0x0A || n == 0x0D || (0x20 ≤ n && n ≤ 0x7E) || n == 0x85 ||
    (0xA0 ≤ n && n ≤ 0xD7FF) || (0xE000 ≤ n && n ≤ 0xFFFD) || 0x10000 ≤ n

/-- Makes every line break a line feed. -/
def unifyBreaks : List Char → List Char
  | '\r' :: '\n' :: rest => '\n' :: unifyBreaks rest
  | c :: rest => (if c = '\r' || c.toNat = 0x85 then '\n' else c) :: unifyBreaks rest
  | [] => []

/-- Passes over directives; their lines begin with a per cent sign. -/
def directives : Nat → Bool → Cursor → Bool × Cursor
  | 0, seen, c => (seen, c)
  | n + 1, seen, c =>
    if c.column == 0 && c.rest.head? == some '%' then
      directives n true ((⟨c.rest.dropWhile (· != '\n'), 1, false⟩ : Cursor).skip false false)
    else (seen, c)

/-- Whether nothing follows a document but marks of its end. -/
def endsStream : Nat → Cursor → Bool
  | 0, _ => false
  | n + 1, c =>
    c.rest.isEmpty ||
      (c.column == 0 && c.rest.head? == some '.' && isMark c.rest && endsStream n ((c.past 3).skip false true))

/-- The one document of a text; `none` if the text is no YAML, or holds more than one. -/
def parse (source : String) : Option Yaml :=
  let text := match unifyBreaks source.toList with
    | c :: rest => if c.toNat = 0xFEFF then rest else c :: rest
    | [] => []
  if !text.all isAllowed then none
  else
    let fuel := 2 * text.length + 4
    let start := skipFrom false false false true 0 text
    let (directed, c) := directives fuel false start
    let marked := c.column == 0 && c.rest.head? == some '-' && isMark c.rest
    if directed && !marked then none
    else
      let node := if marked then
          let c := (c.past 3).skip false true
          blockNode fuel 0 c.fresh [] c
        else blockNode fuel 0 true [] c
      node.bind fun r => if endsStream fuel r.after then some r.value else none

end CodeAudit.Yaml
