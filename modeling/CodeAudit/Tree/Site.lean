import CodeAudit.Text.Basic
import CodeAudit.Tree.Basic

/-!
# Nodes in their surroundings

A tree alone does not know its parent.  A *site* is a node together with the way up from it: the
parent, the child number under it, and so on to the top.  Parent, siblings and ancestors are then
read off the way up, and **two sites of one tree are the same node exactly when their paths of
child numbers agree**.
-/

namespace CodeAudit

/-- One step of the way up: the parent and the child number in it. -/
structure Frame where
  parent : Tree
  index : Nat
  deriving Inhabited

/-- A node and the way up from it, the nearest parent first. -/
structure Site where
  tree : Tree
  above : List Frame
  deriving Inhabited

namespace Site

/-- The top of a tree. -/
def top (t : Tree) : Site := ⟨t, []⟩

def label (s : Site) : Label := s.tree.label

def kind (s : Site) : String := s.tree.label.kind

/-- Child numbers from the node up to the top; tells the nodes of one tree apart. -/
def path (s : Site) : List Nat := s.above.map Frame.index

/-- Whether the kind is one of a list. -/
def hasKind (s : Site) (kinds : List String) : Bool := kinds.contains s.kind

/-! ## 1. Moves -/

/-- Child number `i` of a node `parent` whose way up is `above`. -/
def under (parent : Tree) (above : List Frame) (i : Nat) : Option Site :=
  parent.children[i]?.map fun t => ⟨t, ⟨parent, i⟩ :: above⟩

def child? (s : Site) (i : Nat) : Option Site := under s.tree s.above i

/-- The children from number `i` on, given their trees. -/
def childrenFrom (parent : Tree) (above : List Frame) : Nat → List Tree → List Site
  | _, [] => []
  | i, t :: ts => ⟨t, ⟨parent, i⟩ :: above⟩ :: childrenFrom parent above (i + 1) ts

/-- All children, from the left. -/
def children (s : Site) : List Site := childrenFrom s.tree s.above 0 s.tree.children

/-- The children that are named by the grammar, from the left. -/
def namedChildren (s : Site) : List Site := s.children.filter (·.label.named)

def parent? (s : Site) : Option Site :=
  match s.above with
  | [] => none
  | frame :: rest => some ⟨frame.parent, rest⟩

/-- The nodes above, the nearest first. -/
def ancestorsOf : List Frame → List Site
  | [] => []
  | frame :: rest => ⟨frame.parent, rest⟩ :: ancestorsOf rest

def ancestors (s : Site) : List Site := ancestorsOf s.above

def nextSibling? (s : Site) : Option Site :=
  match s.above with
  | [] => none
  | frame :: rest => under frame.parent rest (frame.index + 1)

def previousSibling? (s : Site) : Option Site :=
  match s.above with
  | ⟨parent, i + 1⟩ :: rest => under parent rest i
  | _ => none

/-- The siblings before a node, the nearest first. -/
def previousSiblings (s : Site) : List Site :=
  match s.above with
  | [] => []
  | frame :: rest =>
    ((childrenFrom frame.parent rest 0 frame.parent.children).take frame.index).reverse

/-! ## 2. Questions -/

/-- The first child in a role. -/
def field? (s : Site) (name : String) : Option Site :=
  s.children.find? (·.label.field == some name)

/-- All children in a role. -/
def fields (s : Site) (name : String) : List Site :=
  s.children.filter (·.label.field == some name)

/-- The first child of one of some kinds. -/
def childOfKind? (s : Site) (kinds : List String) : Option Site := s.children.find? (·.hasKind kinds)

/-- The nearest node above of one of some kinds. -/
def enclosing? (s : Site) (kinds : List String) : Option Site := s.ancestors.find? (·.hasKind kinds)

/-- Whether a node of one of `kinds` stands above, no higher than the nearest one of `boundary`. -/
def hasAncestor (s : Site) (kinds boundary : List String) : Bool :=
  match s.ancestors.find? (fun a => a.hasKind kinds || a.hasKind boundary) with
  | some a => a.hasKind kinds
  | none => false

/-- Whether two sites of one tree are the same node. -/
def same (s t : Site) : Bool := s.path == t.path

/-! ## 3. Text -/

/-- The source text of a node; empty if its span does not fit the source. -/
def text (source : List Char) (s : Site) : List Char :=
  (Text.slice s.label.start s.label.stop source).getD []

def startPosition (source : List Char) (s : Site) : Text.Position :=
  Text.position source s.label.start

def endPosition (source : List Char) (s : Site) : Text.Position :=
  Text.position source s.label.stop

/-- What a call calls: the text in the role `function`, else of the first child. -/
def calleeText (source : List Char) (s : Site) : List Char :=
  match (s.field? "function").or (s.child? 0) with
  | some callee => callee.text source
  | none => []

/-- The arguments of a call; without a node for them, the whole call. -/
def argumentsText (source : List Char) (s : Site) : List Char :=
  ((s.field? "arguments").getD s).text source

end Site

end CodeAudit
