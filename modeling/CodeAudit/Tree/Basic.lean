/-!
# Syntax trees

A tree comes from a parser outside the library, as the list of its nodes in preorder with the
number of children of each.  `Tree.ofPreorder?` reads that list and `Tree.preorder` writes it, so
nothing of the list is lost.
-/

namespace CodeAudit

/-- What a parser says about one node; offsets are in bytes. -/
structure Label where
  kind : String
  /-- The name of this node's role in its parent, if it has one. -/
  field : Option String
  named : Bool
  /-- Put in by the parser where the grammar asks for a token that is not there. -/
  missing : Bool
  /-- Text that fits no rule of the grammar. -/
  error : Bool
  extra : Bool
  /-- Whether the parser found an error in this node or below it. -/
  hasError : Bool
  start : Nat
  stop : Nat
  deriving DecidableEq, Repr, Inhabited

/-- A node with the nodes below it. -/
inductive Tree where
  | node (label : Label) (children : List Tree)
  deriving Inhabited

namespace Tree

def label : Tree → Label
  | node label _ => label

def children : Tree → List Tree
  | node _ children => children

def kind (t : Tree) : String := t.label.kind

mutual

/-- Number of nodes. -/
def size : Tree → Nat
  | node _ children => sizeAll children + 1

/-- Number of nodes of a row of trees. -/
def sizeAll : List Tree → Nat
  | [] => 0
  | t :: ts => size t + sizeAll ts

end

theorem size_eq (t : Tree) : t.size = sizeAll t.children + 1 := by
  cases t with | node l ts => simp [size, children]

theorem size_pos (t : Tree) : 0 < t.size := by rw [size_eq]; omega

/-! ## Preorder lists -/

mutual

/-- The labels in preorder, each with its number of children. -/
def preorder : Tree → List (Label × Nat)
  | node label children => (label, children.length) :: preorderAll children

def preorderAll : List Tree → List (Label × Nat)
  | [] => []
  | t :: ts => preorder t ++ preorderAll ts

end

/-- Puts a node over as many of the finished trees as it has children. -/
def gatherChildren (entry : Label × Nat) (row : Option (List Tree)) : Option (List Tree) :=
  row.bind fun ts =>
    if entry.2 ≤ ts.length then some (node entry.1 (ts.take entry.2) :: ts.drop entry.2) else none

/-- The row of trees that a preorder list describes. -/
def rowOfPreorder? (entries : List (Label × Nat)) (after : List Tree) : Option (List Tree) :=
  entries.foldr gatherChildren (some after)

/-- The tree that a preorder list describes; `none` if it is not the list of one tree. -/
def ofPreorder? (entries : List (Label × Nat)) : Option Tree :=
  match rowOfPreorder? entries [] with
  | some [t] => some t
  | _ => none

theorem rowOfPreorder?_append (xs ys : List (Label × Nat)) (after row : List Tree)
    (h : rowOfPreorder? ys after = some row) :
    rowOfPreorder? (xs ++ ys) after = rowOfPreorder? xs row := by
  simp [rowOfPreorder?, List.foldr_append] at h ⊢
  rw [h]

mutual

theorem rowOfPreorder?_preorder (t : Tree) (after : List Tree) :
    rowOfPreorder? t.preorder after = some (t :: after) := by
  cases t with
  | node label children =>
    have ih := rowOfPreorder?_preorderAll children after
    have hlen : children.length ≤ (children ++ after).length := by simp
    rw [preorder, rowOfPreorder?, List.foldr_cons]
    rw [rowOfPreorder?] at ih
    rw [ih]
    simp [gatherChildren]

theorem rowOfPreorder?_preorderAll (ts : List Tree) (after : List Tree) :
    rowOfPreorder? (preorderAll ts) after = some (ts ++ after) := by
  cases ts with
  | nil => rfl
  | cons t ts =>
    rw [preorderAll,
      rowOfPreorder?_append _ _ _ _ (rowOfPreorder?_preorderAll ts after)]
    exact rowOfPreorder?_preorder t (ts ++ after)

end

/-- **Reading what was written gives the tree back.** -/
theorem ofPreorder?_preorder (t : Tree) : ofPreorder? t.preorder = some t := by
  simp [ofPreorder?, rowOfPreorder?_preorder]

end Tree

end CodeAudit
