import CodeAudit.Tree.Site

/-!
# Walking a tree

`Site.traverse` visits a node and the nodes below it in preorder, with a state passed from visit
to visit; a visit says whether to go on below the node.  It moves a cursor (first child, next
sibling, up) and needs no stack of its own, so its depth of recursion does not grow with the
tree.  `Site.walk` is the plain recursion: visit, then each child from the left.

Main statement: **the two give the same result** (`traverse_eq_walk`), for every start, visit and
state.  The idea of the proof: what the cursor still has to do, after the subtree under it, is to
walk the later siblings of each node on its way up to the start (`resume`).
-/

namespace CodeAudit

/-! ## 1. The cursor -/

/-- A site reached from a start by moving down `depth` levels in all. -/
structure Cursor where
  site : Site
  depth : Nat

namespace Cursor

def firstChild? (c : Cursor) : Option Cursor := (c.site.child? 0).map (⟨·, c.depth + 1⟩)

/-- The next sibling of a node with this way up, else of the nearest node above that has one, never
above or beside the start. -/
def advance? : List Frame → Nat → Option Cursor
  | frame :: rest, depth + 1 =>
    match Site.under frame.parent rest (frame.index + 1) with
    | some s => some ⟨s, depth + 1⟩
    | none => advance? rest depth
  | _, _ => none

variable {σ : Type}

/-- At most `fuel` visits from the cursor on. -/
def visits (visit : σ → Site → σ × Bool) : Nat → σ → Cursor → σ
  | 0, state, _ => state
  | fuel + 1, state, c =>
    let (state', descend) := visit state c.site
    match if descend then c.firstChild? else none with
    | some below => visits visit fuel state' below
    | none =>
      match advance? c.site.above c.depth with
      | some next => visits visit fuel state' next
      | none => state'

end Cursor

namespace Site

variable {σ : Type}

/-- Visits a node and what is below it, in preorder, by moving a cursor. -/
def traverse (visit : σ → Site → σ × Bool) (state : σ) (s : Site) : σ :=
  Cursor.visits visit s.tree.size state ⟨s, 0⟩

/-! ## 2. The plain recursion -/

mutual

/-- Visits a node and then, if the visit says so, its children. -/
def walkTree (visit : σ → Site → σ × Bool) (state : σ) (above : List Frame) : Tree → σ
  | .node label kids =>
    let (state', descend) := visit state ⟨.node label kids, above⟩
    if descend then walkRow visit state' (.node label kids) above 0 kids else state'

/-- Walks the children of `parent` from number `i` on. -/
def walkRow (visit : σ → Site → σ × Bool) (state : σ) (parent : Tree) (above : List Frame) (i : Nat) :
    List Tree → σ
  | [] => state
  | t :: ts =>
    walkRow visit (walkTree visit state (⟨parent, i⟩ :: above) t) parent above (i + 1) ts

end

/-- Visits a node and what is below it, in preorder, by recursion. -/
def walk (visit : σ → Site → σ × Bool) (state : σ) (s : Site) : σ := walkTree visit state s.above s.tree

theorem walkTree_eq (visit : σ → Site → σ × Bool) (state : σ) (above : List Frame) (t : Tree) :
    walkTree visit state above t =
      if (visit state ⟨t, above⟩).2 then
        walkRow visit (visit state ⟨t, above⟩).1 t above 0 t.children
      else (visit state ⟨t, above⟩).1 := by
  cases t with | node label kids => simp only [walkTree, Tree.children]

/-! ## 3. They agree -/

/-- What is still to be walked after a subtree with this way up. -/
def resume (visit : σ → Site → σ × Bool) (state : σ) : List Frame → Nat → σ
  | frame :: rest, depth + 1 =>
    resume visit
      (walkRow visit state frame.parent rest (frame.index + 1)
        (frame.parent.children.drop (frame.index + 1)))
      rest depth
  | _, _ => state

/-- Number of nodes that are still to be walked after a subtree with this way up. -/
def remaining : List Frame → Nat → Nat
  | frame :: rest, depth + 1 =>
    Tree.sizeAll (frame.parent.children.drop (frame.index + 1)) + remaining rest depth
  | _, _ => 0

theorem resume_of_advance?_eq_none (visit : σ → Site → σ × Bool) (state : σ) (above : List Frame)
    (depth : Nat) (h : Cursor.advance? above depth = none) : resume visit state above depth = state := by
  induction above generalizing depth with
  | nil => cases depth <;> rfl
  | cons frame rest ih =>
    cases depth with
    | zero => rfl
    | succ depth =>
      rw [Cursor.advance?] at h
      split at h
      · simp at h
      · next hu =>
        have hlen : frame.parent.children.length ≤ frame.index + 1 := by
          simpa [under] using hu
        simp [resume, List.drop_eq_nil_of_le hlen, walkRow, ih depth h]

theorem resume_of_advance?_eq_some (visit : σ → Site → σ × Bool) (state : σ) (above : List Frame)
    (depth : Nat) (c : Cursor) (h : Cursor.advance? above depth = some c) :
    resume visit state above depth =
        resume visit (walkTree visit state c.site.above c.site.tree) c.site.above c.depth ∧
      remaining above depth = c.site.tree.size + remaining c.site.above c.depth := by
  induction above generalizing depth state with
  | nil => cases depth <;> simp [Cursor.advance?] at h
  | cons frame rest ih =>
    cases depth with
    | zero => simp [Cursor.advance?] at h
    | succ depth =>
      rw [Cursor.advance?] at h
      split at h
      · next s hu =>
        obtain ⟨t, ht, rfl⟩ : ∃ t, frame.parent.children[frame.index + 1]? = some t ∧
            s = ⟨t, ⟨frame.parent, frame.index + 1⟩ :: rest⟩ := by
          rw [under, Option.map_eq_some_iff] at hu
          exact hu.imp fun t ht => ⟨ht.1, ht.2.symm⟩
        cases h
        obtain ⟨hlt, hget⟩ := List.getElem?_eq_some_iff.mp ht
        have hdrop : frame.parent.children.drop (frame.index + 1) =
            t :: frame.parent.children.drop (frame.index + 1 + 1) := by
          rw [List.drop_eq_getElem_cons hlt, hget]
        simp only [resume, remaining]
        rw [hdrop]
        exact ⟨by simp [walkRow], by simp [Tree.sizeAll]; omega⟩
      · next hu =>
        have hlen : frame.parent.children.length ≤ frame.index + 1 := by
          simpa [under] using hu
        have := ih state depth h
        simpa [resume, remaining, List.drop_eq_nil_of_le hlen, walkRow, Tree.sizeAll] using this

/-- With a visit left for every node still to be walked, the cursor does what the recursion does. -/
theorem visits_eq_resume (visit : σ → Site → σ × Bool) (fuel : Nat) (state : σ) (t : Tree)
    (above : List Frame) (depth : Nat) (h : t.size + remaining above depth ≤ fuel) :
    Cursor.visits visit fuel state ⟨⟨t, above⟩, depth⟩ =
      resume visit (walkTree visit state above t) above depth := by
  induction fuel generalizing state t above depth with
  | zero => have := t.size_pos; omega
  | succ fuel ih =>
    have hsize := t.size_eq
    -- the subtree is finished, and the walk goes on beside or above it
    have leave : ∀ state' : σ,
        (match Cursor.advance? above depth with
          | some next => Cursor.visits visit fuel state' next
          | none => state') = resume visit state' above depth := by
      intro state'
      split
      · next c hc =>
        have hr := resume_of_advance?_eq_some visit state' above depth c hc
        have hcs : Cursor.visits visit fuel state' ⟨⟨c.site.tree, c.site.above⟩, c.depth⟩ = _ :=
          ih state' c.site.tree c.site.above c.depth (by omega)
        rw [hr.1, ← hcs]
      · next hc => rw [resume_of_advance?_eq_none visit state' above depth hc]
    rw [walkTree_eq, Cursor.visits]
    rcases hv : visit state ⟨t, above⟩ with ⟨state', descend⟩
    cases descend with
    | false => simpa using leave state'
    | true =>
      cases hk : t.children with
      | nil =>
        have : (⟨⟨t, above⟩, depth⟩ : Cursor).firstChild? = none := by
          simp [Cursor.firstChild?, child?, under, hk]
        simpa [this, hk, walkRow] using leave state'
      | cons k ks =>
        have : (⟨⟨t, above⟩, depth⟩ : Cursor).firstChild? =
            some ⟨⟨k, ⟨t, 0⟩ :: above⟩, depth + 1⟩ := by
          simp [Cursor.firstChild?, child?, under, hk]
        have hrow : remaining (⟨t, 0⟩ :: above) (depth + 1) = Tree.sizeAll ks + remaining above depth := by
          simp [remaining, hk]
        have hall : Tree.sizeAll t.children = k.size + Tree.sizeAll ks := by simp [hk, Tree.sizeAll]
        simp only [this, if_true]
        rw [ih state' k (⟨t, 0⟩ :: above) (depth + 1) (by omega)]
        simp [resume, hk, walkRow]

/-- **Moving a cursor and recursing over the children visit the same nodes in the same order.** -/
theorem traverse_eq_walk (visit : σ → Site → σ × Bool) (state : σ) (s : Site) :
    s.traverse visit state = s.walk visit state := by
  have h := visits_eq_resume visit s.tree.size state s.tree s.above 0
    (by cases s.above <;> simp [remaining])
  have hz : ∀ st : σ, resume visit st s.above 0 = st := by intro st; cases s.above <;> rfl
  rw [hz] at h
  exact h

/-! ## 4. All nodes, and what a walk picks up -/

/-- A node and all nodes below it, in preorder. -/
def nodes (s : Site) : List Site := (s.traverse (fun found n => (n :: found, true)) []).reverse

/-- What `pick` finds at the nodes of a walk, in preorder; `pick` also says where to go on below. -/
def gather {α : Type} (pick : Site → List α × Bool) (s : Site) : List α :=
  (s.traverse (fun found n => ((pick n).1.reverse ++ found, (pick n).2)) []).reverse

/-- Number of nodes, the node itself included. -/
def count (s : Site) : Nat := s.traverse (fun n _ => (n + 1, true)) 0

/-- The type named by the receiver of a method, without pointers and type parameters: the first
type identifier in it. -/
def receiverType? (source : List Char) (s : Site) : Option (List Char) :=
  (s.field? "receiver").bind fun receiver =>
    (receiver.nodes.find? (·.kind == "type_identifier")).map (·.text source)

end Site

end CodeAudit
