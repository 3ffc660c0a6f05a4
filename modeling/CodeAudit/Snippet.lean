import CodeAudit.Finding.Vulnerability
import CodeAudit.Settings.Basic
import CodeAudit.Tree.Walk

/-!
# Snippets

What a detector looks at: a source text, its syntax tree if there is a grammar for the language,
the name the language goes by in messages, and the confidences to report at.
-/

namespace CodeAudit

structure Snippet where
  source : List Char
  tree : Option Tree
  /-- The language, as messages name it. -/
  language : String
  scores : DetectorScores := {}

namespace Snippet

/-- The top of the tree, if there is one. -/
def root? (s : Snippet) : Option Site := s.tree.map Site.top

/-- All nodes in preorder; none without a tree. -/
def nodes (s : Snippet) : List Site := (s.root?.map Site.nodes).getD []

def text (s : Snippet) (n : Site) : List Char := n.text s.source

/-- The lines with their numbers, from one. -/
def lines (s : Snippet) : List (Nat × List Char) := Text.numberedLines s.source

end Snippet

end CodeAudit
