/-!
# Colours of a terminal

A piece of text is coloured by a code in front of it and a reset after it.  **A reset inside the
piece would end its colour**, so the code is repeated after it.
-/

namespace CodeAudit

inductive Paint where
  | bold
  | dimmed
  | red
  | boldRed
  | yellow
  | boldYellow
  | green
  | boldGreen
  | blue
  | cyan
  | boldCyan
  deriving DecidableEq, Repr, Inhabited

namespace Paint

/-- The numbers of a colour. -/
def numbers : Paint → String
  | .bold => "1"
  | .dimmed => "2"
  | .red => "31"
  | .boldRed => "1;31"
  | .yellow => "33"
  | .boldYellow => "1;33"
  | .green => "32"
  | .boldGreen => "1;32"
  | .blue => "34"
  | .cyan => "36"
  | .boldCyan => "1;36"

def reset : String := "\x1b[0m"

/-- The code that begins a colour. -/
def code (p : Paint) : String := "\x1b[" ++ p.numbers ++ "m"

/-- Repeats a code after every reset. -/
def resume (code : List Char) : List Char → List Char
  | '\x1b' :: '[' :: '0' :: 'm' :: rest => '\x1b' :: '[' :: '0' :: 'm' :: (code ++ resume code rest)
  | c :: rest => c :: resume code rest
  | [] => []

/-- A piece in a colour, or as it is where no colours are wanted. -/
def apply (p : Paint) (colors : Bool) (s : String) : String :=
  if colors then p.code ++ String.ofList (resume p.code.toList s.toList) ++ reset else s

end Paint

end CodeAudit
