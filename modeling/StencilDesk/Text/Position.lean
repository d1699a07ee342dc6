/-!
# Positions and occurrences

Lines and columns of a text, both counted from one; a line ends at a line feed and a column counts
characters. Occurrences are found from left to right, the first one that fits wins, and none
overlaps another.
-/

namespace StencilDesk
namespace Text

structure Position where
  line : Nat
  column : Nat
deriving DecidableEq, Repr, Inhabited

namespace Position

def start : Position := ⟨1, 1⟩

def after (p : Position) (c : Char) : Position :=
  if c = '\n' then ⟨p.line + 1, 1⟩ else ⟨p.line, p.column + 1⟩

def behind (p : Position) (text : List Char) : Position :=
  text.foldl after p

@[simp] theorem behind_cons (p : Position) (c : Char) (rest : List Char) :
    p.behind (c :: rest) = (p.after c).behind rest := rfl

theorem behind_append (p : Position) (a b : List Char) :
    p.behind (a ++ b) = (p.behind a).behind b := by
  simp [behind, List.foldl_append]

end Position

/--
The occurrences of a construct, each with its place. The given function recognises a construct at
the start of a text and tells how many characters it has, at least one. The first argument is how
many characters of the text still belong to the construct before it.
-/
def occurrencesFrom {α : Type} (recognise : List Char → Option (α × Nat)) :
    Nat → Position → List Char → List (Position × α)
  | _, _, [] => []
  | skip + 1, p, c :: rest => occurrencesFrom recognise skip (p.after c) rest
  | 0, p, c :: rest =>
      match recognise (c :: rest) with
      | some (found, size) => (p, found) :: occurrencesFrom recognise (size - 1) (p.after c) rest
      | none => occurrencesFrom recognise 0 (p.after c) rest

def occurrences {α : Type} (recognise : List Char → Option (α × Nat)) (text : List Char) :
    List (Position × α) :=
  occurrencesFrom recognise 0 Position.start text

end Text
end StencilDesk
