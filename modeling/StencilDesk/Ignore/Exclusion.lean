import StencilDesk.Ignore.Rule

/-!
# Exclusions

Patterns that an operator gives for one import. Here the signs work the other way round than in
the rules that they become: a plain pattern leaves files out, and one after an exclamation mark
keeps them. Once there is a pattern that keeps files, files to which no pattern applies are left
out.
-/

namespace StencilDesk

/-- The patterns of one import, as rules that keep what they would leave out, and the reverse. -/
structure Exclusions where
  rules : List IgnoreRule := []
deriving DecidableEq, Repr

namespace Exclusions

/-- The line of the rule for a pattern; blank patterns and comments have none. -/
def lineOf? (pattern : String) : Option (List Char) :=
  match Text.trim pattern.toList with
  | [] => none
  | '#' :: _ => none
  | '!' :: rest =>
      let kept := Text.trim rest
      if kept.isEmpty then none else some kept
  | text => some ('!' :: text)

/-- Reads patterns; those that cannot be read are left out. -/
def ofPatterns (patterns : List String) : Exclusions :=
  ⟨IgnoreRule.ofLines false (patterns.filterMap lineOf?)⟩

def turned : Verdict → Verdict
  | .leaveOut => .keep
  | .keep => .leaveOut

def keepsSome (exclusions : Exclusions) : Bool :=
  exclusions.rules.any fun rule => !rule.keeps

def verdict? (exclusions : Exclusions) (path : String) (isFolder : Bool) : Option Verdict :=
  match IgnoreRule.verdict? exclusions.rules path isFolder with
  | some verdict => some (turned verdict)
  | none => if exclusions.keepsSome && !isFolder then some .leaveOut else none

end Exclusions

end StencilDesk
