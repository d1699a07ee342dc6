import StencilDesk.Ignore.Exclusion
import StencilDesk.Proofs.Ignore.Sign

/-!
# What exclusions say of paths that no pattern touches

A pattern touches the paths to which its text applies when the sign is taken away. Of a folder that
no pattern touches nothing is said; a file that no pattern touches is left out as soon as one of the
patterns keeps files.
-/

namespace StencilDesk
namespace Exclusions

def bareText (pattern : String) : List Char :=
  match Text.trim pattern.toList with
  | '!' :: rest => Text.trim rest
  | text => text

def ruleOf? (line : List Char) : Option IgnoreRule :=
  match IgnoreRule.ofLine false line with
  | .ok rule => rule
  | .error _ => none

/-- Holds if the text of a pattern applies to a path, whatever the sign of the pattern. -/
def touches (pattern path : String) (isFolder : Bool) : Bool :=
  (ruleOf? (bareText pattern)).any fun rule => rule.applies path isFolder

/-- Holds of patterns that keep what they touch. A comment touches nothing, and a second exclamation
mark turns a pattern round again. -/
def reincludes (pattern : String) : Bool :=
  (Text.trim pattern.toList).head? == some '!' &&
    (ruleOf? (bareText pattern)).any fun rule => !rule.keeps

def rule? (pattern : String) : Option IgnoreRule :=
  (lineOf? pattern).bind ruleOf?

theorem rules_ofPatterns (patterns : List String) :
    (ofPatterns patterns).rules = patterns.filterMap rule? := by
  show (patterns.filterMap lineOf?).filterMap ruleOf? = _
  rw [List.filterMap_filterMap]
  rfl

theorem ruleOf?_nil : ruleOf? [] = none := rfl

theorem ruleOf?_negated {text : List Char} (hcomment : text.head? ≠ some '#')
    (hsign : text.head? ≠ some '!') (htrimmed : Text.trimEnd text = text) (hne : text ≠ []) :
    ruleOf? ('!' :: text) = (ruleOf? text).map fun rule => { rule with keeps := true } := by
  unfold ruleOf?
  rw [IgnoreRule.ofLine_negated false hcomment hsign htrimmed hne]
  cases IgnoreRule.ofLine false text with
  | error fault => rfl
  | ok rule => rfl

/-- The rule of a pattern is that of its text. If the pattern has no exclamation mark, its rule
keeps, which is turned round later. -/
theorem rule?_eq (pattern : String) :
    rule? pattern =
      if (Text.trim pattern.toList).head? = some '!' then ruleOf? (bareText pattern)
      else (ruleOf? (bareText pattern)).map fun rule => { rule with keeps := true } := by
  have htrimmed := Text.trimEnd_trim pattern.toList
  unfold rule? lineOf? bareText
  cases htext : Text.trim pattern.toList with
  | nil => rfl
  | cons c rest =>
      rw [htext] at htrimmed
      by_cases hcomment : c = '#'
      · rw [hcomment]
        rfl
      · by_cases hsign : c = '!'
        · rw [hsign]
          cases hkept : Text.trim rest with
          | nil => simp [hkept, ruleOf?_nil]
          | cons d kept => simp [hkept]
        · have hnegated : ruleOf? ('!' :: c :: rest) = _ :=
            ruleOf?_negated (by simpa using hcomment) (by simpa using hsign) htrimmed (by simp)
          simpa [hcomment, hsign] using hnegated

theorem touches_of_rule? {pattern path : String} {isFolder : Bool} {rule : IgnoreRule}
    (hrule : rule? pattern = some rule) (happlies : rule.applies path isFolder = true) :
    touches pattern path isFolder = true := by
  rw [rule?_eq] at hrule
  unfold touches
  split at hrule
  · rw [hrule]
    exact happlies
  · rcases Option.map_eq_some_iff.mp hrule with ⟨bare, hbare, hsame⟩
    rw [hbare]
    rw [← hsame] at happlies
    exact happlies

theorem reincludes_iff {pattern : String} :
    reincludes pattern = true ↔ ∃ rule, rule? pattern = some rule ∧ rule.keeps = false := by
  unfold reincludes
  rw [rule?_eq]
  by_cases hsign : (Text.trim pattern.toList).head? = some '!'
  · simp [hsign, Option.any_eq_true]
  · simp [hsign]

theorem keepsSome_iff (patterns : List String) :
    (ofPatterns patterns).keepsSome = true ↔ ∃ pattern ∈ patterns, reincludes pattern = true := by
  unfold keepsSome
  rw [rules_ofPatterns, List.any_eq_true]
  constructor
  · rintro ⟨rule, hmem, hkeeps⟩
    rcases List.mem_filterMap.mp hmem with ⟨pattern, hpattern, hrule⟩
    exact ⟨pattern, hpattern, reincludes_iff.mpr ⟨rule, hrule, by simpa using hkeeps⟩⟩
  · rintro ⟨pattern, hpattern, hreincludes⟩
    rcases reincludes_iff.mp hreincludes with ⟨rule, hrule, hkeeps⟩
    exact ⟨rule, List.mem_filterMap.mpr ⟨pattern, hpattern, hrule⟩, by simpa using hkeeps⟩

/-!
## Verdicts
-/

theorem verdict?_of_untouched {patterns : List String} {path : String} {isFolder : Bool}
    (h : ∀ pattern ∈ patterns, touches pattern path isFolder = false) :
    IgnoreRule.verdict? (ofPatterns patterns).rules path isFolder = none := by
  unfold IgnoreRule.verdict?
  rw [Option.map_eq_none_iff, List.find?_eq_none]
  intro rule hmem happlies
  rw [List.mem_reverse, rules_ofPatterns] at hmem
  rcases List.mem_filterMap.mp hmem with ⟨pattern, hpattern, hrule⟩
  have htouched := touches_of_rule? hrule happlies
  rw [h pattern hpattern] at htouched
  cases htouched

theorem verdict?_folder {patterns : List String} {path : String}
    (h : ∀ pattern ∈ patterns, touches pattern path true = false) :
    (ofPatterns patterns).verdict? path true = none := by
  unfold verdict?
  rw [verdict?_of_untouched h]
  simp

theorem verdict?_file {patterns : List String} {path : String}
    (h : ∀ pattern ∈ patterns, touches pattern path false = false) :
    (ofPatterns patterns).verdict? path false =
      if patterns.any reincludes then some .leaveOut else none := by
  have hkeeps : (ofPatterns patterns).keepsSome = patterns.any reincludes := by
    rw [Bool.eq_iff_iff, keepsSome_iff, List.any_eq_true]
  unfold verdict?
  rw [verdict?_of_untouched h, hkeeps]
  simp

theorem verdict?_nil (path : String) (isFolder : Bool) :
    (ofPatterns []).verdict? path isFolder = none := by
  unfold verdict?
  rfl

end Exclusions
end StencilDesk
