/-!
# Splitting text

A text and the pieces between its separators. There is always one piece more than there are
separators, and putting the pieces together again gives the text back. Lines are pieces between line
feeds; where they are read from a file, a carriage return before a line feed belongs to the end.
-/

namespace StencilDesk
namespace Text

def splitOn (separator : Char) : List Char → List (List Char)
  | [] => [[]]
  | c :: rest =>
      if c = separator then [] :: splitOn separator rest
      else
        match splitOn separator rest with
        | piece :: pieces => (c :: piece) :: pieces
        | [] => [[c]]

def joinWith (separator : Char) : List (List Char) → List Char
  | [] => []
  | [piece] => piece
  | piece :: pieces => piece ++ separator :: joinWith separator pieces

def lines (text : List Char) : List (List Char) :=
  splitOn '\n' text

def dropReturn {α : Type} [DecidableEq α] (sign : α) (line : List α) : List α :=
  if line.getLast? = some sign then line.dropLast else line

/-- Drops a carriage return right before every line feed, so from every line but the last. -/
def dropReturns {α : Type} [DecidableEq α] (sign : α) : List (List α) → List (List α)
  | [] => []
  | [last] => [last]
  | line :: next :: rest => dropReturn sign line :: dropReturns sign (next :: rest)

/-- The lines of a text where a carriage return may belong to the end of a line. -/
def readLines (text : List Char) : List (List Char) :=
  dropReturns '\r' (lines text)

/-- A line with its end, which has a carriage return if the flag says so. -/
def endLine (line : List Char × Bool) : List Char :=
  if line.2 then line.1 ++ ['\r', '\n'] else line.1 ++ ['\n']

@[simp] theorem splitOn_nil (separator : Char) : splitOn separator [] = [[]] := rfl

theorem splitOn_separator (separator : Char) (rest : List Char) :
    splitOn separator (separator :: rest) = [] :: splitOn separator rest := by
  simp [splitOn]

theorem splitOn_ne_nil (separator : Char) (text : List Char) : splitOn separator text ≠ [] := by
  cases text with
  | nil => simp
  | cons c rest =>
      unfold splitOn
      split
      · simp
      · split <;> simp

theorem splitOn_append_separator (separator : Char) (a b : List Char) :
    splitOn separator (a ++ separator :: b) = splitOn separator a ++ splitOn separator b := by
  induction a with
  | nil => simp [splitOn]
  | cons c rest ih =>
      by_cases h : c = separator
      · simp only [List.cons_append, splitOn, if_pos h, ih]
      · simp only [List.cons_append, splitOn, if_neg h, ih]
        cases hs : splitOn separator rest with
        | nil => exact absurd hs (splitOn_ne_nil separator rest)
        | cons piece pieces => rfl

theorem splitOn_of_not_mem {separator : Char} {text : List Char} (h : separator ∉ text) :
    splitOn separator text = [text] := by
  induction text with
  | nil => rfl
  | cons c rest ih =>
      rw [List.mem_cons, not_or] at h
      unfold splitOn
      rw [if_neg (Ne.symm h.1), ih h.2]

theorem dropReturns_cons {α : Type} [DecidableEq α] (sign : α) (line : List α)
    {rest : List (List α)} (hrest : rest ≠ []) :
    dropReturns sign (line :: rest) = dropReturn sign line :: dropReturns sign rest := by
  cases rest with
  | nil => exact absurd rfl hrest
  | cons next others => rfl

theorem readLines_endLine {line : List Char × Bool} (hfeed : '\n' ∉ line.1)
    (hreturn : line.1.getLast? ≠ some '\r') (text : List Char) :
    readLines (endLine line ++ text) = line.1 :: readLines text := by
  unfold readLines lines endLine
  split
  · have hpiece : '\n' ∉ line.1 ++ ['\r'] := by simpa using hfeed
    have hline : line.1 ++ ['\r', '\n'] ++ text = (line.1 ++ ['\r']) ++ '\n' :: text := by simp
    rw [hline, splitOn_append_separator, splitOn_of_not_mem hpiece, List.singleton_append,
      dropReturns_cons _ _ (splitOn_ne_nil '\n' text), dropReturn, List.getLast?_concat, if_pos rfl,
      List.dropLast_concat]
  · have hline : line.1 ++ ['\n'] ++ text = line.1 ++ '\n' :: text := by simp
    rw [hline, splitOn_append_separator, splitOn_of_not_mem hfeed, List.singleton_append,
      dropReturns_cons _ _ (splitOn_ne_nil '\n' text), dropReturn, if_neg hreturn]

/-- Lines are read alike whether a carriage return belongs to their ends or not. -/
theorem readLines_ended {ended : List (List Char × Bool)} {last : List Char}
    (hfeed : ∀ line ∈ ended, '\n' ∉ line.1) (hreturn : ∀ line ∈ ended, line.1.getLast? ≠ some '\r')
    (hlast : '\n' ∉ last) :
    readLines (ended.flatMap endLine ++ last) = ended.map Prod.fst ++ [last] := by
  induction ended with
  | nil =>
      rw [List.flatMap_nil, List.nil_append, readLines, lines, splitOn_of_not_mem hlast]
      rfl
  | cons line rest ih =>
      rw [List.forall_mem_cons] at hfeed hreturn
      rw [List.flatMap_cons, List.append_assoc, readLines_endLine hfeed.1 hreturn.1,
        ih hfeed.2 hreturn.2]
      rfl

/-- The last line keeps a carriage return. -/
example : readLines "a\\ \r\nb\r".toList = ["a\\ ".toList, "b\r".toList] := by decide

theorem joinWith_splitOn (separator : Char) (text : List Char) :
    joinWith separator (splitOn separator text) = text := by
  induction text with
  | nil => rfl
  | cons c rest ih =>
      unfold splitOn
      by_cases h : c = separator
      · subst h
        rw [if_pos rfl]
        cases hs : splitOn c rest with
        | nil => exact absurd hs (splitOn_ne_nil c rest)
        | cons piece pieces =>
            rw [hs] at ih
            simp [joinWith, ih]
      · rw [if_neg h]
        cases hs : splitOn separator rest with
        | nil => exact absurd hs (splitOn_ne_nil separator rest)
        | cons piece pieces =>
            rw [hs] at ih
            cases pieces with
            | nil => simpa [joinWith] using ih
            | cons next others => simpa [joinWith] using ih

theorem splitOn_injective {separator : Char} {a b : List Char}
    (h : splitOn separator a = splitOn separator b) : a = b := by
  rw [← joinWith_splitOn separator a, h, joinWith_splitOn]

theorem eq_of_append_separator {separator : Char} {before first rest behind : List Char}
    (hbefore : separator ∉ before) (hfirst : separator ∉ first)
    (h : before ++ separator :: rest = first ++ separator :: behind) : before = first := by
  have hsplit := congrArg (splitOn separator) h
  rw [splitOn_append_separator, splitOn_append_separator, splitOn_of_not_mem hbefore,
    splitOn_of_not_mem hfirst, List.singleton_append, List.singleton_append] at hsplit
  exact (List.cons.inj hsplit).1

theorem separator_not_mem_splitOn {separator : Char} {text piece : List Char}
    (h : piece ∈ splitOn separator text) : separator ∉ piece := by
  induction text generalizing piece with
  | nil =>
      simp at h
      simp [h]
  | cons c rest ih =>
      unfold splitOn at h
      by_cases hc : c = separator
      · rw [if_pos hc] at h
        rcases List.mem_cons.mp h with rfl | h
        · simp
        · exact ih h
      · rw [if_neg hc] at h
        cases hs : splitOn separator rest with
        | nil => exact absurd hs (splitOn_ne_nil separator rest)
        | cons first pieces =>
            rw [hs] at h ih
            rcases List.mem_cons.mp h with rfl | h
            · have := ih (List.mem_cons_self)
              simp [this, Ne.symm hc]
            · exact ih (List.mem_cons_of_mem _ h)

end Text
end StencilDesk
