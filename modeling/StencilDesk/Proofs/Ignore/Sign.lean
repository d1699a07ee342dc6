import StencilDesk.Ignore.Rule

/-!
# The sign of an ignore rule

An exclamation mark before a line turns its rule round, and does not change what the rule applies
to. This also holds of lines that start with an escaped sign, which are read in two ways: with the
backslash taken as a sign, and with the backslash taken as part of the glob.
-/

namespace StencilDesk

namespace Text

theorem trimEnd_trimEnd (text : List Char) : trimEnd (trimEnd text) = trimEnd text := by
  induction text with
  | nil => rfl
  | cons c rest ih =>
      cases hrest : trimEnd rest with
      | nil =>
          cases hblank : isBlank c with
          | true => simp [trimEnd, hrest, hblank]
          | false => simp [trimEnd, hrest, hblank]
      | cons d kept =>
          rw [hrest] at ih
          have hkept : trimEnd (c :: rest) = c :: d :: kept := by simp [trimEnd, hrest]
          rw [hkept, trimEnd, ih]

theorem trimEnd_trim (text : List Char) : trimEnd (trim text) = trim text :=
  trimEnd_trimEnd _

theorem trimEnd_cons {c : Char} {text : List Char} (h : trimEnd text = text) (hne : text ≠ []) :
    trimEnd (c :: text) = c :: text := by
  cases text with
  | nil => exact absurd rfl hne
  | cons d rest => rw [trimEnd, h]

end Text

namespace IgnoreRule

theorem trimLine_of_trimmed {line : List Char} (h : Text.trimEnd line = line) :
    trimLine line = line := by
  unfold trimLine
  split
  · rfl
  · exact h

def ofPattern (allowUnclosed : Bool) (pattern : Pattern) :
    Except GlobFault (Option IgnoreRule) :=
  (Glob.ofText allowUnclosed (globText (takeFolderSign pattern))).map fun glob =>
    some
      { glob
        keeps := (takeFolderSign pattern).keeps
        foldersOnly := (takeFolderSign pattern).foldersOnly }

theorem ofLine_of_trimmed (allowUnclosed : Bool) {line : List Char}
    (hcomment : line.head? ≠ some '#') (htrimmed : Text.trimEnd line = line) (hne : line ≠ []) :
    ofLine allowUnclosed line = ofPattern allowUnclosed (takeSigns line) := by
  unfold ofPattern
  unfold ofLine
  rw [if_neg hcomment]
  simp only [trimLine_of_trimmed htrimmed]
  rw [if_neg (by simpa using hne)]
  cases Glob.ofText allowUnclosed (globText (takeFolderSign (takeSigns line))) with
  | error fault => rfl
  | ok glob => rfl

/-!
## Signs and slashes
-/

theorem takeAnchor_keeps (pattern : Pattern) :
    takeAnchor { pattern with keeps := true } = { takeAnchor pattern with keeps := true } := by
  unfold takeAnchor
  dsimp only
  split
  · rfl
  · rfl

theorem takeFolderSign_keeps (pattern : Pattern) :
    takeFolderSign { pattern with keeps := true } =
      { takeFolderSign pattern with keeps := true } := by
  unfold takeFolderSign
  dsimp only
  split
  · rfl
  · rfl
  · rfl

theorem takeFolderSign_cons (before : Char) {c : Char} (hc : c ≠ '/') (hc' : c ≠ '\\')
    (rest : List Char) (keeps anchored : Bool) :
    ∃ kept foldersOnly,
      takeFolderSign { text := c :: rest, keeps, anchored } =
        { text := c :: kept, keeps, anchored, foldersOnly } ∧
      takeFolderSign { text := before :: c :: rest, keeps, anchored } =
        { text := before :: c :: kept, keeps, anchored, foldersOnly } := by
  unfold takeFolderSign
  have hreverse : (c :: rest).reverse = rest.reverse ++ [c] := List.reverse_cons
  have hlonger : (before :: c :: rest).reverse = rest.reverse ++ [c, before] := by simp
  simp only [hreverse, hlonger]
  cases hrest : rest.reverse with
  | nil =>
      have hnil : rest = [] := List.reverse_eq_nil_iff.mp hrest
      refine ⟨[], false, ?_, ?_⟩
      · simp [hnil, hc]
      · simp [hnil, hc]
  | cons last front =>
      by_cases hslash : last = '/'
      · cases front with
        | nil =>
            refine ⟨[], true, ?_, ?_⟩
            · simp [hslash, hc']
            · simp [hslash, hc']
        | cons d more =>
            by_cases hescape : d = '\\'
            · refine ⟨more.reverse, true, ?_, ?_⟩
              · simp [hslash, hescape]
              · simp [hslash, hescape]
            · refine ⟨more.reverse ++ [d], true, ?_, ?_⟩
              · simp [hslash, hescape]
              · simp [hslash, hescape]
      · refine ⟨rest, false, ?_, ?_⟩
        · simp [hslash]
        · simp [hslash]

/-!
## Escaped signs
-/

def IsSign (c : Char) : Prop :=
  c = '!' ∨ c = '#'

theorem read_escaped (allowUnclosed : Bool) (r : Glob.Reading) {c : Char} (hc : IsSign c)
    (rest : List Char) :
    Glob.read allowUnclosed r ('\\' :: c :: rest) = Glob.read allowUnclosed r (c :: rest) := by
  rcases hc with hc | hc
  · rw [hc, Glob.read, Glob.read]
    all_goals simp
  · rw [hc, Glob.read, Glob.read]
    all_goals simp

theorem read_leadingFolders (allowUnclosed : Bool) (rest : List Char) :
    Glob.read allowUnclosed {} ('*' :: '*' :: '/' :: rest) =
      Glob.read allowUnclosed (Glob.Reading.push {} .leadingFolders '/') rest := by
  rw [Glob.read]
  rfl

/-- A glob does not end in two stars because of what is before a sign in it. -/
theorem isSuffixOf_stars {c : Char} (hc : IsSign c) (before rest : List Char) :
    ['/', '*', '*'].isSuffixOf (before ++ c :: rest) = ['/', '*', '*'].isSuffixOf rest := by
  rw [Bool.eq_iff_iff, List.isSuffixOf_iff_suffix, List.isSuffixOf_iff_suffix]
  constructor
  · intro h
    have hout : c ∉ ['/', '*', '*'] := by
      rcases hc with hc | hc
      · simp [hc]
      · simp [hc]
    rcases List.suffix_or_suffix_of_suffix h (List.suffix_append before (c :: rest)) with
      hshort | hlong
    · rcases List.suffix_cons_iff.mp hshort with hsame | hrest
      · rw [hsame] at hout
        exact absurd List.mem_cons_self hout
      · exact hrest
    · exact absurd (hlong.subset List.mem_cons_self) hout
  · intro h
    exact h.trans ((List.suffix_cons c rest).trans (List.suffix_append before _))

/-- What is read of a glob before a sign at the start of a pattern: two stars unless a slash follows
somewhere. -/
def depthStart (kept : List Char) : List Char :=
  if kept.contains '/' then [] else ['*', '*', '/']

/-- The rest of a pattern as it is in its glob: two stars at the end stand for what is inside. -/
def closeStars (kept : List Char) : List Char :=
  if ['/', '*', '*'].isSuffixOf kept then kept ++ ['/', '*'] else kept

theorem closeStars_append {c : Char} (hc : IsSign c) (before kept : List Char) :
    closeStars (before ++ c :: kept) = before ++ c :: closeStars kept := by
  unfold closeStars
  rw [isSuffixOf_stars hc]
  split
  · rw [List.append_assoc, List.cons_append]
  · rfl

theorem globText_eq (text : List Char) (keeps foldersOnly : Bool) :
    globText { text, keeps, foldersOnly } =
      closeStars (if text.contains '/' || text == ['*', '*'] then text
        else ['*', '*', '/'] ++ text) := rfl

theorem globText_sign {c : Char} (hc : IsSign c) (kept : List Char) (keeps foldersOnly : Bool) :
    globText { text := c :: kept, keeps, foldersOnly } =
      depthStart kept ++ c :: closeStars kept := by
  have hslash : ((c :: kept).contains '/' || (c :: kept) == ['*', '*']) = kept.contains '/' := by
    rcases hc with hc | hc
    · simp [hc]
    · simp [hc]
  rw [globText_eq, hslash]
  unfold depthStart
  split
  · exact closeStars_append hc [] kept
  · exact closeStars_append hc ['*', '*', '/'] kept

theorem globText_escaped {c : Char} (hc : IsSign c) (kept : List Char)
    (keeps foldersOnly : Bool) :
    globText { text := '\\' :: c :: kept, keeps, foldersOnly } =
      depthStart kept ++ '\\' :: c :: closeStars kept := by
  have hslash : (('\\' :: c :: kept).contains '/' || ('\\' :: c :: kept) == ['*', '*']) =
      kept.contains '/' := by
    rcases hc with hc | hc
    · simp [hc]
    · simp [hc]
  rw [globText_eq, hslash]
  unfold depthStart
  split
  · exact closeStars_append hc ['\\'] kept
  · exact closeStars_append hc ['*', '*', '/', '\\'] kept

/-- A pattern of which the sign is escaped gives the same glob with and without its backslash. -/
theorem ofText_escaped (allowUnclosed : Bool) {c : Char} (hc : IsSign c) (kept : List Char)
    (keeps foldersOnly : Bool) :
    Glob.ofText allowUnclosed (globText { text := '\\' :: c :: kept, keeps, foldersOnly }) =
      Glob.ofText allowUnclosed (globText { text := c :: kept, foldersOnly }) := by
  rw [globText_escaped hc, globText_sign hc]
  unfold Glob.ofText depthStart
  split
  · rw [List.nil_append, List.nil_append, read_escaped allowUnclosed _ hc]
  · simp only [List.cons_append, List.nil_append, read_leadingFolders,
      read_escaped allowUnclosed _ hc]

/-!
## Lines
-/

theorem ofPattern_keeps (allowUnclosed : Bool) (pattern : Pattern) :
    ofPattern allowUnclosed { pattern with keeps := true } =
      (ofPattern allowUnclosed pattern).map
        (Option.map fun rule => { rule with keeps := true }) := by
  unfold ofPattern
  rw [takeFolderSign_keeps]
  show (Glob.ofText allowUnclosed (globText (takeFolderSign pattern))).map _ = _
  cases Glob.ofText allowUnclosed (globText (takeFolderSign pattern)) with
  | error fault => rfl
  | ok glob => rfl

theorem ofPattern_escaped (allowUnclosed : Bool) {c : Char} (hc : IsSign c) (rest : List Char) :
    ofPattern allowUnclosed { text := '\\' :: c :: rest } =
      ofPattern allowUnclosed { text := c :: rest } := by
  have hnever : c ≠ '/' ∧ c ≠ '\\' := by
    rcases hc with hc | hc
    · simp [hc]
    · simp [hc]
  rcases takeFolderSign_cons '\\' hnever.1 hnever.2 rest false false with
    ⟨kept, foldersOnly, hplain, hescaped⟩
  unfold ofPattern
  rw [hplain, hescaped, ofText_escaped allowUnclosed hc]

theorem ofLine_negated (allowUnclosed : Bool) {line : List Char}
    (hcomment : line.head? ≠ some '#') (hsign : line.head? ≠ some '!')
    (htrimmed : Text.trimEnd line = line) (hne : line ≠ []) :
    ofLine allowUnclosed ('!' :: line) =
      (ofLine allowUnclosed line).map (Option.map fun rule => { rule with keeps := true }) := by
  rw [ofLine_of_trimmed allowUnclosed hcomment htrimmed hne,
    ofLine_of_trimmed allowUnclosed (by simp) (Text.trimEnd_cons htrimmed hne) (by simp)]
  show ofPattern allowUnclosed (takeAnchor { ({ text := line } : Pattern) with keeps := true }) =
    (ofPattern allowUnclosed (takeSigns line)).map _
  rw [takeAnchor_keeps, ofPattern_keeps]
  congr 1
  -- Only a backslash before a sign makes a difference to how the line is taken apart.
  unfold takeSigns
  split
  · exact ofPattern_escaped allowUnclosed (.inl rfl) _
  · exact ofPattern_escaped allowUnclosed (.inr rfl) _
  · exact absurd rfl hsign
  · rfl

end IgnoreRule
end StencilDesk
