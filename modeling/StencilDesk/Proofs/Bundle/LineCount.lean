import StencilDesk.Proofs.Bundle.Comparison

/-!
# Changes against numbers of lines

The additions of an entry are lines of the new file, the deletions lines of the old one, and both
together tell how many lines the file gained or lost. This goes wrong for a file without any text
that gets some, and for one that loses all of it: a text without lines still counts as one line
where texts are compared, so the balance of such an entry is off by one, and so is the total for
each of them.
-/

namespace StencilDesk
namespace BundleDiff
open StencilDesk.Bundle

def linesOf : Option String → Nat
  | none => 0
  | some text => lineCount text

def lineTotal (files : List File) : Nat :=
  (files.map fun file => lineCount file.content).sum

/-- Holds of statistics that agree with the numbers of lines before and after. -/
structure Agrees (before after : Option String) (stat : DiffStat) : Prop where
  additions_le : stat.additions ≤ linesOf after
  deletions_le : stat.deletions ≤ linesOf before
  balanced : (stat.additions : Int) - stat.deletions = linesOf after - linesOf before

/-- Holds of a file without text, if it has some on the other side of the comparison. -/
def isBlankSide (status : FileStatus) (content : Option String) : Bool :=
  status == .modified && content == some ""

def wasFilled (old : List File) (entry : FileDiff) : Bool :=
  isBlankSide entry.status (contentAt? old entry.path)

def wasCleared (new : List File) (entry : FileDiff) : Bool :=
  isBlankSide entry.status (contentAt? new entry.path)

/-- Holds of a comparison that agrees with the numbers of lines, but for the files that were filled
or cleared. -/
structure CountsLines (old new : List File) (diff : BundleDiff) : Prop where
  agrees_iff : ∀ entry ∈ diff.files,
    Agrees (contentAt? old entry.path) (contentAt? new entry.path) entry.stat ↔
      wasFilled old entry = false ∧ wasCleared new entry = false
  total_balance : (diff.total.additions : Int) - diff.total.deletions =
    lineTotal new - lineTotal old +
      diff.files.countP (wasCleared new) - diff.files.countP (wasFilled old)

/-!
## One file
-/

theorem pieceCount_eq (text : String) :
    DiffStat.pieceCount text = lineCount text + if text = "" then 1 else 0 := by
  by_cases hempty : text = ""
  · rw [hempty]
    rfl
  · have hsome : ¬text.toList.isEmpty = true := by
      rw [List.isEmpty_iff]
      intro hnone
      exact hempty (String.toList_inj.mp hnone)
    rw [if_neg hempty, lineCount, if_neg hsome]
    rfl

section
variable {before after : Option String} {status : FileStatus} {stat : DiffStat}

theorem isBlankSide_of_ne (h : status ≠ .modified) (content : Option String) :
    isBlankSide status content = false := by
  rw [isBlankSide, beq_eq_false_iff_ne.mpr h, Bool.false_and]

theorem isBlankSide_modified (text : String) :
    isBlankSide .modified (some text) = decide (text = "") := by
  rw [isBlankSide, Bool.eq_iff_iff]
  simp

/-- The balance of an entry is that of the lines, up to one line for a blank side. -/
theorem Becomes.balance (h : Becomes before after status stat) :
    (stat.additions : Int) - stat.deletions = linesOf after - linesOf before +
      (if isBlankSide status after then 1 else 0) - if isBlankSide status before then 1 else 0 := by
  cases h with
  | added text => simp [isBlankSide_of_ne, linesOf]
  | removed text => simp [isBlankSide_of_ne, linesOf]
  | unchanged text => simp [isBlankSide_of_ne, linesOf]
  | modified =>
      rename_i old new _ _
      have hbalance : (DiffStat.ofTexts old new).additions + DiffStat.pieceCount old =
          (DiffStat.ofTexts old new).deletions + DiffStat.pieceCount new :=
        DiffStat.additions_add_length _ _
      rw [pieceCount_eq, pieceCount_eq] at hbalance
      rw [isBlankSide_modified, isBlankSide_modified, linesOf, linesOf]
      simp only [decide_eq_true_eq]
      split_ifs at hbalance ⊢ <;> omega

theorem Becomes.blank_once (h : Becomes before after status stat)
    (hbefore : isBlankSide status before = true) : isBlankSide status after = false := by
  cases h with
  | added text => rw [isBlankSide_of_ne (by simp)]
  | removed text => rw [isBlankSide_of_ne (by simp)]
  | unchanged text => rw [isBlankSide_of_ne (by simp)]
  | modified differs =>
      rw [isBlankSide_modified, decide_eq_true_iff] at hbefore
      rw [isBlankSide_modified, decide_eq_false_iff_not, ← hbefore]
      exact Ne.symm differs

theorem Becomes.bounds (h : Becomes before after status stat)
    (hbefore : isBlankSide status before = false) (hafter : isBlankSide status after = false) :
    stat.additions ≤ linesOf after ∧ stat.deletions ≤ linesOf before := by
  cases h with
  | added text => exact ⟨le_rfl, Nat.zero_le _⟩
  | removed text => exact ⟨Nat.zero_le _, le_rfl⟩
  | unchanged text => exact ⟨Nat.zero_le _, Nat.zero_le _⟩
  | modified =>
      rename_i old new _ _
      rw [isBlankSide_modified, decide_eq_false_iff_not] at hbefore hafter
      have hold := pieceCount_eq old
      have hnew := pieceCount_eq new
      rw [if_neg hbefore, Nat.add_zero] at hold
      rw [if_neg hafter, Nat.add_zero] at hnew
      rw [linesOf, linesOf, ← hold, ← hnew]
      exact ⟨DiffStat.additions_le_length _ _, DiffStat.deletions_le_length _ _⟩

theorem Becomes.agrees_iff (h : Becomes before after status stat) :
    Agrees before after stat ↔
      isBlankSide status before = false ∧ isBlankSide status after = false := by
  have hbalance := h.balance
  constructor
  · intro hagrees
    rw [hagrees.balanced] at hbalance
    cases hbefore : isBlankSide status before with
    | true =>
        rw [hbefore, h.blank_once hbefore, if_pos rfl, if_neg Bool.false_ne_true] at hbalance
        omega
    | false =>
        cases hafter : isBlankSide status after with
        | true =>
            rw [hbefore, hafter, if_pos rfl, if_neg Bool.false_ne_true] at hbalance
            omega
        | false => exact ⟨rfl, rfl⟩
  · rintro ⟨hbefore, hafter⟩
    rcases h.bounds hbefore hafter with ⟨hadditions, hdeletions⟩
    rw [hbefore, hafter] at hbalance
    exact ⟨hadditions, hdeletions, by simpa using hbalance⟩

end

/-!
## All files
-/

theorem contentAt?_eq_none_iff {files : List File} {path : String} :
    contentAt? files path = none ↔ path ∉ files.map File.path := by
  rw [contentAt?, Option.map_eq_none_iff, File.find?_eq_none_iff, mem_paths_iff,
    Bool.not_eq_true]

theorem contentAt?_of_mem {files : List File} (h : Distinct files) {file : File}
    (hmem : file ∈ files) : contentAt? files file.path = some file.content := by
  rw [contentAt?, h.find?_eq hmem]
  rfl

/-- The lines at all paths of a bundle, and at some that it has not, are those of its files. -/
theorem sum_linesOf {files : List File} {paths : List String} (h : Distinct files)
    (hpaths : paths.Nodup) (hall : ∀ path ∈ files.map File.path, path ∈ paths) :
    (paths.map fun path => linesOf (contentAt? files path)).sum = lineTotal files := by
  have hsplit := List.filter_append_perm (fun path => decide (path ∈ files.map File.path)) paths
  have hthere : (paths.filter fun path => decide (path ∈ files.map File.path)).Perm
      (files.map File.path) := by
    rw [List.perm_ext_iff_of_nodup (hpaths.filter _) h]
    intro path
    rw [List.mem_filter, decide_eq_true_iff]
    exact ⟨And.right, fun hmem => ⟨hall path hmem, hmem⟩⟩
  have hmissing : ((paths.filter fun path => !decide (path ∈ files.map File.path)).map
      fun path => linesOf (contentAt? files path)).sum = 0 := by
    apply List.sum_eq_zero
    intro lines hlines
    rcases List.mem_map.mp hlines with ⟨path, hpath, rfl⟩
    have hnone := (List.mem_filter.mp hpath).2
    rw [contentAt?_eq_none_iff.mpr (by simpa using hnone)]
    rfl
  rw [← (hsplit.map _).sum_eq, List.map_append, List.sum_append, hmissing, Nat.add_zero,
    (hthere.map _).sum_eq, List.map_map, lineTotal]
  congr 1
  apply List.map_congr_left
  intro file hmem
  rw [Function.comp_apply, contentAt?_of_mem h hmem]
  rfl

theorem sum_balance {old new : List File} {entries : List FileDiff}
    (h : ∀ entry ∈ entries, Becomes (contentAt? old entry.path) (contentAt? new entry.path)
      entry.status entry.stat) :
    ((entries.map fun entry => entry.stat.additions).sum : Nat) -
        ((entries.map fun entry => entry.stat.deletions).sum : Nat) =
      (((entries.map fun entry => linesOf (contentAt? new entry.path)).sum : Nat) : Int) -
        ((entries.map fun entry => linesOf (contentAt? old entry.path)).sum : Nat) +
        entries.countP (wasCleared new) - entries.countP (wasFilled old) := by
  induction entries with
  | nil => rfl
  | cons entry rest ih =>
      rw [List.forall_mem_cons] at h
      have hfirst := h.1.balance
      have hrest := ih h.2
      rw [List.countP_cons, List.countP_cons, wasFilled, wasCleared]
      simp only [List.map_cons, List.sum_cons]
      split_ifs at hfirst ⊢ <;> omega

section
variable {old new : List File}

/-- A comparison agrees with the numbers of lines, but for the files that were filled or cleared. -/
theorem countsLines_compare (hold : Addressed old) (hnew : Addressed new) :
    (compare old new).CountsLines old new := by
  have htells := tells_of_addressed hold hnew
  constructor
  · exact fun entry hmem => (htells.becomes entry hmem).agrees_iff
  · have hbalance := sum_balance htells.becomes
    have hlines : ∀ {files : List File}, Distinct files →
        (∀ path ∈ files.map File.path, path ∈ (compare old new).files.map FileDiff.path) →
        ((compare old new).files.map fun entry => linesOf (contentAt? files entry.path)).sum =
          lineTotal files := by
      intro files hfiles hall
      rw [← sum_linesOf hfiles htells.distinct hall, List.map_map]
      rfl
    rw [hlines hold.distinct fun path hpath => (htells.complete path).mpr (.inl hpath),
      hlines hnew.distinct fun path hpath => (htells.complete path).mpr (.inr hpath)] at hbalance
    rw [htells.total_eq]
    exact hbalance

end

def blankFiles : List File :=
  [File.ofPath "/a.ftl" "", File.ofPath "/b.ftl" "one\n"]

def startedFiles : List File :=
  [File.ofPath "/a.ftl" "x", File.ofPath "/c.ftl" "two"]

theorem addressed_blankFiles : Addressed blankFiles :=
  ⟨by decide, by decide, by unfold Distinct; decide⟩

theorem addressed_startedFiles : Addressed startedFiles :=
  ⟨by decide, by decide, by unfold Distinct; decide⟩

theorem countsLines_compare_started :
    Addressed blankFiles ∧ Addressed startedFiles ∧
      (compare blankFiles startedFiles).CountsLines blankFiles startedFiles :=
  ⟨addressed_blankFiles, addressed_startedFiles,
    countsLines_compare addressed_blankFiles addressed_startedFiles⟩

/-- The first line of a file without text counts as added and as deleted. -/
theorem not_agrees_blank :
    ¬ ∀ old new, Addressed old → Addressed new → ∀ entry ∈ (compare old new).files,
      Agrees (contentAt? old entry.path) (contentAt? new entry.path) entry.stat := by
  intro h
  have hentry : (⟨"/a.ftl", .modified, DiffStat.ofTexts "" "x"⟩ : FileDiff) ∈
      (compare blankFiles startedFiles).files := by
    rw [mem_compare_iff addressed_blankFiles.wellFormed addressed_startedFiles.wellFormed]
    exact ⟨by decide, rfl⟩
  have hbound := (h _ _ addressed_blankFiles addressed_startedFiles _ hentry).deletions_le
  have hdeleted : (DiffStat.ofTexts "" "x").deletions = 1 := by
    rw [DiffStat.ofTexts, DiffStat.deletions_ofLines]
    decide
  rw [hdeleted] at hbound
  exact absurd hbound (by decide)

end BundleDiff
end StencilDesk
