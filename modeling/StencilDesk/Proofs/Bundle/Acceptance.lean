import StencilDesk.Proofs.Bundle.Segments
import StencilDesk.Proofs.Bundle.Storable

/-!
# Which bundles the store accepts

The store takes a bundle if every path is a slash and proper parts, no path is there twice or goes
on behind another one, and there is a main configuration. Else it tells the first reason not to:
first the paths one by one, then where the files lie, and the main configuration last.
-/

namespace StencilDesk
namespace Path

/-- What stands between the slashes of a path, from the first one on. -/
def parts (path : String) : List String :=
  ((pieces path).drop 1).map String.ofList

def IsProper (part : String) : Prop :=
  part ≠ "" ∧ part ≠ "." ∧ part ≠ ".."

structure WellFormed (path : String) : Prop where
  absolute : path.toList.head? = some '/'
  proper : ∀ part ∈ parts path, IsProper part

/-- What is told about a path that does not keep the rules: its first improper part decides. -/
inductive Malformed (path : String) : PathFault → Prop where
  | relative (hrelative : path.toList.head? ≠ some '/') : Malformed path (.invalid path)
  | traversal {before after : List String} (habsolute : path.toList.head? = some '/')
      (hparts : parts path = before ++ ".." :: after) (hbefore : ∀ part ∈ before, IsProper part) :
      Malformed path (.traversal path)
  | improper {before after : List String} {part : String}
      (habsolute : path.toList.head? = some '/') (hparts : parts path = before ++ part :: after)
      (hbefore : ∀ part ∈ before, IsProper part) (hpart : part = "" ∨ part = ".") :
      Malformed path (.invalid path)

/-- Holds if a path has all parts of another one first, and more behind them. -/
def GoesOn (above path : String) : Prop :=
  parts above <+: parts path ∧ parts above ≠ parts path

/-!
## Paths
-/

section
variable {path above : String} {pieces : List (List Char)} {fault : PathFault}

theorem isProper_ofList {piece : List Char} :
    IsProper (String.ofList piece) ↔ ProperPiece piece := by
  have htext : ∀ text : String, String.ofList piece = text ↔ piece = text.toList := by
    intro text
    rw [← String.toList_inj, String.toList_ofList]
  unfold IsProper ProperPiece
  simp only [Ne, htext]
  rfl

theorem checkPieces_append {before : List (List Char)} (h : ∀ piece ∈ before, ProperPiece piece) :
    checkPieces path (before ++ pieces) = checkPieces path pieces := by
  induction before with
  | nil => rfl
  | cons piece rest ih =>
      rw [List.forall_mem_cons] at h
      rcases h with ⟨⟨hsome, hone, htwo⟩, hrest⟩
      rw [List.cons_append, checkPieces, if_neg htwo, if_neg (not_or.mpr ⟨hone, hsome⟩), ih hrest]

theorem exists_of_checkPieces (h : checkPieces path pieces = .error fault) :
    ∃ before piece after, pieces = before ++ piece :: after ∧
      (∀ piece ∈ before, ProperPiece piece) ∧
      ((piece = ['.', '.'] ∧ fault = .traversal path) ∨
        ((piece = [] ∨ piece = ['.']) ∧ fault = .invalid path)) := by
  induction pieces with
  | nil => cases h
  | cons piece rest ih =>
      have hnone : ∀ other ∈ ([] : List (List Char)), ProperPiece other := by
        intro other hmem
        cases hmem
      rw [checkPieces] at h
      split at h
      · rename_i htwo
        cases h
        exact ⟨[], piece, rest, rfl, hnone, .inl ⟨htwo, rfl⟩⟩
      · rename_i htwo
        split at h
        · rename_i hbad
          cases h
          exact ⟨[], piece, rest, rfl, hnone, .inr ⟨hbad.symm, rfl⟩⟩
        · rename_i hfine
          rw [not_or] at hfine
          rcases ih h with ⟨before, bad, after, hsplit, hbefore, hbad⟩
          refine ⟨piece :: before, bad, after, by rw [hsplit]; rfl, ?_, hbad⟩
          exact List.forall_mem_cons.mpr ⟨⟨hfine.2, hfine.1, htwo⟩, hbefore⟩

theorem check_of_absolute (habsolute : path.toList.head? = some '/') (hroot : path ≠ root) :
    check path = checkPieces path ((Path.pieces path).drop 1) := by
  rw [check, if_neg (not_not.mpr habsolute), if_neg hroot]

theorem check_of_relative (hrelative : path.toList.head? ≠ some '/') :
    check path = .error (.invalid path) := by
  rw [check, if_pos hrelative]

theorem check_eq_ok_iff_wellFormed (hroot : path ≠ root) :
    check path = .ok () ↔ WellFormed path := by
  by_cases habsolute : path.toList.head? = some '/'
  · rw [check_of_absolute habsolute hroot, checkPieces_eq_ok_iff]
    have hparts : (∀ part ∈ parts path, IsProper part) ↔
        ∀ piece ∈ (Path.pieces path).drop 1, ProperPiece piece := by
      unfold parts
      rw [List.forall_mem_map]
      simp only [isProper_ofList]
    rw [← hparts]
    exact ⟨fun hproper => ⟨habsolute, hproper⟩, WellFormed.proper⟩
  · rw [check_of_relative habsolute]
    constructor
    · intro h
      cases h
    · intro h
      exact absurd h.absolute habsolute

theorem check_eq_error_iff (hroot : path ≠ root) :
    check path = .error fault ↔ Malformed path fault := by
  constructor
  · intro h
    by_cases habsolute : path.toList.head? = some '/'
    · rw [check_of_absolute habsolute hroot] at h
      rcases exists_of_checkPieces h with ⟨before, piece, after, hsplit, hbefore, hbad⟩
      have hparts : parts path =
          before.map String.ofList ++ String.ofList piece :: after.map String.ofList := by
        rw [parts, hsplit, List.map_append, List.map_cons]
      have hproper : ∀ part ∈ before.map String.ofList, IsProper part := by
        rw [List.forall_mem_map]
        intro other hmem
        exact isProper_ofList.mpr (hbefore other hmem)
      rcases hbad with ⟨rfl, rfl⟩ | ⟨rfl | rfl, rfl⟩
      · exact .traversal habsolute hparts hproper
      · exact .improper habsolute hparts hproper (.inl rfl)
      · exact .improper habsolute hparts hproper (.inr rfl)
    · rw [check_of_relative habsolute, Except.error.injEq] at h
      rw [← h]
      exact .relative habsolute
  · -- Whatever the first improper part is, the pieces before it are passed.
    have hpassed : ∀ {before after : List String} {part : String},
        path.toList.head? = some '/' → parts path = before ++ part :: after →
        (∀ part ∈ before, IsProper part) →
        ∃ rest, check path = checkPieces path (part.toList :: rest) := by
      intro before after part habsolute hparts hbefore
      rcases List.map_eq_append_iff.mp hparts with ⟨first, rest, hsplit, rfl, hrest⟩
      rcases List.map_eq_cons_iff.mp hrest with ⟨piece, others, rfl, rfl, _⟩
      have hproper : ∀ piece ∈ first, ProperPiece piece := by
        intro other hmem
        exact isProper_ofList.mp (hbefore _ (List.mem_map_of_mem hmem))
      rw [check_of_absolute habsolute hroot, hsplit, checkPieces_append hproper,
        String.toList_ofList]
      exact ⟨others, rfl⟩
    intro h
    cases h with
    | relative hrelative => exact check_of_relative hrelative
    | traversal habsolute hparts hbefore =>
        rcases hpassed habsolute hparts hbefore with ⟨rest, hcheck⟩
        rw [hcheck]
        rfl
    | improper habsolute hparts hbefore hpart =>
        rcases hpassed habsolute hparts hbefore with ⟨rest, hcheck⟩
        rw [hcheck]
        rcases hpart with rfl | rfl
        · rfl
        · rfl

theorem not_wellFormed_root : ¬WellFormed root := by
  intro h
  exact (h.proper "" (by decide)).1 rfl

theorem WellFormed.check_eq (h : WellFormed path) : check path = .ok () ∧ path ≠ root := by
  have hroot : path ≠ root := by
    rintro rfl
    exact not_wellFormed_root h
  exact ⟨(check_eq_ok_iff_wellFormed hroot).mpr h, hroot⟩

theorem WellFormed.segments_eq (h : WellFormed path) : segments path = parts path := by
  rcases h.check_eq with ⟨hcheck, hroot⟩
  rcases (check_eq_ok_iff.mp hcheck).resolve_left hroot with ⟨rest, hpath, hproper⟩
  rw [segments_of_proper hpath hproper, parts, Path.pieces, hpath, Text.splitOn_separator]
  rfl

theorem WellFormed.descend_parts (h : WellFormed path) : descend "" (parts path) = path := by
  rw [← h.segments_eq]
  exact (descend_segments h.check_eq.1 h.check_eq.2).2

theorem WellFormed.goesOn_iff (h : WellFormed path) (habove : WellFormed above) :
    GoesOn above path ↔ IsAbove above path := by
  constructor
  · rintro ⟨⟨rest, hrest⟩, hne⟩
    have hsome : rest ≠ [] := by
      rintro rfl
      exact hne (by rw [← hrest, List.append_nil])
    have hspelled : IsAbove (descend "" (parts above)) (descend "" (parts above ++ rest)) :=
      isAbove_descend hsome
    rw [hrest, h.descend_parts, habove.descend_parts] at hspelled
    exact hspelled
  · intro hisAbove
    rcases segments_of_isAbove h.check_eq.1 hisAbove (ne_empty_of_check habove.check_eq.1) with
      ⟨_, _, rest, hsome, hrest⟩
    rw [h.segments_eq, habove.segments_eq] at hrest
    unfold GoesOn
    rw [hrest]
    refine ⟨List.prefix_append _ _, ?_⟩
    intro hsame
    exact hsome (List.self_eq_append_right.mp hsame)

end

end Path

namespace Bundle

/-!
## What is asked of a bundle
-/

structure Faultless (files : List File) : Prop where
  wellFormed : ∀ file ∈ files, Path.WellFormed file.path
  distinct : (files.map File.path).Nodup

/-- Holds of the files that can be saved. -/
structure IsBundle (files : List File) : Prop extends Faultless files where
  apart : ∀ file ∈ files, ∀ above ∈ files, ¬Path.GoesOn above.path file.path
  configured : ∃ file ∈ files, file.path = File.mainConfigPath

/-- Holds of the file that the path of another one goes on behind, and of no longer one. -/
structure NearestAbove (files : List File) (file above : File) : Prop where
  mem : above ∈ files
  goesOn : Path.GoesOn above.path file.path
  longest : ∀ other ∈ files, Path.GoesOn other.path file.path →
    (Path.parts other.path).length ≤ (Path.parts above.path).length

/-- The first reason not to take some files. -/
inductive Refused (id : String) (files : List File) : StoreFault → Prop where
  | malformed {before after : List File} {file : File} {fault : PathFault}
      (hfiles : files = before ++ file :: after) (hbefore : Faultless before)
      (hfault : Path.Malformed file.path fault) : Refused id files (.invalidPath fault)
  | repeated {before after : List File} {file : File}
      (hfiles : files = before ++ file :: after) (hbefore : Faultless before)
      (hseen : ∃ other ∈ before, other.path = file.path) :
      Refused id files (.duplicatePath file.path)
  | below {before after : List File} {file above : File} (hpaths : Faultless files)
      (hfiles : files = before ++ file :: after)
      (hbefore : ∀ earlier ∈ before, ∀ other ∈ files, ¬Path.GoesOn other.path earlier.path)
      (habove : NearestAbove files file above) :
      Refused id files (.rejected s!"{file.path} is stored below the file {above.path}")
  | unconfigured (hpaths : Faultless files)
      (hapart : ∀ file ∈ files, ∀ above ∈ files, ¬Path.GoesOn above.path file.path)
      (hmain : ∀ file ∈ files, file.path ≠ File.mainConfigPath) :
      Refused id files (.missingMainConfig id)

section
variable {files before after : List File} {file above : File} {id : String} {seen : List String}
  {fault : StoreFault}

/-!
## Paths one by one
-/

theorem checkPaths_append {rest : List File} (h : checkPaths seen before = .ok ()) :
    checkPaths seen (before ++ rest) =
      checkPaths ((before.map File.path).reverse ++ seen) rest := by
  induction before generalizing seen with
  | nil => rfl
  | cons file others ih =>
      rw [checkPaths] at h
      rw [List.cons_append, checkPaths]
      cases hcheck : Path.check file.path with
      | error fault =>
          rw [hcheck] at h
          cases h
      | ok _ =>
          rw [hcheck] at h
          dsimp only at h ⊢
          split at h
          · cases h
          · rename_i hnew
            rw [if_neg hnew, ih h, List.map_cons, List.reverse_cons, List.append_assoc]
            rfl

theorem checkPaths_eq_error_iff :
    checkPaths seen files = .error fault ↔ ∃ before file after, files = before ++ file :: after ∧
      checkPaths seen before = .ok () ∧
      ((∃ broken, Path.check file.path = .error broken ∧ fault = .invalidPath broken) ∨
        (Path.check file.path = .ok () ∧ (file.path ∈ seen ∨ ∃ other ∈ before,
          other.path = file.path) ∧ fault = .duplicatePath file.path)) := by
  constructor
  · intro h
    induction files generalizing seen with
    | nil => cases h
    | cons file rest ih =>
        rw [checkPaths] at h
        cases hcheck : Path.check file.path with
        | error broken =>
            rw [hcheck] at h
            cases h
            exact ⟨[], file, rest, rfl, rfl, .inl ⟨broken, hcheck, rfl⟩⟩
        | ok _ =>
            rw [hcheck] at h
            dsimp only at h
            split at h
            · rename_i hseen
              cases h
              exact ⟨[], file, rest, rfl, rfl,
                .inr ⟨hcheck, .inl (List.contains_iff_mem.mp hseen), rfl⟩⟩
            · rename_i hnew
              rcases ih h with ⟨before, bad, after, hsplit, hbefore, hbad⟩
              refine ⟨file :: before, bad, after, by rw [hsplit]; rfl, ?_, ?_⟩
              · rw [checkPaths, hcheck]
                dsimp only
                rw [if_neg hnew]
                exact hbefore
              · rcases hbad with hbroken | ⟨hfine, hagain, hfault⟩
                · exact .inl hbroken
                · refine .inr ⟨hfine, ?_, hfault⟩
                  rcases hagain with hmem | ⟨other, hother, hsame⟩
                  · rcases List.mem_cons.mp hmem with hsame | hold
                    · exact .inr ⟨file, List.mem_cons_self, hsame.symm⟩
                    · exact .inl hold
                  · exact .inr ⟨other, List.mem_cons_of_mem file hother, hsame⟩
  · rintro ⟨before, file, after, rfl, hbefore, hbad⟩
    rw [checkPaths_append hbefore, checkPaths]
    rcases hbad with ⟨broken, hcheck, rfl⟩ | ⟨hcheck, hagain, rfl⟩
    · rw [hcheck]
    · have hmem : file.path ∈ (before.map File.path).reverse ++ seen := by
        rw [List.mem_append, List.mem_reverse, List.mem_map]
        exact hagain.symm
      rw [hcheck]
      dsimp only
      rw [if_pos (List.contains_iff_mem.mpr hmem)]

theorem checkPaths_eq_ok_iff_faultless (hroot : ∀ file ∈ files, file.path ≠ Path.root) :
    checkPaths [] files = .ok () ↔ Faultless files := by
  rw [checkPaths_eq_ok_iff]
  constructor
  · rintro ⟨hpaths, hdistinct, _⟩
    refine ⟨?_, hdistinct⟩
    intro file hmem
    exact (Path.check_eq_ok_iff_wellFormed (hroot file hmem)).mp (hpaths file hmem)
  · rintro ⟨hpaths, hdistinct⟩
    refine ⟨fun file hmem => (hpaths file hmem).check_eq.1, hdistinct, ?_⟩
    intro file _ hmem
    cases hmem

/-!
## The files above a file
-/

theorem pairwise_ancestors (fuel : Nat) (path : String) :
    (ancestors fuel path).Pairwise fun near far => Path.IsAbove far near := by
  induction fuel generalizing path with
  | zero => exact .nil
  | succ fuel ih =>
      rw [ancestors]
      split
      · exact .nil
      · rw [List.pairwise_cons]
        exact ⟨fun _ hmem => (isAbove_of_mem_ancestors hmem).2.2, ih _⟩

theorem fileAbove?_eq_some {path text : String} (h : fileAbove? files path = some text) :
    (∃ above ∈ files, above.path = text) ∧ Path.IsAbove text path ∧
      ∀ other ∈ files, other.path ≠ "" → other.path ≠ Path.root →
        Path.IsAbove other.path path → other.path = text ∨ Path.IsAbove other.path text := by
  rcases List.find?_eq_some_iff_append.mp h with ⟨hexists, near, far, hsplit, hnear⟩
  have hordered := pairwise_ancestors path.toList.length path
  have hmem : text ∈ ancestors path.toList.length path := by
    rw [hsplit]
    exact List.mem_append_right _ List.mem_cons_self
  refine ⟨File.existsAt_iff.mp hexists, (isAbove_of_mem_ancestors hmem).2.2, ?_⟩
  intro other hother hempty hroot habove
  have hlisted := mem_ancestors_iff.mpr ⟨hempty, hroot, habove⟩
  rw [hsplit, List.pairwise_append, List.pairwise_cons] at hordered
  rw [hsplit, List.mem_append, List.mem_cons] at hlisted
  rcases hlisted with hin | hsame | hin
  · have hnot := hnear other.path hin
    rw [File.existsAt_iff.mpr ⟨other, hother, rfl⟩] at hnot
    cases hnot
  · exact .inl hsame
  · exact .inr (hordered.2.1.1 other.path hin)

theorem Faultless.goesOn_iff (h : Faultless files) (hfile : file ∈ files) (habove : above ∈ files) :
    Path.GoesOn above.path file.path ↔ Path.IsAbove above.path file.path :=
  (h.wellFormed file hfile).goesOn_iff (h.wellFormed above habove)

theorem Faultless.fileAbove?_eq_none_iff (h : Faultless files) (hfile : file ∈ files) :
    fileAbove? files file.path = none ↔
      ∀ above ∈ files, ¬Path.GoesOn above.path file.path := by
  rw [Bundle.fileAbove?_eq_none_iff]
  constructor
  · intro hnone above habove hgoesOn
    have hcheck := (h.wellFormed above habove).check_eq
    exact hnone above habove (Path.ne_empty_of_check hcheck.1) hcheck.2
      ((h.goesOn_iff hfile habove).mp hgoesOn)
  · intro hnone above habove _ _ hisAbove
    exact hnone above habove ((h.goesOn_iff hfile habove).mpr hisAbove)

theorem Faultless.nearestAbove (h : Faultless files) (hfile : file ∈ files) {text : String}
    (hfound : fileAbove? files file.path = some text) :
    ∃ above, NearestAbove files file above ∧ above.path = text := by
  rcases fileAbove?_eq_some hfound with ⟨⟨above, hmem, rfl⟩, habove, hnearest⟩
  refine ⟨above, ⟨hmem, (h.goesOn_iff hfile hmem).mpr habove, ?_⟩, rfl⟩
  intro other hother hgoesOn
  have hcheck := (h.wellFormed other hother).check_eq
  rcases hnearest other hother (Path.ne_empty_of_check hcheck.1) hcheck.2
      ((h.goesOn_iff hfile hother).mp hgoesOn) with hsame | hfurther
  · rw [hsame]
  · exact ((h.goesOn_iff hmem hother).mpr hfurther).1.length_le

theorem Faultless.path_eq_of_nearestAbove (h : Faultless files) {other : File}
    (habove : NearestAbove files file above) (hother : NearestAbove files file other) :
    above.path = other.path := by
  have hlength := Nat.le_antisymm (hother.longest above habove.mem habove.goesOn)
    (habove.longest other hother.mem hother.goesOn)
  have hparts := List.prefix_of_prefix_length_le habove.goesOn.1 hother.goesOn.1 hlength.le
  rw [← (h.wellFormed above habove.mem).descend_parts, hparts.eq_of_length hlength,
    (h.wellFormed other hother.mem).descend_parts]

theorem Faultless.fileAbove?_eq_some_iff (h : Faultless files) (hfile : file ∈ files)
    {text : String} : fileAbove? files file.path = some text ↔
      ∃ above, NearestAbove files file above ∧ above.path = text := by
  constructor
  · exact h.nearestAbove hfile
  · rintro ⟨above, habove, rfl⟩
    cases hfound : fileAbove? files file.path with
    | none =>
        have hnone := (h.fileAbove?_eq_none_iff hfile).mp hfound above habove.mem
        exact absurd habove.goesOn hnone
    | some text =>
        rcases h.nearestAbove hfile hfound with ⟨other, hother, rfl⟩
        rw [h.path_eq_of_nearestAbove hother habove]

theorem checkLevels_append {rest : List File}
    (h : ∀ file ∈ before, fileAbove? files file.path = none) :
    checkLevels files (before ++ rest) = checkLevels files rest := by
  induction before with
  | nil => rfl
  | cons file others ih =>
      rw [List.forall_mem_cons] at h
      rw [List.cons_append, checkLevels, h.1, ih h.2]

theorem checkLevels_eq_error_iff {rest : List File} :
    checkLevels files rest = .error fault ↔ ∃ before file after text,
      rest = before ++ file :: after ∧ (∀ file ∈ before, fileAbove? files file.path = none) ∧
      fileAbove? files file.path = some text ∧
      fault = .rejected s!"{file.path} is stored below the file {text}" := by
  constructor
  · intro h
    induction rest with
    | nil => cases h
    | cons file rest ih =>
        rw [checkLevels] at h
        cases hfound : fileAbove? files file.path with
        | some text =>
            rw [hfound] at h
            cases h
            refine ⟨[], file, rest, text, rfl, ?_, hfound, rfl⟩
            intro other hmem
            cases hmem
        | none =>
            rw [hfound] at h
            rcases ih h with ⟨before, bad, after, text, hsplit, hbefore, hbad⟩
            refine ⟨file :: before, bad, after, text, by rw [hsplit]; rfl, ?_, hbad⟩
            exact List.forall_mem_cons.mpr ⟨hfound, hbefore⟩
  · rintro ⟨before, file, after, text, rfl, hbefore, hfound, rfl⟩
    rw [checkLevels_append hbefore, checkLevels, hfound]

theorem Faultless.checkLevels_eq_error_iff (h : Faultless files) :
    checkLevels files files = .error fault ↔ ∃ before file after above,
      files = before ++ file :: after ∧
      (∀ earlier ∈ before, ∀ other ∈ files, ¬Path.GoesOn other.path earlier.path) ∧
      NearestAbove files file above ∧
      fault = .rejected s!"{file.path} is stored below the file {above.path}" := by
  have hmem : ∀ {before after : List File} {file : File}, files = before ++ file :: after →
      file ∈ files ∧ ∀ earlier ∈ before, earlier ∈ files := by
    intro before after file hsplit
    rw [hsplit]
    exact ⟨List.mem_append_right _ List.mem_cons_self, fun _ => List.mem_append_left _⟩
  rw [Bundle.checkLevels_eq_error_iff]
  constructor
  · rintro ⟨before, file, after, text, hsplit, hbefore, hfound, rfl⟩
    rcases (h.fileAbove?_eq_some_iff (hmem hsplit).1).mp hfound with ⟨above, habove, rfl⟩
    refine ⟨before, file, after, above, hsplit, ?_, habove, rfl⟩
    intro earlier hearlier
    exact (h.fileAbove?_eq_none_iff ((hmem hsplit).2 earlier hearlier)).mp
      (hbefore earlier hearlier)
  · rintro ⟨before, file, after, above, hsplit, hbefore, habove, rfl⟩
    refine ⟨before, file, after, above.path, hsplit, ?_, ?_, rfl⟩
    · intro earlier hearlier
      apply (h.fileAbove?_eq_none_iff ((hmem hsplit).2 earlier hearlier)).mpr
      exact hbefore earlier hearlier
    · exact (h.fileAbove?_eq_some_iff (hmem hsplit).1).mpr ⟨above, habove, rfl⟩

/-!
## The verdict
-/

theorem accept_eq_ok_iff : accept id files = .ok () ↔ checkPaths [] files = .ok () ∧
    checkLevels files files = .ok () ∧ File.existsAt files File.mainConfigPath = true := by
  constructor
  · intro h
    rcases checks_of_accept h with ⟨hpaths, hlevels⟩
    rw [accept_eq_of_checks hpaths hlevels] at h
    refine ⟨hpaths, hlevels, ?_⟩
    split at h
    · assumption
    · cases h
  · rintro ⟨hpaths, hlevels, hmain⟩
    rw [accept_eq_of_checks hpaths hlevels, if_pos hmain]

/-- The checks are made one after the other, and the first one that fails is told. -/
theorem accept_eq_error_iff : accept id files = .error fault ↔
    checkPaths [] files = .error fault ∨
      checkPaths [] files = .ok () ∧ (checkLevels files files = .error fault ∨
        checkLevels files files = .ok () ∧
          File.existsAt files File.mainConfigPath = false ∧ fault = .missingMainConfig id) := by
  cases hpaths : checkPaths [] files with
  | error broken =>
      have haccept : accept id files = .error broken := by
        unfold accept
        rw [hpaths]
        rfl
      simp [haccept]
  | ok _ =>
      cases hlevels : checkLevels files files with
      | error broken =>
          have haccept : accept id files = .error broken := by
            unfold accept
            rw [hpaths, hlevels]
            rfl
          simp [haccept]
      | ok _ =>
          rw [accept_eq_of_checks hpaths hlevels]
          cases File.existsAt files File.mainConfigPath with
          | false => simp [eq_comm]
          | true => simp

theorem existsAt_eq_false_iff {path : String} :
    File.existsAt files path = false ↔ ∀ file ∈ files, file.path ≠ path := by
  rw [Bool.eq_false_iff, Ne, File.existsAt_iff]
  simp

theorem Faultless.checkLevels_eq_ok_iff (h : Faultless files) :
    checkLevels files files = .ok () ↔
      ∀ file ∈ files, ∀ above ∈ files, ¬Path.GoesOn above.path file.path := by
  rw [Bundle.checkLevels_eq_ok_iff]
  apply forall₂_congr
  intro file hmem
  exact h.fileAbove?_eq_none_iff hmem

theorem accept_eq_ok_iff_isBundle (hroot : ∀ file ∈ files, file.path ≠ Path.root) :
    accept id files = .ok () ↔ IsBundle files := by
  rw [accept_eq_ok_iff, checkPaths_eq_ok_iff_faultless hroot, File.existsAt_iff]
  constructor
  · rintro ⟨hpaths, hlevels, hmain⟩
    exact ⟨hpaths, hpaths.checkLevels_eq_ok_iff.mp hlevels, hmain⟩
  · rintro ⟨hpaths, hapart, hmain⟩
    exact ⟨hpaths, hpaths.checkLevels_eq_ok_iff.mpr hapart, hmain⟩

theorem refused_of_checkPaths (hroot : ∀ file ∈ files, file.path ≠ Path.root)
    (h : checkPaths [] files = .error fault) : Refused id files fault := by
  rcases checkPaths_eq_error_iff.mp h with ⟨before, file, after, rfl, hbefore, hbad⟩
  rw [List.forall_mem_append, List.forall_mem_cons] at hroot
  rw [checkPaths_eq_ok_iff_faultless hroot.1] at hbefore
  rcases hbad with ⟨broken, hcheck, rfl⟩ | ⟨_, hagain, rfl⟩
  · exact .malformed rfl hbefore ((Path.check_eq_error_iff hroot.2.1).mp hcheck)
  · rcases hagain with hnone | hseen
    · cases hnone
    · exact .repeated rfl hbefore hseen

theorem accept_of_refused (hroot : ∀ file ∈ files, file.path ≠ Path.root)
    (h : Refused id files fault) : accept id files = .error fault := by
  rw [accept_eq_error_iff]
  cases h with
  | malformed hfiles hbefore hfault =>
      rename_i before after file broken
      rw [hfiles, List.forall_mem_append, List.forall_mem_cons] at hroot
      refine .inl (checkPaths_eq_error_iff.mpr ⟨before, file, after, hfiles, ?_, .inl ?_⟩)
      · exact (checkPaths_eq_ok_iff_faultless hroot.1).mpr hbefore
      · exact ⟨broken, (Path.check_eq_error_iff hroot.2.1).mpr hfault, rfl⟩
  | repeated hfiles hbefore hseen =>
      rename_i before after file
      rw [hfiles, List.forall_mem_append] at hroot
      refine .inl (checkPaths_eq_error_iff.mpr ⟨before, file, after, hfiles, ?_, .inr ?_⟩)
      · exact (checkPaths_eq_ok_iff_faultless hroot.1).mpr hbefore
      · rcases hseen with ⟨other, hother, hsame⟩
        refine ⟨?_, .inr ⟨other, hother, hsame⟩, rfl⟩
        rw [← hsame]
        exact (hbefore.wellFormed other hother).check_eq.1
  | below hpaths hfiles hbefore habove =>
      rename_i before after file above
      refine .inr ⟨(checkPaths_eq_ok_iff_faultless hroot).mpr hpaths, .inl ?_⟩
      apply hpaths.checkLevels_eq_error_iff.mpr
      exact ⟨before, file, after, above, hfiles, hbefore, habove, rfl⟩
  | unconfigured hpaths hapart hmain =>
      exact .inr ⟨(checkPaths_eq_ok_iff_faultless hroot).mpr hpaths,
        .inr ⟨hpaths.checkLevels_eq_ok_iff.mpr hapart, existsAt_eq_false_iff.mpr hmain, rfl⟩⟩

theorem refused_of_accept (hroot : ∀ file ∈ files, file.path ≠ Path.root)
    (h : accept id files = .error fault) : Refused id files fault := by
  rcases accept_eq_error_iff.mp h with hpaths | ⟨hpaths, hlevels | ⟨hlevels, hmain, rfl⟩⟩
  · exact refused_of_checkPaths hroot hpaths
  · have hfaultless := (checkPaths_eq_ok_iff_faultless hroot).mp hpaths
    rcases hfaultless.checkLevels_eq_error_iff.mp hlevels with
      ⟨before, file, after, above, hfiles, hbefore, habove, rfl⟩
    exact .below hfaultless hfiles hbefore habove
  · have hfaultless := (checkPaths_eq_ok_iff_faultless hroot).mp hpaths
    exact .unconfigured hfaultless (hfaultless.checkLevels_eq_ok_iff.mp hlevels)
      (existsAt_eq_false_iff.mp hmain)

/-- The store takes exactly the bundles, and tells the first reason not to take other files. -/
theorem accept_verdict (hroot : ∀ file ∈ files, file.path ≠ Path.root) :
    (accept id files = .ok () ↔ IsBundle files) ∧
      ∀ fault, accept id files = .error fault ↔ Refused id files fault :=
  ⟨accept_eq_ok_iff_isBundle hroot,
    fun _ => ⟨refused_of_accept hroot, accept_of_refused hroot⟩⟩

end

def stackedFiles : List File :=
  [File.ofPath "/stencil.yml" "", File.ofPath "/a/b/c.ftl" "", File.ofPath "/a/b" "",
    File.ofPath "/a" ""]

theorem accept_verdict_stacked :
    (∀ file ∈ stackedFiles, file.path ≠ Path.root) ∧ ¬IsBundle stackedFiles ∧
      Refused "demo" stackedFiles (.rejected "/a/b/c.ftl is stored below the file /a/b") := by
  have hroot : ∀ file ∈ stackedFiles, file.path ≠ Path.root := by decide
  have haccept : accept "demo" stackedFiles =
      .error (.rejected "/a/b/c.ftl is stored below the file /a/b") := by decide +kernel
  refine ⟨hroot, ?_, ((accept_verdict hroot).2 _).mp haccept⟩
  intro hbundle
  rw [(accept_verdict hroot).1.mpr hbundle] at haccept
  cases haccept

end Bundle
end StencilDesk
