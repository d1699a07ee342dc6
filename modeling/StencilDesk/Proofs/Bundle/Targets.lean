import StencilDesk.Proofs.Bundle.Segments

/-!
# Where files may be put

A file can be put at a path by creating it there, inside the folder of the path and with the name
of the path, or by moving another file there. Both look for the same files in the way. Only names
are checked for being blank, and not paths, so a file can be moved to where none can be created.
-/

namespace StencilDesk
namespace Path

section
variable {path : String}

/-!
## The folder and the name of a path
-/

theorem exists_slash (h : check path = .ok ()) (hroot : path ≠ root) :
    ∃ before last, path = before ++ "/" ++ last ∧ '/' ∉ last.toList := by
  rcases (check_eq_ok_iff.mp h).resolve_left hroot with ⟨rest, hpath, _⟩
  have hslash : '/' ∈ path.toList := by
    rw [hpath]
    exact List.mem_cons_self
  rcases exists_lastSlash hslash with ⟨before, last, hsplit, hlast⟩
  refine ⟨String.ofList before, String.ofList last, ?_, by rwa [String.toList_ofList]⟩
  rw [← String.toList_inj, hsplit]
  simp

theorem check_parent (h : check path = .ok ()) : check (parent path) = .ok () := by
  by_cases hfolder : parent path = root
  · rw [hfolder]
    rfl
  · rcases isAbove_parent hfolder with ⟨hempty, habove⟩
    exact (segments_of_isAbove h habove hempty).1

theorem join_parent_name (h : check path = .ok ()) (hroot : path ≠ root) :
    join (parent path) (name path) = path := by
  rcases exists_slash h hroot with ⟨before, last, rfl, hlast⟩
  have htext : (before ++ "/" ++ last).toList = before.toList ++ '/' :: last.toList := by
    simp
  have hbefore : before ≠ root := by
    intro hsame
    have habove : IsAbove root (before ++ "/" ++ last) := by
      rw [hsame]
      exact ⟨last.toList, by simp⟩
    exact (segments_of_isAbove h habove (by decide)).2.1 rfl
  rw [name_slash hlast, parent_of_lastSlash htext hlast, String.ofList_toList, join]
  by_cases hempty : before.toList = []
  · rw [if_pos hempty, if_pos rfl, ← String.toList_inj, htext, hempty]
    simp [root]
  · rw [if_neg hempty, if_neg hbefore]

def HasBlankName (path : String) : Prop :=
  ∀ c ∈ (name path).toList, Text.isBlank c = true

instance (path : String) : Decidable (HasBlankName path) :=
  decidable_of_iff ((name path).toList.all Text.isBlank = true) List.all_eq_true

theorem checkName_name (h : check path = .ok ()) (hroot : path ≠ root) :
    checkName (name path) =
      if HasBlankName path then .error (.invalid (name path)) else .ok () := by
  rcases (check_eq_ok_iff.mp h).resolve_left hroot with ⟨rest, hpath, hproper⟩
  have hmem := List.mem_of_getLast? (getLast?_segments h hroot)
  have hslash := (isSegment_of_mem_segments hmem).2
  rw [segments_of_proper hpath hproper, List.mem_map] at hmem
  rcases hmem with ⟨piece, hpiece, hname⟩
  rcases hproper piece hpiece with ⟨_, hone, htwo⟩
  have hother : ∀ text : String, piece ≠ text.toList → name path ≠ text := by
    intro text hdiffers hsame
    apply hdiffers
    rw [← String.toList_ofList (l := piece), hname, hsame]
  have hpoint : name path ≠ "." := hother "." hone
  have hpoints : name path ≠ ".." := hother ".." htwo
  have hblank : (name path).toList.all Text.isBlank = true ↔ HasBlankName path :=
    List.all_eq_true
  rw [checkName, if_neg hpoints]
  simp only [hpoint, hslash, hblank, or_false]

end

end Path

namespace Bundle

/-- Holds of two changes that succeed together, and tell the same fault if they fail. -/
structure Concurs (change other : Except EditFault (List File)) : Prop where
  succeeds_iff : (∃ next, change = .ok next) ↔ ∃ next, other = .ok next
  same_fault : ∀ fault different, change = .error fault → other = .error different →
    fault = different

/-- Holds of what is told about a path that is not free: the nearest file above it, or the path
itself if a file is at it or below it. -/
inductive InTheWay (files : List File) (path : String) : EditFault → Prop where
  | above {above : String} (habove : fileAbove? files path = some above) :
      InTheWay files path (.duplicatePath above)
  | taken (hnone : fileAbove? files path = none) (htaken : isTaken files path = true) :
      InTheWay files path (.duplicatePath path)

section
variable {files : List File} {path new : String} {fault : EditFault}

/-!
## Files in the way
-/

theorem checkFree_of_some {above : String} (habove : fileAbove? files path = some above) :
    checkFree files path = .error (.duplicatePath above) := by
  rw [checkFree, checkAbove, habove]
  rfl

theorem checkFree_of_none (hnone : fileAbove? files path = none) :
    checkFree files path =
      if isTaken files path then .error (.duplicatePath path) else .ok () := by
  rw [checkFree, checkAbove, hnone]
  rfl

theorem checkFree_eq_error_iff :
    checkFree files path = .error fault ↔ InTheWay files path fault := by
  constructor
  · intro h
    cases habove : fileAbove? files path with
    | some above =>
        rw [checkFree_of_some habove] at h
        cases h
        exact .above habove
    | none =>
        rw [checkFree_of_none habove] at h
        split at h
        · rename_i htaken
          cases h
          exact .taken habove htaken
        · cases h
  · intro h
    cases h with
    | above habove => exact checkFree_of_some habove
    | taken hnone htaken => rw [checkFree_of_none hnone, if_pos htaken]

theorem map_checkFree_eq_error_iff {change : Unit → List File} :
    (checkFree files path).map change = .error fault ↔ InTheWay files path fault := by
  rw [← checkFree_eq_error_iff]
  cases checkFree files path with
  | error told => simp [Except.map]
  | ok _ => simp [Except.map]

theorem concurs_map (check : Except EditFault Unit) (change other : Unit → List File) :
    Concurs (check.map change) (check.map other) := by
  cases check with
  | error fault =>
      constructor
      · constructor
        · intro h
          rcases h with ⟨next, h⟩
          cases h
        · intro h
          rcases h with ⟨next, h⟩
          cases h
      · intro first second hfirst hsecond
        cases hfirst
        cases hsecond
        rfl
  | ok done =>
      constructor
      · exact iff_of_true ⟨_, rfl⟩ ⟨_, rfl⟩
      · intro first second hfirst
        cases hfirst

theorem createFile_at (hcheck : Path.check new = .ok ()) (hroot : new ≠ Path.root) :
    createFile files (Path.parent new) (Path.name new) =
      if Path.HasBlankName new then .error (.invalidPath (Path.name new))
      else (checkFree files new).map fun _ => files ++ [File.ofPath new ""] := by
  have hparent : checkPath (Path.parent new) = .ok () := by
    rw [checkPath, Path.check_parent hcheck]
    rfl
  have hcreate : createFile files (Path.parent new) (Path.name new) =
      (checkPath (Path.parent new)).bind fun _ => (checkName (Path.name new)).bind fun _ =>
        (checkFree files (Path.join (Path.parent new) (Path.name new))).bind fun _ =>
          .ok (files ++ [File.ofPath (Path.join (Path.parent new) (Path.name new)) ""]) := rfl
  rw [hcreate, hparent, checkName, Path.checkName_name hcheck hroot,
    Path.join_parent_name hcheck hroot]
  split
  · rfl
  · cases checkFree files new with
    | error fault => rfl
    | ok _ => rfl

theorem moveFile_to (hcheck : Path.check new = .ok ()) (hroot : new ≠ Path.root)
    (hexists : File.existsAt files path = true) (hother : new ≠ path) :
    moveFile files path new =
      (checkFree files new).map fun _ => replaceFirst path (fun file => file.moved new) files := by
  have hpath : checkPath new = .ok () := by
    rw [checkPath, hcheck]
    rfl
  rw [moveFile, hpath, if_neg hroot, hexists, if_neg (Ne.symm hother)]
  cases checkFree files new with
  | error fault => rfl
  | ok _ => rfl

/-!
## One set of rules
-/

theorem not_inTheWay_invalidPath {name : String} : ¬InTheWay files new (.invalidPath name) := by
  intro h
  cases h

/-- Moving a file to a path and creating one there agree exactly if the name of the path is not
blank: creating a file refuses a blank name, and moving one asks only for files in the way. -/
theorem concurs_moveFile_createFile (hcheck : Path.check new = .ok ()) (hroot : new ≠ Path.root)
    (hfile : ∃ file ∈ files, file.path = path) (hother : new ≠ path) :
    (Concurs (moveFile files path new) (createFile files (Path.parent new) (Path.name new)) ↔
        ¬Path.HasBlankName new) ∧
      (Path.HasBlankName new ↔ createFile files (Path.parent new) (Path.name new) =
        .error (.invalidPath (Path.name new))) ∧
      ∀ fault, moveFile files path new = .error fault ↔ InTheWay files new fault := by
  have hmove := moveFile_to hcheck hroot (File.existsAt_iff.mpr hfile) hother
  have hcreate := @createFile_at files new hcheck hroot
  refine ⟨?_, ?_, ?_⟩
  · rw [hmove, hcreate]
    constructor
    · intro hagrees hblank
      rw [if_pos hblank] at hagrees
      cases hfree : checkFree files new with
      | error told =>
          rw [hfree] at hagrees
          apply @not_inTheWay_invalidPath files new
          rw [← checkFree_eq_error_iff, hfree]
          exact congrArg Except.error (hagrees.same_fault _ _ rfl rfl)
      | ok _ =>
          rw [hfree] at hagrees
          rcases hagrees.succeeds_iff.mp ⟨_, rfl⟩ with ⟨next, hnext⟩
          cases hnext
    · intro hnamed
      rw [if_neg hnamed]
      exact concurs_map _ _ _
  · rw [hcreate]
    constructor
    · intro hblank
      rw [if_pos hblank]
    · intro hrefused
      by_contra hnamed
      rw [if_neg hnamed, map_checkFree_eq_error_iff] at hrefused
      exact not_inTheWay_invalidPath hrefused
  · intro fault
    rw [hmove, map_checkFree_eq_error_iff]

end

def demoFiles : List File :=
  [File.ofPath "/stencil.yml" "", File.ofPath "/src/a.ftl" "x"]

theorem concurs_moveFile_createFile_below :
    Path.check "/src/a.ftl/b" = .ok () ∧ "/src/a.ftl/b" ≠ Path.root ∧
      (∃ file ∈ demoFiles, file.path = "/stencil.yml") ∧ "/src/a.ftl/b" ≠ "/stencil.yml" ∧
      Concurs (moveFile demoFiles "/stencil.yml" "/src/a.ftl/b")
        (createFile demoFiles "/src/a.ftl" "b") ∧
      createFile demoFiles "/src/a.ftl" "b" = .error (.duplicatePath "/src/a.ftl") := by
  have hcheck : Path.check "/src/a.ftl/b" = .ok () := by decide
  have hroot : "/src/a.ftl/b" ≠ Path.root := by decide
  have hfile : ∃ file ∈ demoFiles, file.path = "/stencil.yml" := by decide
  have hother : "/src/a.ftl/b" ≠ "/stencil.yml" := by decide
  have hnamed : ¬Path.HasBlankName "/src/a.ftl/b" := by decide
  exact ⟨hcheck, hroot, hfile, hother,
    (concurs_moveFile_createFile hcheck hroot hfile hother).1.mpr hnamed, by decide +kernel⟩

/-- A file can be moved to a blank name, where none can be created. -/
theorem not_concurs_blank :
    ¬∀ files path new, (∃ file ∈ files, file.path = path) → new ≠ path → Path.check new = .ok () →
      new ≠ Path.root →
      Concurs (moveFile files path new) (createFile files (Path.parent new) (Path.name new)) := by
  intro h
  have hagrees := h demoFiles "/src/a.ftl" "/ " (by decide) (by decide) (by decide) (by decide)
  have hcreate : createFile demoFiles (Path.parent "/ ") (Path.name "/ ") =
      .error (.invalidPath " ") := by decide
  have hmove : ∃ next, moveFile demoFiles "/src/a.ftl" "/ " = .ok next := ⟨_, rfl⟩
  rcases hagrees.succeeds_iff.mp hmove with ⟨next, hnext⟩
  rw [hcreate] at hnext
  cases hnext

end Bundle
end StencilDesk
