import StencilDesk.Import
import StencilDesk.Proofs.Bundle.Paths
import StencilDesk.Proofs.Ignore.Exclusion

/-!
# Imports with exclusions

What exclusions do to files that no pattern touches, neither by themselves nor by way of a folder
above. Patterns that leave files out do not change whether such a file comes along. One pattern that
keeps files leaves it out.
-/

namespace StencilDesk

namespace Directory

theorem prefix_of_mem_way {location folder : Location} (h : folder ∈ way location) :
    folder <+: location := by
  induction location generalizing folder with
  | nil =>
      rw [way, List.mem_singleton] at h
      rw [h]
  | cons name rest ih =>
      rw [way, List.mem_cons] at h
      rcases h with hnil | hlater
      · rw [hnil]
        exact List.nil_prefix
      · rcases List.mem_map.mp hlater with ⟨inner, hinner, hsame⟩
        rw [← hsame]
        exact (List.prefix_cons_inj name).mpr (ih hinner)

theorem ne_nil_of_mem_way_drop {location folder : Location} (h : folder ∈ (way location).drop 1) :
    folder ≠ [] := by
  cases location with
  | nil => cases h
  | cons name rest =>
      rcases List.mem_map.mp h with ⟨inner, _, hsame⟩
      rw [← hsame]
      exact List.cons_ne_nil name inner

theorem toList_locationText_append {folder rest : Location} (hfolder : folder ≠ [])
    (hrest : rest ≠ []) :
    (locationText (folder ++ rest)).toList =
      (locationText folder).toList ++ '/' :: (locationText rest).toList := by
  unfold locationText
  simp only [String.toList_intercalate, List.map_append]
  induction folder with
  | nil => exact absurd rfl hfolder
  | cons name more ih =>
      cases more with
      | nil =>
          cases rest with
          | nil => exact absurd rfl hrest
          | cons next others => simp [List.intercalate_cons_cons]
      | cons next others =>
          have hinner := ih (by simp)
          simp only [List.map_cons, List.cons_append] at hinner ⊢
          rw [List.intercalate_cons_cons, hinner, List.intercalate_cons_cons]
          simp

theorem isAbove_of_mem_way {location folder : Location}
    (h : folder ∈ (way location.dropLast).drop 1) :
    Path.IsAbove (locationText folder) (locationText location) := by
  have hne := ne_nil_of_mem_way_drop h
  have hprefix := prefix_of_mem_way (List.mem_of_mem_drop h)
  rcases hprefix with ⟨rest, hrest⟩
  have hlocation : location ≠ [] := by
    intro hnil
    rw [hnil] at h
    cases h
  have hsplit : location = folder ++ (rest ++ [location.getLast hlocation]) := by
    rw [← List.append_assoc, hrest, List.dropLast_append_getLast]
  unfold Path.IsAbove
  rw [hsplit, toList_locationText_append hne (by simp)]
  exact ⟨_, by rw [List.append_assoc]; rfl⟩

end Directory

namespace Import

/-- The lines of an ignore file do not depend on how they end. -/
theorem ignoreLines_ended {directory : Directory} {location : Location} {text : String}
    {ended : List (List Char × Bool)} {last : List Char}
    (hcontent : directory.content? location = some (.text text))
    (htext : text.toList = ended.flatMap Text.endLine ++ last)
    (hfeed : ∀ line ∈ ended, '\n' ∉ line.1) (hreturn : ∀ line ∈ ended, line.1.getLast? ≠ some '\r')
    (hlast : '\n' ∉ last) :
    ignoreLines directory location = withoutMarks (ended.map Prod.fst ++ [last]) := by
  unfold ignoreLines
  rw [hcontent]
  show withoutMarks (Text.readLines text.toList) = _
  rw [htext, Text.readLines_ended hfeed hreturn hlast]

/-- Holds if none of some patterns touches a path, seen from the imported folder, or a folder
above it. -/
structure Untouched (patterns : List String) (path : String) : Prop where
  file : ∀ pattern ∈ patterns, Exclusions.touches pattern path false = false
  above : ∀ pattern ∈ patterns, ∀ folder, Path.IsAbove folder path →
    Exclusions.touches pattern folder true = false

variable {directory : Directory} {root location : Location} {patterns : List String}

theorem passes_folder (directory : Directory) (root : Location) {folder : Location}
    (h : ∀ pattern ∈ patterns,
      Exclusions.touches pattern (Directory.locationText folder) true = false) :
    passes directory (Exclusions.ofPatterns patterns) root folder true =
      passes directory (Exclusions.ofPatterns []) root folder true := by
  unfold passes
  rw [Exclusions.verdict?_folder h, Exclusions.verdict?_nil]

theorem passes_file (directory : Directory) (root : Location)
    (h : ∀ pattern ∈ patterns,
      Exclusions.touches pattern (Directory.locationText location) false = false) :
    passes directory (Exclusions.ofPatterns patterns) root location false =
      (passes directory (Exclusions.ofPatterns []) root location false &&
        !patterns.any Exclusions.reincludes) := by
  unfold passes
  rw [Exclusions.verdict?_file h, Exclusions.verdict?_nil]
  cases patterns.any Exclusions.reincludes with
  | true => simp
  | false => simp

theorem comesAlong_untouched (directory : Directory) (root : Location)
    (h : Untouched patterns (Directory.locationText location)) :
    comesAlong directory (Exclusions.ofPatterns patterns) root location =
      (comesAlong directory (Exclusions.ofPatterns []) root location &&
        !patterns.any Exclusions.reincludes) := by
  unfold comesAlong
  rw [passes_file directory root h.file, Bool.and_assoc]
  congr 1
  rw [Bool.eq_iff_iff, List.all_eq_true, List.all_eq_true]
  apply forall₂_congr
  intro folder hfolder
  have habove := Directory.isAbove_of_mem_way hfolder
  rw [passes_folder directory root fun pattern hmem => h.above pattern hmem _ habove]

def importedFiles (directory : Directory) (root : Location) (patterns : List String) :
    List File :=
  sortedFiles (((textsBelow directory root).filter fun file =>
    comesAlong directory (Exclusions.ofPatterns patterns) root file.1).map fun file =>
      File.ofPath (bundlePath file.1) file.2)

theorem bundle_eq (directory : Directory) (root : Location) (rootText : String)
    (patterns : List String) :
    bundle directory root rootText patterns =
      if !directory.isFolder root then .error (.notADirectory rootText)
      else if anyFaultAbove directory root then .error .unreadableRules
      else .ok (importedFiles directory root patterns) := rfl

theorem mem_importedFiles_iff {file : File} :
    file ∈ importedFiles directory root patterns ↔
      ∃ found ∈ textsBelow directory root,
        comesAlong directory (Exclusions.ofPatterns patterns) root found.1 = true ∧
          File.ofPath (bundlePath found.1) found.2 = file := by
  unfold importedFiles sortedFiles
  rw [List.mem_mergeSort, List.mem_map]
  simp only [List.mem_filter, and_assoc]

theorem locationText_of_bundlePath {path : String} (h : bundlePath location = Path.root ++ path) :
    Directory.locationText location = path := by
  unfold bundlePath at h
  have hlists := congrArg String.toList h
  rw [String.toList_append, String.toList_append] at hlists
  exact String.toList_inj.mp (List.append_cancel_left hlists)

theorem mem_importedFiles_untouched {file : File} {path : String}
    (hpath : file.path = Path.root ++ path) (h : Untouched patterns path) :
    file ∈ importedFiles directory root patterns ↔
      file ∈ importedFiles directory root [] ∧
        ∀ pattern ∈ patterns, Exclusions.reincludes pattern = false := by
  have hnone : (!patterns.any Exclusions.reincludes) = true ↔
      ∀ pattern ∈ patterns, Exclusions.reincludes pattern = false := by simp
  have hcomes : ∀ found : Location × String, File.ofPath (bundlePath found.1) found.2 = file →
      comesAlong directory (Exclusions.ofPatterns patterns) root found.1 =
        (comesAlong directory (Exclusions.ofPatterns []) root found.1 &&
          !patterns.any Exclusions.reincludes) := by
    intro found hfile
    apply comesAlong_untouched
    have hbundle : bundlePath found.1 = Path.root ++ path := by
      rw [← hpath, ← hfile, File.path_ofPath]
    rw [locationText_of_bundlePath hbundle]
    exact h
  rw [mem_importedFiles_iff, mem_importedFiles_iff, ← hnone]
  constructor
  · rintro ⟨found, hmem, hfound, hfile⟩
    rw [hcomes found hfile, Bool.and_eq_true] at hfound
    exact ⟨⟨found, hmem, hfound.1, hfile⟩, hfound.2⟩
  · rintro ⟨⟨found, hmem, hfound, hfile⟩, hkept⟩
    refine ⟨found, hmem, ?_, hfile⟩
    rw [hcomes found hfile, hfound, hkept]
    rfl

/-- Exclusions only matter to files that they touch, as long as all of them leave files out: of any
other file the import is as without them. A pattern that keeps files drops it. -/
theorem bundle_untouched (directory : Directory) (root : Location) (rootText : String)
    {patterns : List String} {file : File} {path : String}
    (hpath : file.path = Path.root ++ path) (h : Untouched patterns path) :
    (∃ fault, bundle directory root rootText patterns = .error fault ∧
        bundle directory root rootText [] = .error fault) ∨
      ∃ files all, bundle directory root rootText patterns = .ok files ∧
        bundle directory root rootText [] = .ok all ∧
        (file ∈ files ↔
          file ∈ all ∧ ∀ pattern ∈ patterns, Exclusions.reincludes pattern = false) := by
  rw [bundle_eq, bundle_eq]
  split
  · exact .inl ⟨_, rfl, rfl⟩
  · split
    · exact .inl ⟨_, rfl, rfl⟩
    · exact .inr ⟨_, _, rfl, rfl, mem_importedFiles_untouched hpath h⟩

def notesDirectory : Directory :=
  ⟨[(["b"], .folder),
    (["b", "stencil.yml"], .file (.text "stencil:\n  id: demo\n  name: Demo\n")),
    (["b", "a.ftl"], .file (.text "x")),
    (["b", "notes.md"], .file (.text "keep"))]⟩

theorem bundle_notesDirectory (patterns : List String) :
    bundle notesDirectory ["b"] "b" patterns =
      .ok (importedFiles notesDirectory ["b"] patterns) := by
  rw [bundle_eq, if_neg (by decide +kernel), if_neg (by decide +kernel)]

theorem untouched_of_top {patterns : List String} {path : String}
    (h : ∀ pattern ∈ patterns, Exclusions.touches pattern path false = false)
    (htop : '/' ∉ path.toList) : Untouched patterns path where
  file := h
  above := by
    intro pattern _ folder habove
    exact absurd (habove.subset (by simp)) htop

theorem bundle_untouched_templates :
    Untouched ["*.ftl"] "notes.md" ∧
      ∃ files, bundle notesDirectory ["b"] "b" ["*.ftl"] = .ok files ∧
        File.ofPath "/notes.md" "keep" ∈ files := by
  have huntouched : Untouched ["*.ftl"] "notes.md" :=
    untouched_of_top (by decide +kernel) (by decide +kernel)
  refine ⟨huntouched, ?_⟩
  rcases bundle_untouched notesDirectory ["b"] "b" (File.path_ofPath "/notes.md" "keep")
    huntouched with ⟨fault, hfault, _⟩ | ⟨files, all, hfiles, hall, hiff⟩
  · rw [bundle_notesDirectory] at hfault
    cases hfault
  · rw [bundle_notesDirectory] at hall
    cases hall
    refine ⟨files, hfiles, hiff.mpr ⟨?_, by decide +kernel⟩⟩
    exact mem_importedFiles_iff.mpr ⟨(["notes.md"], "keep"), by decide +kernel, by decide +kernel,
      rfl⟩

/-- A pattern that is to keep the notes drops the template, which it does not touch. -/
theorem not_bundle_untouched :
    ¬ ∀ (directory : Directory) (root : Location) (rootText : String) (patterns : List String)
        (file : File) (path : String),
      file.path = Path.root ++ path → Untouched patterns path →
        (∃ fault, bundle directory root rootText patterns = .error fault ∧
            bundle directory root rootText [] = .error fault) ∨
          ∃ files all, bundle directory root rootText patterns = .ok files ∧
            bundle directory root rootText [] = .ok all ∧ (file ∈ files ↔ file ∈ all) := by
  intro h
  have huntouched : Untouched ["!notes.md"] "a.ftl" :=
    untouched_of_top (by decide +kernel) (by decide +kernel)
  have hdropped : File.ofPath "/a.ftl" "x" ∉ importedFiles notesDirectory ["b"] ["!notes.md"] := by
    decide +kernel
  have hfound : File.ofPath "/a.ftl" "x" ∈ importedFiles notesDirectory ["b"] [] :=
    mem_importedFiles_iff.mpr ⟨(["a.ftl"], "x"), by decide +kernel, by decide +kernel, rfl⟩
  rcases h notesDirectory ["b"] "b" ["!notes.md"] (File.ofPath "/a.ftl" "x") "a.ftl" rfl
    huntouched with ⟨fault, hfault, _⟩ | ⟨files, all, hfiles, hall, hiff⟩
  · rw [bundle_notesDirectory] at hfault
    cases hfault
  · rw [bundle_notesDirectory] at hfiles hall
    cases hfiles
    cases hall
    exact hdropped (hiff.mpr hfound)

end Import
end StencilDesk
