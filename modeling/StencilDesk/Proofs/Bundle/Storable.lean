import StencilDesk.History.Acceptance
import StencilDesk.Proofs.Bundle.Paths

/-!
# Bundles that stay storable

What the store asks of a bundle, the main configuration apart: well formed and distinct paths, and
no file below another one. Every change of a bundle that succeeds keeps this, since a new path is
only taken if it is free in the same sense.
-/

namespace StencilDesk
namespace Bundle

/-- What the store asks of the files of a bundle, except that it has a main configuration. -/
structure Storable (files : List File) : Prop where
  derived : File.AllDerived files
  wellFormed : ∀ file ∈ files, Path.check file.path = .ok ()
  notRoot : ∀ file ∈ files, file.path ≠ Path.root
  distinct : (files.map File.path).Nodup
  exclusive : ∀ file ∈ files, ∀ other ∈ files, ¬Path.IsAbove file.path other.path

/-- What is asked of the files that a session begins on, and of those that it goes back to. -/
structure Acceptable (files : List File) : Prop where
  derived : File.AllDerived files
  notRoot : ∀ file ∈ files, file.path ≠ Path.root
  accepted : ∃ id, accept id files = .ok ()

/-!
## What the store checks
-/

theorem checkPaths_eq_ok_iff {seen : List String} {files : List File} :
    checkPaths seen files = .ok () ↔
      (∀ file ∈ files, Path.check file.path = .ok ()) ∧ (files.map File.path).Nodup ∧
        ∀ file ∈ files, file.path ∉ seen := by
  induction files generalizing seen with
  | nil => simp [checkPaths]
  | cons file rest ih =>
      unfold checkPaths
      rw [List.map_cons, List.nodup_cons, List.forall_mem_cons, List.forall_mem_cons]
      cases hcheck : Path.check file.path with
      | error fault =>
          constructor
          · intro h
            cases h
          · intro h
            cases h.1.1
      | ok _ =>
          by_cases hseen : file.path ∈ seen
          · simp only [List.contains_iff_mem, if_pos hseen]
            constructor
            · intro h
              cases h
            · intro h
              exact absurd hseen h.2.2.1
          · simp only [List.contains_iff_mem, if_neg hseen]
            rw [ih]
            constructor
            · intro ⟨hpaths, hdistinct, hnew⟩
              refine ⟨⟨trivial, hpaths⟩, ⟨?_, hdistinct⟩, hseen, ?_⟩
              · intro hmem
                rcases List.mem_map.mp hmem with ⟨other, hother, hpath⟩
                apply hnew other hother
                rw [hpath]
                exact List.mem_cons_self
              · intro other hother hmem
                exact hnew other hother (List.mem_cons_of_mem _ hmem)
            · intro ⟨⟨_, hpaths⟩, ⟨hfirst, hdistinct⟩, _, hnew⟩
              refine ⟨hpaths, hdistinct, ?_⟩
              intro other hother hmem
              rcases List.mem_cons.mp hmem with hsame | hmem
              · apply hfirst
                rw [← hsame]
                exact List.mem_map_of_mem hother
              · exact hnew other hother hmem

theorem checkLevels_eq_ok_iff {files rest : List File} :
    checkLevels files rest = .ok () ↔ ∀ file ∈ rest, fileAbove? files file.path = none := by
  induction rest with
  | nil => simp [checkLevels]
  | cons file rest ih =>
      unfold checkLevels
      rw [List.forall_mem_cons]
      cases habove : fileAbove? files file.path with
      | none => simp [ih]
      | some above => simp

theorem accept_eq_of_checks {files : List File} (hpaths : checkPaths [] files = .ok ())
    (hlevels : checkLevels files files = .ok ()) (id : String) :
    accept id files =
      if File.existsAt files File.mainConfigPath then .ok ()
      else .error (.missingMainConfig id) := by
  unfold accept
  rw [hpaths, hlevels]
  cases File.existsAt files File.mainConfigPath with
  | false => rfl
  | true => rfl

theorem checks_of_accept {files : List File} {id : String} (h : accept id files = .ok ()) :
    checkPaths [] files = .ok () ∧ checkLevels files files = .ok () := by
  rcases bind_eq_ok h with ⟨_, hpaths, h⟩
  rcases bind_eq_ok h with ⟨_, hlevels, _⟩
  exact ⟨hpaths, hlevels⟩

theorem wellFormed_of_accept {files : List File} {id : String} (h : accept id files = .ok ()) :
    ∀ file ∈ files, Path.check file.path = .ok () :=
  (checkPaths_eq_ok_iff.mp (checks_of_accept h).1).1

theorem Storable.checks {files : List File} (h : Storable files) :
    checkPaths [] files = .ok () ∧ checkLevels files files = .ok () := by
  rw [checkPaths_eq_ok_iff, checkLevels_eq_ok_iff]
  refine ⟨⟨h.wellFormed, h.distinct, ?_⟩, ?_⟩
  · intro file _ hmem
    cases hmem
  · intro file hmem
    rw [fileAbove?_eq_none_iff]
    intro other hother _ _
    exact h.exclusive other hother file hmem

/-- The store only misses the main configuration of a storable bundle, if anything. -/
theorem Storable.accept_eq {files : List File} (h : Storable files) (id : String) :
    accept id files =
      if File.existsAt files File.mainConfigPath then .ok () else .error (.missingMainConfig id) :=
  accept_eq_of_checks h.checks.1 h.checks.2 id

theorem Storable.accept {files : List File} (h : Storable files) (id : String) :
    accept id files = .ok () ∨ accept id files = .error (.missingMainConfig id) := by
  rw [h.accept_eq]
  split
  · exact .inl rfl
  · exact .inr rfl

theorem Acceptable.storable {files : List File} (h : Acceptable files) : Storable files := by
  rcases h.accepted with ⟨id, haccepted⟩
  rcases checks_of_accept haccepted with ⟨hpaths, hlevels⟩
  rcases checkPaths_eq_ok_iff.mp hpaths with ⟨hwell, hdistinct, _⟩
  refine ⟨h.derived, hwell, h.notRoot, hdistinct, ?_⟩
  intro file hmem other hother
  have hnone := fileAbove?_eq_none_iff.mp (checkLevels_eq_ok_iff.mp hlevels other hother)
  exact hnone file hmem (Path.ne_empty_of_check (hwell file hmem)) (h.notRoot file hmem)

/-!
## What keeps a bundle storable
-/

theorem Storable.of_sublist {files rest : List File} (h : Storable files)
    (hrest : rest.Sublist files) : Storable rest where
  derived := fun file hmem => h.derived file (hrest.subset hmem)
  wellFormed := fun file hmem => h.wellFormed file (hrest.subset hmem)
  notRoot := fun file hmem => h.notRoot file (hrest.subset hmem)
  distinct := h.distinct.sublist (hrest.map File.path)
  exclusive := fun file hmem other hother =>
    h.exclusive file (hrest.subset hmem) other (hrest.subset hother)

theorem Storable.of_perm {files next : List File} (h : Storable files) (hnext : next.Perm files) :
    Storable next where
  derived := fun file hmem => h.derived file (hnext.subset hmem)
  wellFormed := fun file hmem => h.wellFormed file (hnext.subset hmem)
  notRoot := fun file hmem => h.notRoot file (hnext.subset hmem)
  distinct := (hnext.map File.path).nodup_iff.mpr h.distinct
  exclusive := fun file hmem other hother =>
    h.exclusive file (hnext.subset hmem) other (hnext.subset hother)

theorem Storable.of_paths {files next : List File} (h : Storable files)
    (hderived : File.AllDerived next) (hpaths : next.map File.path = files.map File.path) :
    Storable next := by
  have hsame : ∀ file ∈ next, ∃ old ∈ files, old.path = file.path := by
    intro file hmem
    have hpath : file.path ∈ files.map File.path := by
      rw [← hpaths]
      exact List.mem_map_of_mem hmem
    exact List.mem_map.mp hpath
  refine ⟨hderived, ?_, ?_, ?_, ?_⟩
  · intro file hmem
    rcases hsame file hmem with ⟨old, hold, hpath⟩
    rw [← hpath]
    exact h.wellFormed old hold
  · intro file hmem
    rcases hsame file hmem with ⟨old, hold, hpath⟩
    rw [← hpath]
    exact h.notRoot old hold
  · rw [hpaths]
    exact h.distinct
  · intro file hmem other hother
    rcases hsame file hmem with ⟨old, hold, hpath⟩
    rcases hsame other hother with ⟨oldOther, holdOther, hotherPath⟩
    rw [← hpath, ← hotherPath]
    exact h.exclusive old hold oldOther holdOther

theorem Storable.append {files : List File} (h : Storable files) {file : File}
    (hderived : file.Derived) (hcheck : Path.check file.path = .ok ())
    (hroot : file.path ≠ Path.root) (habove : fileAbove? files file.path = none)
    (htaken : isTaken files file.path = false) : Storable (files ++ [file]) := by
  have hfree := isTaken_eq_false_iff.mp htaken
  have hclear : ∀ old ∈ files, ¬Path.IsAbove old.path file.path := by
    intro old hold
    exact fileAbove?_eq_none_iff.mp habove old hold
      (Path.ne_empty_of_check (h.wellFormed old hold)) (h.notRoot old hold)
  constructor
  · intro other hmem
    rcases List.mem_append.mp hmem with hold | hnew
    · exact h.derived other hold
    · rw [List.mem_singleton.mp hnew]
      exact hderived
  · intro other hmem
    rcases List.mem_append.mp hmem with hold | hnew
    · exact h.wellFormed other hold
    · rw [List.mem_singleton.mp hnew]
      exact hcheck
  · intro other hmem
    rcases List.mem_append.mp hmem with hold | hnew
    · exact h.notRoot other hold
    · rw [List.mem_singleton.mp hnew]
      exact hroot
  · rw [List.map_append, List.map_singleton, List.nodup_append]
    refine ⟨h.distinct, by simp, ?_⟩
    intro path hpath other hother
    rcases List.mem_map.mp hpath with ⟨old, hold, hsame⟩
    rw [List.mem_singleton.mp hother, ← hsame]
    exact (hfree old hold).1
  · intro upper hupper lower hlower
    rcases List.mem_append.mp hupper with holdUpper | hnewUpper
    · rcases List.mem_append.mp hlower with holdLower | hnewLower
      · exact h.exclusive upper holdUpper lower holdLower
      · rw [List.mem_singleton.mp hnewLower]
        exact hclear upper holdUpper
    · rw [List.mem_singleton.mp hnewUpper]
      rcases List.mem_append.mp hlower with holdLower | hnewLower
      · exact (hfree lower holdLower).2
      · rw [List.mem_singleton.mp hnewLower]
        intro hself
        exact absurd hself.length_lt (Nat.lt_irrefl _)

/-!
## The changes of a bundle
-/

theorem map_replaceFirst {α : Type} {path : String} {f : File → File} {g : File → α}
    (files : List File) (hf : ∀ file, g (f file) = g file) :
    (replaceFirst path f files).map g = files.map g := by
  induction files with
  | nil => rfl
  | cons file rest ih =>
      unfold replaceFirst
      split
      · rw [List.map_cons, List.map_cons, hf]
      · rw [List.map_cons, List.map_cons, ih]

theorem paths_replaceFirst {path : String} {f : File → File} (files : List File)
    (hf : ∀ file, (f file).path = file.path) :
    (replaceFirst path f files).map File.path = files.map File.path :=
  map_replaceFirst files hf

theorem exists_replaceFirst {path : String} {f : File → File} {files : List File}
    (h : File.existsAt files path = true) :
    ∃ before file after, files = before ++ file :: after ∧ file.path = path ∧
      replaceFirst path f files = before ++ f file :: after := by
  induction files with
  | nil => cases h
  | cons first rest ih =>
      unfold replaceFirst
      by_cases hhere : first.path = path
      · rw [if_pos hhere]
        exact ⟨[], first, rest, rfl, hhere, rfl⟩
      · rw [if_neg hhere]
        have hexists : File.existsAt rest path = true := by
          simpa [File.existsAt, hhere] using h
        rcases ih hexists with ⟨before, file, after, hrest, hpath, hreplaced⟩
        refine ⟨first :: before, file, after, ?_, hpath, ?_⟩
        · rw [hrest, List.cons_append]
        · rw [hreplaced, List.cons_append]

theorem Storable.edited {files : List File} (h : Storable files) (path content : String) :
    Storable (replaceFirst path (fun file => { file with content }) files) := by
  apply h.of_paths
  · intro file hmem
    rcases mem_replaceFirst hmem with hold | ⟨old, hold, _, hedited⟩
    · exact h.derived file hold
    · rw [hedited]
      exact (h.derived old hold).withContent content
  · exact paths_replaceFirst files fun _ => rfl

theorem Storable.createFile {files next : List File} (h : Storable files) {parent name : String}
    (hcreate : createFile files parent name = .ok next) : Storable next := by
  rcases createFile_eq_ok hcreate with ⟨hparent, hname, habove, htaken, hnext⟩
  rcases Path.check_join hparent hname with ⟨hcheck, hroot⟩
  rw [hnext]
  exact h.append (File.derived_ofPath _ _) hcheck hroot habove htaken

theorem Storable.createFolder {files next : List File} (h : Storable files) {parent name : String}
    (hcreate : createFolder files parent name = .ok next) : Storable next :=
  h.createFile (createFolder_eq_ok hcreate).2.2

/-- A moved file leaves its path, and is then put where no other file is in the way. -/
theorem moveFile_cases {files next : List File} {path new : String}
    (h : moveFile files path new = .ok next) :
    next = files ∨
      Path.check new = .ok () ∧ new ≠ Path.root ∧
        ∃ others file, others.Sublist files ∧ fileAbove? others new = none ∧
          isTaken others new = false ∧ next.Perm (others ++ [File.moved file new]) := by
  rcases moveFile_eq_ok h with ⟨hcheck, hroot, hexists, ⟨_, hkept⟩ | ⟨_, habove, htaken, hnext⟩⟩
  · exact .inl hkept
  · rcases exists_replaceFirst (f := fun file => file.moved new) hexists with
      ⟨before, file, after, hfiles, _, hreplaced⟩
    have hsub : (before ++ after).Sublist files := by
      rw [hfiles]
      exact (List.Sublist.refl before).append (List.sublist_cons_self file after)
    refine .inr ⟨hcheck, hroot, before ++ after, file, hsub, ?_, ?_, ?_⟩
    · rw [fileAbove?_eq_none_iff] at habove ⊢
      intro other hmem
      exact habove other (hsub.subset hmem)
    · rw [isTaken_eq_false_iff] at htaken ⊢
      intro other hmem
      exact htaken other (hsub.subset hmem)
    · rw [hnext, hreplaced]
      exact List.perm_middle.trans (List.perm_append_singleton _ _).symm

theorem Storable.moveFile {files next : List File} (h : Storable files) {path new : String}
    (hmove : moveFile files path new = .ok next) : Storable next := by
  rcases moveFile_cases hmove with
    hkept | ⟨hcheck, hroot, others, file, hsub, habove, htaken, hperm⟩
  · rw [hkept]
    exact h
  · apply Storable.of_perm _ hperm
    exact (h.of_sublist hsub).append (File.derived_moved file new) hcheck hroot habove htaken

theorem Storable.deleteFile {files next : List File} (h : Storable files) {path : String}
    (hdelete : deleteFile files path = .ok next) : Storable next := by
  rw [deleteFile_eq_ok hdelete]
  exact h.of_sublist List.filter_sublist

end Bundle
end StencilDesk
