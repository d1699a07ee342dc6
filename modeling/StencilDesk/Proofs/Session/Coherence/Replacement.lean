import StencilDesk.Proofs.Session.Coherence.Documents
import StencilDesk.Proofs.Session.Step

/-!
# Coherence when all files are replaced or saved

Once the tabs without a file are closed, every tab is backed by the new files, and the check of all
open files restores the board. A save touches neither files nor paths.
-/

namespace StencilDesk
namespace Session

variable {σ : Type}

theorem Tidy.openConfig {s : Session} (h : s.Tidy) (hfiles : File.AllDerived s.files) :
    s.openConfig.2.Tidy := by
  unfold Session.openConfig
  split
  · exact h
  · rename_i htab
    split
    · exact h
    · rename_i config hconfig
      have hpath : config.path = File.mainConfigPath := (File.of_find?_eq_some hconfig).2
      have hderived := derived_ofFile hfiles hconfig
      apply h.opening
      · exact ⟨hderived.1, hderived.2⟩
      · show config.path ∉ s.openPaths
        rw [hpath]
        exact mt isOpen_iff.mpr htab
      · show _ = some config.path ∨ _
        rw [hpath]
        cases hactive : s.active with
        | none => exact .inl rfl
        | some active => exact .inr ⟨rfl, by simp⟩

theorem mem_openPaths_openConfig {s : Session} {path : String}
    (h : path ∈ s.openConfig.2.openPaths) :
    path ∈ s.openPaths ∨ File.existsAt s.files path = true := by
  unfold Session.openConfig at h
  split at h
  · exact .inl h
  · split at h
    · exact .inl h
    · rename_i config hconfig
      unfold openPaths at h
      rw [openPaths_append_tab] at h
      rcases List.mem_append.mp h with hold | hnew
      · exact .inl hold
      · rw [List.mem_singleton.mp hnew]
        exact .inr (File.existsAt_iff.mpr ⟨config, (File.of_find?_eq_some hconfig).1, rfl⟩)

theorem existsAt_of_mem_closeAll {s : Session} {files : List File} {path : String} (h : s.Tidy)
    (hopen : path ∈ (s.closeAll (s.gonePaths files)).openPaths) :
    File.existsAt files path = true := by
  rw [mem_openPaths_closeAll h] at hopen
  rcases hopen with ⟨hmem, hnotGone⟩
  rcases List.mem_map.mp hmem with ⟨tab, htab, hpath⟩
  cases hexists : File.existsAt files path with
  | true => rfl
  | false =>
      exfalso
      apply hnotGone
      refine List.mem_map.mpr ⟨tab, List.mem_filter.mpr ⟨htab, ?_⟩, hpath⟩
      rw [hpath, hexists]
      rfl

theorem openPaths_markDirty (s : Session) : s.markDirty.2.openPaths = s.openPaths := by
  unfold openPaths markDirty
  rw [List.map_map]
  rfl

theorem Tidy.markDirty {s : Session} (h : s.Tidy) : s.markDirty.2.Tidy := by
  apply h.of_eq
  · intro tab hmem
    rcases List.mem_map.mp hmem with ⟨old, hold, hedited⟩
    rw [← hedited]
    exact h.tabsDerived old hold
  · exact openPaths_markDirty s
  · rfl
  · rfl

theorem Tidy.replaceFiles {s : Session} (h : s.Tidy) {files : List File}
    (hfiles : File.AllDerived files) :
    (s.replaceFiles files).2.Tidy ∧
      ∀ path ∈ (s.replaceFiles files).2.openPaths, File.existsAt files path = true := by
  have hreplaced : ({ s with files } : Session).Tidy := h.of_eq h.tabsDerived rfl rfl rfl
  have hclosed := hreplaced.closeAll (s.gonePaths files)
  have hclosedFiles : (({ s with files } : Session).closeAll (s.gonePaths files)).files = files :=
    (sameBundle_closeAll _ _).files_eq
  constructor
  · apply hclosed.markDirty.openConfig
    show File.AllDerived (({ s with files } : Session).closeAll (s.gonePaths files)).files
    rw [hclosedFiles]
    exact hfiles
  · intro path hopen
    rcases mem_openPaths_openConfig hopen with hold | hnew
    · rw [openPaths_markDirty] at hold
      exact existsAt_of_mem_closeAll hreplaced hold
    · rw [← hclosedFiles]
      exact hnew

theorem Coherent.install {s : Session} (h : s.Coherent) {files : List File}
    (hfiles : File.AllDerived files) : (s.install files).2.Coherent := by
  rcases h.toTidy.replaceFiles hfiles with ⟨htidy, hbacked⟩
  have hnew := (sameBundle_replaceFiles s files).files_eq
  rw [snd_install]
  apply Tidy.lintTabs
  · exact htidy.of_eq htidy.tabsDerived rfl rfl rfl
  · show File.AllDerived (s.replaceFiles files).2.files
    rw [hnew]
    exact hfiles
  · intro path hopen
    show File.existsAt (s.replaceFiles files).2.files path = true
    rw [hnew]
    exact hbacked path hopen

theorem Coherent.saved {s : Session} (h : s.Coherent) (serial : Serial) :
    (s.saved serial).Coherent := by
  have hpaths : (s.saved serial).openPaths = s.openPaths := by
    unfold openPaths Session.saved
    rw [List.map_map]
    rfl
  exact
    { toTidy := by
        apply h.toTidy.of_eq
        · intro tab hmem
          rcases List.mem_map.mp hmem with ⟨old, hold, hclean⟩
          rw [← hclean]
          exact h.tabsDerived old hold
        · exact hpaths
        · rfl
        · rfl
      filesDerived := h.filesDerived
      backed := fun path hopen => h.backed path (hpaths ▸ hopen)
      checked := fun path hopen => h.checked path (hpaths ▸ hopen) }

theorem Coherent.setVersions {s : Session} (h : s.Coherent) (versions : List Snapshot) :
    (s.setVersions versions).Coherent where
  toTidy := h.toTidy.of_eq h.tabsDerived rfl rfl rfl
  filesDerived := h.filesDerived
  backed := h.backed
  checked := h.checked

theorem Coherent.save {s : Session} (h : s.Coherent) (service : StoreService σ) (author : String)
    (message : Option String) (store : σ) : (s.save service author message store).1.2.Coherent := by
  rcases save_cases service s author message store with
    hsame | ⟨serial, versions, hsaved⟩
  · rw [hsame]
    exact h
  · rw [hsaved]
    exact (h.saved serial).setVersions versions

theorem Coherent.restore {s : Session} (h : s.Coherent) (service : StoreService σ)
    (serial : Serial) (store : σ)
    (hfiles : ∀ version, (service.snapshot s.stencilId serial store).1 = .ok version →
      File.AllDerived version.files) :
    (s.restore service serial store).1.2.Coherent := by
  rcases restore_cases service s serial store with hsame | ⟨version, hanswer, hrestored⟩
  · rw [hsame]
    exact h
  · rw [hrestored]
    exact h.install (hfiles version hanswer)

end Session
end StencilDesk
