import StencilDesk.Proofs.Bundle.Storable
import StencilDesk.Proofs.Session.Step

/-!
# The files of a session stay storable

A session that begins on files that the store accepts, and that only goes back to such files, can
be saved at any time once it has a main configuration.
-/

namespace StencilDesk

theorem Bundle.Storable.change {files next : List File} (h : Storable files)
    (hchange : Change Acceptable files next) : Storable next := by
  cases hchange with
  | kept => exact h
  | edited path content => exact h.edited path content
  | createdFile hcreate => exact h.createFile hcreate
  | createdFolder hcreate => exact h.createFolder hcreate
  | moved hmove => exact h.moveFile hmove
  | deleted hdelete => exact h.deleteFile hdelete
  | replaced hnext => exact hnext.storable

namespace Session

variable {σ : Type}

theorem storable_of_begins {s : Session} (h : s.Begins Bundle.Acceptable) :
    Bundle.Storable s.files := by
  cases h with
  | start id hfiles => exact hfiles.storable
  | loaded hfiles => exact hfiles.storable

/-- After every run of operations, whatever the store answers, the files are storable: the store
takes them, or asks for a main configuration. -/
theorem storable_run {s : Session} (hbegins : s.Begins Bundle.Acceptable)
    {service : StoreService σ} {operations : List Operation}
    (hinstalls : ∀ operation ∈ operations,
      operation.Installs service s.stencilId Bundle.Acceptable)
    (store : σ) :
    Bundle.Storable (s.run service operations store).1.files ∧
      ∀ id, Bundle.accept id (s.run service operations store).1.files = .ok () ∨
        Bundle.accept id (s.run service operations store).1.files =
          .error (.missingMainConfig id) := by
  have hstep : ∀ (t : Session) (operation : Operation) (store : σ), operation ∈ operations →
      t.stencilId = s.stencilId ∧ Bundle.Storable t.files →
      (t.perform service operation store).1.stencilId = s.stencilId ∧
        Bundle.Storable (t.perform service operation store).1.files := by
    intro t operation store hmem ⟨hid, ht⟩
    have hinstalled := hinstalls operation hmem
    rw [← hid] at hinstalled
    have hperformed := step_perform hinstalled store
    constructor
    · rw [hperformed.stencilId_eq]
      exact hid
    · exact ht.change hperformed.change
  have hfiles := (run_preserves store hstep ⟨rfl, storable_of_begins hbegins⟩).2
  exact ⟨hfiles, hfiles.accept⟩

theorem storable_run_moved :
    (start "demo" [File.ofPath "/stencil.yml" "stencil:", File.ofPath "/a.ftl" "hello"]).Begins
        Bundle.Acceptable ∧
      Operation.Installs DirectoryStore.service "demo" Bundle.Acceptable
        (.install [File.ofPath "/stencil.yml" "stencil:"]) ∧
      Bundle.Storable
        ((start "demo" [File.ofPath "/stencil.yml" "stencil:", File.ofPath "/a.ftl" "hello"]).run
          DirectoryStore.service
          [.createFolder "/" "parts", .moveFile "/a.ftl" "/parts/b.ftl",
            .createFile "/parts/b.ftl" "c.ftl", .deleteFile "/stencil.yml",
            .install [File.ofPath "/stencil.yml" "stencil:"], .createFile "/" "parts"]
          { now := ⟨⟨2025, 9, 13⟩, 10, 0, 0, 0, 0⟩ }).1.files := by
  have hfiles : Bundle.Acceptable
      [File.ofPath "/stencil.yml" "stencil:", File.ofPath "/a.ftl" "hello"] := by
    refine ⟨?_, ?_, "demo", by decide⟩
    · intro file hmem
      rcases List.mem_cons.mp hmem with rfl | hmem
      · exact File.derived_ofPath _ _
      · rw [List.mem_singleton.mp hmem]
        exact File.derived_ofPath _ _
    · decide
  have hinstalled : Bundle.Acceptable [File.ofPath "/stencil.yml" "stencil:"] := by
    refine ⟨?_, by decide, "demo", by decide⟩
    intro file hmem
    rw [List.mem_singleton.mp hmem]
    exact File.derived_ofPath _ _
  refine ⟨.start "demo" hfiles, hinstalled, (storable_run (.start "demo" hfiles) ?_ _).1⟩
  intro operation hmem
  simp only [List.mem_cons, List.not_mem_nil, or_false] at hmem
  rcases hmem with rfl | rfl | rfl | rfl | rfl | rfl
  · trivial
  · trivial
  · trivial
  · trivial
  · exact hinstalled
  · trivial

end Session
end StencilDesk
