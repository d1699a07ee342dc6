import StencilDesk.History.Saving
import StencilDesk.Proofs.Directory

/-!
# Stencils do not see each other

What the store reads of a stencil depends only on the part of the directory below its folder, and
a save, accepted or refused, only touches the folder of its own stencil and the way to it.
-/

namespace StencilDesk
namespace Store

open Directory

/-!
## What is read
-/

section
variable {a b : Directory} {folder : Location}

theorem serials_congr (hfolder : folder ≠ []) (h : a.under folder = b.under folder) :
    serials a folder = serials b folder := by
  have hnames : a.names (versionsFolder folder) = b.names (versionsFolder folder) := by
    unfold versionsFolder
    rw [← names_under a, ← names_under b, h]
  have hfiles : ∀ name, a.isFile (versionsFolder folder ++ [name]) =
      b.isFile (versionsFolder folder ++ [name]) := by
    intro name
    unfold versionsFolder
    rw [List.append_assoc]
    exact isFile_congr (item?_congr hfolder h _)
  unfold serials
  simp only [hnames, hfiles]

theorem active_congr (hfolder : folder ≠ []) (h : a.under folder = b.under folder) :
    active a folder = active b folder := by
  unfold active namedActive activeFile
  rw [item?_congr hfolder h, serials_congr hfolder h]

theorem readVersion_congr (hfolder : folder ≠ []) (h : a.under folder = b.under folder)
    (named : Option Serial) : readVersion a folder named = readVersion b folder named := by
  funext serial
  unfold readVersion
  rw [versionFile_eq, item?_congr hfolder h]

theorem versionsIn_congr (hfolder : folder ≠ []) (h : a.under folder = b.under folder) :
    versionsIn a folder = versionsIn b folder := by
  unfold versionsIn
  rw [active_congr hfolder h, serials_congr hfolder h]
  simp only [readVersion_congr hfolder h]

end

section
variable {a b : Directory} {root : Location} {id : String}

theorem stencilFolder_ne_nil (root : Location) (id : String) : root ++ [id] ≠ [] := by
  simp

theorem existingFolder_congr (h : a.under (root ++ [id]) = b.under (root ++ [id])) :
    existingFolder a root id = existingFolder b root id := by
  unfold existingFolder
  cases hfolder : stencilFolder root id with
  | error fault => rfl
  | ok folder =>
      rw [(stencilFolder_eq_ok hfolder).1]
      simp only [bind, Except.bind]
      unfold versionsFolder
      rw [isFolder_congr (item?_congr (stencilFolder_ne_nil root id) h [versionsName])]

theorem existingFolder_eq_ok {folder : Location} (h : existingFolder a root id = .ok folder) :
    folder = root ++ [id] := by
  rcases Bundle.bind_eq_ok h with ⟨found, hfound, h⟩
  rw [(stencilFolder_eq_ok hfound).1] at h
  split at h
  · cases h
  · cases h
    rfl

theorem history_congr (h : a.under (root ++ [id]) = b.under (root ++ [id])) :
    history a root id = history b root id := by
  unfold history
  rw [existingFolder_congr h]
  cases hfolder : existingFolder b root id with
  | error fault => rfl
  | ok folder =>
      rw [existingFolder_eq_ok hfolder]
      exact versionsIn_congr (stencilFolder_ne_nil root id) h

theorem snapshot_congr (h : a.under (root ++ [id]) = b.under (root ++ [id])) (serial : Serial) :
    snapshot a root id serial = snapshot b root id serial := by
  unfold snapshot
  rw [existingFolder_congr h]
  cases hfolder : existingFolder b root id with
  | error fault => rfl
  | ok folder =>
      rw [existingFolder_eq_ok hfolder]
      simp only [bind, Except.bind, active_congr (stencilFolder_ne_nil root id) h,
        readVersion_congr (stencilFolder_ne_nil root id) h]

theorem load_congr (h : a.under (root ++ [id]) = b.under (root ++ [id]))
    (serial : Option Serial) : load a root id serial = load b root id serial := by
  unfold load
  rw [existingFolder_congr h]
  cases hfolder : existingFolder b root id with
  | error fault => rfl
  | ok folder =>
      rw [existingFolder_eq_ok hfolder]
      simp only [bind, Except.bind, active_congr (stencilFolder_ne_nil root id) h,
        readVersion_congr (stencilFolder_ne_nil root id) h,
        versionsIn_congr (stencilFolder_ne_nil root id) h]

end

/-!
## What is written
-/

section
variable {root : Location} {id other : String}

theorem not_prefix_of_ne (h : id ≠ other) (names : List String) :
    ¬root ++ [id] <+: root ++ [other] ++ names := by
  rw [List.append_assoc, List.prefix_append_right_inj, List.singleton_append,
    List.cons_prefix_cons]
  intro hstart
  exact h hstart.1

theorem under_of_write? {directory next : Directory} {names : List String}
    {content : FileContent} (h : id ≠ other)
    (hwrite : directory.write? (root ++ [other] ++ names) content = some next) :
    next.under (root ++ [id]) = directory.under (root ++ [id]) := by
  rw [write?_eq_some hwrite, under_set_outside _ _ (not_prefix_of_ne h names)]

variable {request : SaveRequest} {now : Timestamp} {directory : Directory}

theorem under_of_prepare {prepared : Directory} (h : id ≠ request.stencilId)
    (hprepare : prepare root request directory = .ok prepared) :
    prepared.under (root ++ [id]) = directory.under (root ++ [id]) := by
  rcases prepare_eq_ok hprepare with ⟨_, _, hmade⟩
  apply (madeFolders_of_makeFoldersBelow? hmade).under_eq
  exact not_prefix_of_ne h [versionsName]

theorem under_of_createVersion {created : Directory} {serial : Serial} (h : id ≠ other)
    (hcreate : createVersion (root ++ [other]) serial directory = .ok created) :
    created.under (root ++ [id]) = directory.under (root ++ [id]) := by
  rcases createVersion_eq_ok hcreate with ⟨_, hwrite⟩
  rw [versionFile_eq] at hwrite
  exact under_of_write? h hwrite

/-- A save of one stencil leaves alone what is below the folder of another one. -/
theorem under_save (h : id ≠ request.stencilId) :
    (save root request now directory).1.under (root ++ [id]) =
      directory.under (root ++ [id]) := by
  have hset : ∀ (middle : Directory) (serial : Serial) (item : DirectoryItem),
      (middle.set (versionFile (root ++ [request.stencilId]) serial) item).under (root ++ [id]) =
        middle.under (root ++ [id]) := by
    intro middle serial item
    rw [versionFile_eq]
    exact under_set_outside _ _ (not_prefix_of_ne h _)
  cases hprepared : prepare root request directory with
  | error fault => rw [save_of_refused hprepared]
  | ok prepared =>
      have hsame := under_of_prepare h hprepared
      cases hnext : Serial.next now.date (serials prepared (root ++ [request.stencilId])) with
      | error fault =>
          rw [save_of_exhausted hprepared hnext]
          exact hsame
      | ok serial =>
          cases hcreated :
              createVersion (root ++ [request.stencilId]) serial prepared with
          | error fault =>
              rw [save_of_occupied hprepared hnext hcreated]
              exact hsame
          | ok created =>
              have hempty := (under_of_createVersion h hcreated).trans hsame
              cases htext : (requestedVersion request now serial).text? with
              | none =>
                  rw [save_of_unwritable hprepared hnext hcreated htext]
                  exact (hset _ _ _).trans hempty
              | some text =>
                  have hwritten := (hset created serial (.file (.text text))).trans hempty
                  cases hnamed : (created.set (versionFile (root ++ [request.stencilId]) serial)
                      (.file (.text text))).write? (activeFile (root ++ [request.stencilId]))
                      (.text serial.text) with
                  | none =>
                      rw [save_of_locked hprepared hnext hcreated htext hnamed]
                      exact hwritten
                  | some last =>
                      rw [save_of_named hprepared hnext hcreated htext hnamed]
                      exact (under_of_write? h hnamed).trans hwritten

end

end Store
end StencilDesk
