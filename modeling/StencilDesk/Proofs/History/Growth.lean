import StencilDesk.Proofs.History.Log

/-!
# A save adds a version

A save either is refused and leaves the log of its stencil as it was, or adds the version that was
requested to its end. Everything that was saved before stays.
-/

namespace StencilDesk
namespace Store

open Directory

/-- Holds if no file stands on the way to a store. -/
def Clear (root : Location) (directory : Directory) : Prop :=
  ∀ location, location <+: root → directory.isFile location = false

section
variable {root : Location} {id : String} {directory prepared : Directory} {log : List Snapshot}
  {request : SaveRequest} {now : Timestamp}

/-!
## Locations
-/

theorem versionName_injective {a b : Serial} (h : versionName a = versionName b) : a = b := by
  apply Serial.eq_of_text_eq
  have hlists := String.ofList_injective h
  exact String.toList_inj.mp (List.append_cancel_right hlists)

theorem versionFile_injective {folder : Location} {a b : Serial}
    (h : versionFile folder a = versionFile folder b) : a = b := by
  rw [versionFile_eq, versionFile_eq] at h
  have hnames := List.append_cancel_left h
  apply versionName_injective
  simpa using hnames

theorem versionFile_ne_activeFile (folder : Location) (serial : Serial) :
    versionFile folder serial ≠ activeFile folder := by
  rw [versionFile_eq]
  unfold activeFile
  intro h
  have hnames := List.append_cancel_left h
  simp at hnames

theorem not_prefix_versionsFolder {folder : Location} {names : List String}
    (h : ¬names <+: [versionsName]) : ¬folder ++ names <+: versionsFolder folder := by
  unfold versionsFolder
  rw [List.prefix_append_right_inj]
  exact h

theorem versionFile_off_way (folder : Location) (serial : Serial) :
    ¬versionFile folder serial <+: versionsFolder folder := by
  rw [versionFile_eq]
  apply not_prefix_versionsFolder
  intro hstart
  have hlength := hstart.length_le
  simp at hlength

theorem activeFile_off_way (folder : Location) :
    ¬activeFile folder <+: versionsFolder folder := by
  apply not_prefix_versionsFolder
  rw [List.cons_prefix_cons]
  intro hstart
  exact absurd hstart.1 (by decide)

theorem on_way_of_prefix_root {location : Location} (h : location <+: root) :
    location <+: versionsFolder (root ++ [id]) :=
  (h.trans (List.prefix_append _ _)).trans (List.prefix_append _ _)

/-!
## The folders of a save
-/

theorem madeFolders_of_prepare (h : prepare root request directory = .ok prepared) :
    MadeFolders directory prepared [] (versionsFolder (root ++ [request.stencilId])) :=
  madeFolders_of_makeFoldersBelow? (prepare_eq_ok h).2.2

theorem item?_of_prepare (h : prepare root request directory = .ok prepared)
    {location : Location} (hlocation : ¬location <+: versionsFolder (root ++ [request.stencilId])) :
    prepared.item? location = directory.item? location := by
  apply (madeFolders_of_prepare h).kept
  intro ⟨before, hstart, _, hsame⟩
  rw [hsame] at hlocation
  exact hlocation hstart

theorem isFolder_of_prepare (h : prepare root request directory = .ok prepared)
    {location : Location} (hlocation : location <+: versionsFolder (root ++ [request.stencilId])) :
    prepared.isFolder location = true := by
  rw [isFolder_iff]
  by_cases hempty : location = []
  · rw [hempty]
    rfl
  · exact (madeFolders_of_prepare h).made location ⟨location, hlocation, hempty, rfl⟩

theorem isFile_of_isFolder {location : Location} (h : directory.isFolder location = true) :
    directory.isFile location = false :=
  isFile_eq_false_iff.mpr (.inr (isFolder_iff.mp h))

theorem Keeps.frame (h : Keeps root id directory log) {next : Directory}
    (hdistinct : (next.under (root ++ [id])).Distinct)
    (hfolder : next.isFile (root ++ [id]) = false)
    (hversions : next.isFile (versionsFolder (root ++ [id])) = false)
    (hprepared : log ≠ [] → next.isFolder (versionsFolder (root ++ [id])) = true)
    (hactive : next.item? (activeFile (root ++ [id])) =
      directory.item? (activeFile (root ++ [id])))
    (hfiles : ∀ serial, next.item? (versionFile (root ++ [id]) serial) =
      directory.item? (versionFile (root ++ [id]) serial)) : Keeps root id next log := by
  constructor
  · exact hdistinct
  · exact hfolder
  · exact hversions
  · rw [isFolder_congr hactive]
    exact h.activeFree
  · exact h.valid
  · exact hprepared
  · intro version hmem
    rw [hfiles]
    exact h.stored version hmem
  · intro serial hnone
    rw [hfiles]
    exact h.onlyStored serial hnone
  · exact h.serialsDistinct
  · exact h.configured
  · exact h.marked
  · intro before last hlog
    rw [hactive]
    exact h.named before last hlog

theorem Keeps.prepare (h : Keeps root request.stencilId directory log)
    (hprepare : Store.prepare root request directory = .ok prepared) :
    Keeps root request.stencilId prepared log := by
  have hversions := isFolder_of_prepare hprepare (List.prefix_refl _)
  have hfolder := isFolder_of_prepare hprepare
    (List.prefix_append (root ++ [request.stencilId]) [versionsName])
  apply h.frame
  · exact (madeFolders_of_prepare hprepare).distinct_under _ h.distinct
  · exact isFile_of_isFolder hfolder
  · exact isFile_of_isFolder hversions
  · intro _
    exact hversions
  · exact item?_of_prepare hprepare (activeFile_off_way _)
  · intro serial
    exact item?_of_prepare hprepare (versionFile_off_way _ serial)

theorem Keeps.of_under_eq {next : Directory} (h : Keeps root id directory log)
    (hsame : next.under (root ++ [id]) = directory.under (root ++ [id])) :
    Keeps root id next log := by
  have hitems := item?_congr (stencilFolder_ne_nil root id) hsame
  have hfolder := hitems []
  rw [List.append_nil] at hfolder
  have hversions : next.item? (versionsFolder (root ++ [id])) =
      directory.item? (versionsFolder (root ++ [id])) := hitems [versionsName]
  apply h.frame
  · rw [hsame]
    exact h.distinct
  · rw [isFile_congr hfolder]
    exact h.folderFree
  · rw [isFile_congr hversions]
    exact h.versionsFree
  · rw [isFolder_congr hversions]
    exact h.prepared
  · exact hitems [activeName]
  · intro serial
    rw [versionFile_eq]
    exact hitems _

/-!
## The files of a save
-/

def published (prepared : Directory) (folder : Location) (serial : Serial) (text : String) :
    Directory :=
  ((prepared.set (versionFile folder serial) (.file (.text ""))).set
    (versionFile folder serial) (.file (.text text))).set
      (activeFile folder) (.file (.text serial.text))

theorem versionFile_ne_nil (folder : Location) (serial : Serial) :
    versionFile folder serial ≠ [] := by
  unfold versionFile
  simp

theorem activeFile_ne_nil (folder : Location) : activeFile folder ≠ [] := by
  unfold activeFile
  simp

theorem item?_published_active (folder : Location) (serial : Serial) (text : String) :
    (published prepared folder serial text).item? (activeFile folder) =
      some (.file (.text serial.text)) :=
  item?_set_self _ _ (activeFile_ne_nil folder)

theorem item?_published_version (folder : Location) (serial : Serial) (text : String) :
    (published prepared folder serial text).item? (versionFile folder serial) =
      some (.file (.text text)) := by
  unfold published
  rw [item?_set_other _ _ (versionFile_ne_activeFile folder serial),
    item?_set_self _ _ (versionFile_ne_nil folder serial)]

theorem item?_published_other {folder location : Location} {serial : Serial} (text : String)
    (hversion : location ≠ versionFile folder serial) (hactive : location ≠ activeFile folder) :
    (published prepared folder serial text).item? location = prepared.item? location := by
  unfold published
  rw [item?_set_other _ _ hactive, item?_set_other _ _ hversion, item?_set_other _ _ hversion]

theorem item?_published_of_ne {folder : Location} {serial other : Serial} (text : String)
    (h : other ≠ serial) :
    (published prepared folder serial text).item? (versionFile folder other) =
      prepared.item? (versionFile folder other) := by
  apply item?_published_other
  · intro hsame
    exact h (versionFile_injective hsame)
  · exact versionFile_ne_activeFile folder other

theorem item?_published_way {folder location : Location} (serial : Serial) (text : String)
    (h : location <+: versionsFolder folder) :
    (published prepared folder serial text).item? location = prepared.item? location := by
  apply item?_published_other
  · intro hsame
    rw [hsame] at h
    exact versionFile_off_way _ _ h
  · intro hsame
    rw [hsame] at h
    exact activeFile_off_way _ h

theorem Keeps.published (h : Keeps root id prepared log)
    (hid : Bundle.isStencilId id = true)
    (hversions : prepared.isFolder (versionsFolder (root ++ [id])) = true)
    {version : Snapshot} {text : String} (hnew : version.serial ∉ log.map Snapshot.serial)
    (hread : Snapshot.ofText? text = some version)
    (hconfig : File.existsAt version.files File.mainConfigPath = true)
    (hmarked : version.isActive = true) :
    Keeps root id (published prepared (root ++ [id]) version.serial text) (log ++ [version]) := by
  constructor
  · exact distinct_under_set (distinct_under_set (distinct_under_set h.distinct _ _) _ _) _ _
  · rw [isFile_congr (item?_published_way _ _ (List.prefix_append _ _))]
    exact h.folderFree
  · rw [isFile_congr (item?_published_way _ _ (List.prefix_refl _))]
    exact h.versionsFree
  · unfold isFolder
    rw [item?_published_active]
    rfl
  · intro _
    exact hid
  · intro _
    rw [isFolder_congr (item?_published_way _ _ (List.prefix_refl _))]
    exact hversions
  · rw [List.forall_mem_append, List.forall_mem_singleton]
    constructor
    · intro old hold
      have hne : old.serial ≠ version.serial := by
        intro hsame
        rw [← hsame] at hnew
        exact hnew (List.mem_map_of_mem hold)
      rw [item?_published_of_ne _ hne]
      exact h.stored old hold
    · exact ⟨text, item?_published_version _ _ _, hread⟩
  · intro serial hnone
    rw [List.map_append, List.map_singleton, List.mem_append, not_or,
      List.mem_singleton] at hnone
    rw [item?_published_of_ne _ hnone.2]
    exact h.onlyStored serial hnone.1
  · rw [List.map_append, List.map_singleton, ← List.concat_eq_append]
    exact h.serialsDistinct.concat hnew
  · rw [List.forall_mem_append, List.forall_mem_singleton]
    exact ⟨h.configured, hconfig⟩
  · rw [List.forall_mem_append, List.forall_mem_singleton]
    exact ⟨h.marked, hmarked⟩
  · intro before last hlog
    have hends := (List.append_inj' hlog rfl).2
    rw [← List.singleton_inj.mp hends]
    exact item?_published_active _ _ _

/-!
## Saves
-/

theorem existsAt_of_accept {files : List File} (h : Bundle.accept id files = .ok ()) :
    File.existsAt files File.mainConfigPath = true := by
  rcases Bundle.bind_eq_ok h with ⟨_, _, h⟩
  rcases Bundle.bind_eq_ok h with ⟨_, _, h⟩
  cases hconfig : File.existsAt files File.mainConfigPath with
  | true => rfl
  | false => simp [hconfig] at h

/-- The file of the next version can be created and written, and then be named as active. -/
theorem Keeps.save_of_next (h : Keeps root request.stencilId prepared log)
    (hprepare : Store.prepare root request directory = .ok prepared) {serial : Serial}
    (hnext : Serial.next now.date (serials prepared (root ++ [request.stencilId])) = .ok serial)
    {text : String} (htext : (requestedVersion request now serial).text? = some text) :
    save root request now directory =
      (Store.published prepared (root ++ [request.stencilId]) serial text,
        .ok ⟨serial, true⟩) := by
  have hnew : serial ∉ log.map Snapshot.serial := by
    rw [← h.mem_serials_iff]
    exact Serial.not_mem_of_next hnext
  have hnone := h.onlyStored serial hnew
  have hversions := isFolder_of_prepare hprepare (List.prefix_refl _)
  have hfolder := isFolder_of_prepare hprepare
    (List.prefix_append (root ++ [request.stencilId]) [versionsName])
  have hcreated : createVersion (root ++ [request.stencilId]) serial prepared =
      .ok (prepared.set (versionFile (root ++ [request.stencilId]) serial)
        (.file (.text ""))) := by
    apply createVersion_of_write?
    · unfold isOccupied
      rw [hnone]
      rfl
    · apply write?_of_isFolder
      · unfold isFolder
        rw [hnone]
        rfl
      · unfold versionFile
        rw [List.dropLast_concat]
        exact hversions
  apply save_of_named hprepare hnext hcreated htext
  apply write?_of_isFolder
  -- The name of the active version is written last, past the file that has just been written.
  · have hkept : ((prepared.set (versionFile (root ++ [request.stencilId]) serial)
        (.file (.text ""))).set (versionFile (root ++ [request.stencilId]) serial)
        (.file (.text text))).item? (activeFile (root ++ [request.stencilId])) =
        prepared.item? (activeFile (root ++ [request.stencilId])) := by
      have hne := (versionFile_ne_activeFile (root ++ [request.stencilId]) serial).symm
      rw [item?_set_other _ _ hne, item?_set_other _ _ hne]
    rw [isFolder_congr hkept]
    exact h.activeFree
  · have hne : root ++ [request.stencilId] ≠
        versionFile (root ++ [request.stencilId]) serial := by
      rw [versionFile_eq]
      simp
    unfold activeFile
    rw [List.dropLast_concat]
    unfold isFolder at hfolder ⊢
    rw [item?_set_other _ _ hne, item?_set_other _ _ hne]
    exact hfolder

/-- What a save comes to, if the folder of its stencil keeps a log and its time can be written. -/
inductive Outcome (root : Location) (request : SaveRequest) (now : Timestamp)
    (directory : Directory) : Directory × Except StoreFault SaveAnswer → Prop where
  | refused {fault : StoreFault} (hprepare : prepare root request directory = .error fault) :
      Outcome root request now directory (directory, .error fault)
  | exhausted {prepared : Directory} {fault : SerialFault}
      (hprepare : prepare root request directory = .ok prepared)
      (hnext : Serial.next now.date (serials prepared (root ++ [request.stencilId])) =
        .error fault) :
      Outcome root request now directory (prepared, .error (.invalidSerial fault))
  | saved {prepared : Directory} {serial : Serial} {text : String}
      (hprepare : prepare root request directory = .ok prepared)
      (hnext : Serial.next now.date (serials prepared (root ++ [request.stencilId])) = .ok serial)
      (hread : Snapshot.ofText? text = some (requestedVersion request now serial)) :
      Outcome root request now directory
        (Store.published prepared (root ++ [request.stencilId]) serial text, .ok ⟨serial, true⟩)

theorem Keeps.outcome (h : Keeps root request.stencilId directory log)
    (htime : now.Expressible) :
    Outcome root request now directory (Store.save root request now directory) := by
  cases hprepare : Store.prepare root request directory with
  | error fault =>
      rw [save_of_refused hprepare]
      exact .refused hprepare
  | ok prepared =>
      cases hnext : Serial.next now.date (serials prepared (root ++ [request.stencilId])) with
      | error fault =>
          rw [save_of_exhausted hprepare hnext]
          exact .exhausted hprepare hnext
      | ok serial =>
          have hexpressible : (requestedVersion request now serial).createdAt.Expressible := htime
          rcases Snapshot.exists_text hexpressible with ⟨text, htext, hread⟩
          rw [(h.prepare hprepare).save_of_next hprepare hnext htext]
          exact .saved hprepare hnext hread

theorem Keeps.save (h : Keeps root request.stencilId directory log) (htime : now.Expressible) :
    (∃ fault, (save root request now directory).2 = .error fault ∧
        Keeps root request.stencilId (save root request now directory).1 log) ∨
      ∃ serial, (save root request now directory).2 = .ok ⟨serial, true⟩ ∧
        Keeps root request.stencilId (save root request now directory).1
          (log ++ [requestedVersion request now serial]) := by
  have houtcome := h.outcome htime
  generalize Store.save root request now directory = result at houtcome ⊢
  cases houtcome with
  | refused _ => exact .inl ⟨_, rfl, h⟩
  | exhausted hprepare _ => exact .inl ⟨_, rfl, h.prepare hprepare⟩
  | saved hprepare hnext hread =>
      rename_i prepared serial text
      have hkept := h.prepare hprepare
      rcases prepare_eq_ok hprepare with ⟨hid, haccept, _⟩
      refine .inr ⟨serial, rfl, ?_⟩
      apply hkept.published hid (isFolder_of_prepare hprepare (List.prefix_refl _)) _ hread
      · exact existsAt_of_accept haccept
      · rfl
      · show serial ∉ log.map Snapshot.serial
        rw [← hkept.mem_serials_iff]
        exact Serial.not_mem_of_next hnext

/-!
## Saves that succeed
-/

theorem Clear.of_item? {next : Directory} (h : Clear root directory)
    (hnext : ∀ location, location <+: root →
      next.item? location = directory.item? location ∨ next.item? location = some .folder) :
    Clear root next := by
  intro location hlocation
  rcases hnext location hlocation with hsame | hfolder
  · rw [isFile_congr hsame]
    exact h location hlocation
  · exact isFile_eq_false_iff.mpr (.inr hfolder)

theorem Clear.prepare (h : Clear root directory)
    (hprepare : Store.prepare root request directory = .ok prepared) : Clear root prepared := by
  apply h.of_item?
  intro location hlocation
  right
  apply isFolder_iff.mp
  exact isFolder_of_prepare hprepare (on_way_of_prefix_root hlocation)

theorem Clear.published (h : Clear root prepared) (serial : Serial) (text : String) :
    Clear root (Store.published prepared (root ++ [id]) serial text) := by
  apply h.of_item?
  intro location hlocation
  left
  apply item?_published_way
  exact on_way_of_prefix_root hlocation

theorem Clear.save (hclear : Clear root directory)
    (h : Keeps root request.stencilId directory log) (htime : now.Expressible) :
    Clear root (save root request now directory).1 := by
  have houtcome := h.outcome htime
  generalize Store.save root request now directory = result at houtcome ⊢
  cases houtcome with
  | refused _ => exact hclear
  | exhausted hprepare _ => exact hclear.prepare hprepare
  | saved hprepare _ _ => exact (hclear.prepare hprepare).published _ _

theorem Keeps.exists_prepare (h : Keeps root request.stencilId directory log)
    (hclear : Clear root directory) (hid : Bundle.isStencilId request.stencilId = true)
    (haccept : Bundle.accept request.stencilId request.files = .ok ()) :
    ∃ prepared, Store.prepare root request directory = .ok prepared := by
  -- A file on the way would be in the folder of the stencil, the folder itself, or above the root.
  have hway : ∀ other, Along [] (versionsFolder (root ++ [request.stencilId])) other →
      directory.isFile other = false := by
    intro other ⟨before, hstart, _, hother⟩
    rw [List.nil_append] at hother
    rw [hother]
    unfold versionsFolder at hstart
    rw [List.prefix_concat_iff, List.prefix_concat_iff] at hstart
    rcases hstart with hversions | hfolder | hroot
    · rw [hversions]
      exact h.versionsFree
    · rw [hfolder]
      exact h.folderFree
    · exact hclear before hroot
  rcases exists_makeFoldersBelow? hway with ⟨prepared, hmade⟩
  exact ⟨prepared, prepare_of_makeFolders? hid haccept hmade⟩

/-- A save fails only through the check of its id, the check of its bundle, or for want of a
letter. -/
theorem Keeps.save_of_checks (h : Keeps root request.stencilId directory log)
    (hclear : Clear root directory) (htime : now.Expressible)
    (hid : Bundle.isStencilId request.stencilId = true)
    (haccept : Bundle.accept request.stencilId request.files = .ok ()) :
    (∃ serial, (Store.save root request now directory).2 = .ok ⟨serial, true⟩) ∨
      (Store.save root request now directory).2 =
        .error (.invalidSerial (.exhausted (String.ofList (Serial.datePrefix now.date)))) := by
  rcases h.exists_prepare hclear hid haccept with ⟨prepared, hprepare⟩
  have houtcome := h.outcome htime
  generalize Store.save root request now directory = result at houtcome ⊢
  cases houtcome with
  | refused hrefused =>
      rw [hprepare] at hrefused
      cases hrefused
  | exhausted _ hnext =>
      rw [Serial.eq_exhausted_of_next hnext]
      exact .inr rfl
  | saved _ _ _ => exact .inl ⟨_, rfl⟩

end

end Store
end StencilDesk
