import StencilDesk.Proofs.History.Runs

/-!
# What is read of a stencil

The store reads of a stencil what stands in its folder of versions and in the file that names the
active one, and whether there is a folder of versions at all. A new folder of versions always shows
in the answers. A new version shows in them too, unless the file that names the active version
could not be read before and cannot be read now, for the same reason.
-/

namespace StencilDesk
namespace Store

open Directory

variable {root folder location : Location} {id : String} {a b c directory after : Directory}
  {serial : Serial} {fault : StoreFault}

/-!
## The same versions
-/

/-- Holds if two directories hold the same in the folder of versions of a stencil, and in the file
that names the active one. -/
structure SameVersions (folder : Location) (a b : Directory) : Prop where
  names : a.names (versionsFolder folder) = b.names (versionsFolder folder)
  items : ∀ name, a.item? (versionsFolder folder ++ [name]) =
    b.item? (versionsFolder folder ++ [name])
  active : a.item? (activeFile folder) = b.item? (activeFile folder)

theorem SameVersions.refl (folder : Location) (a : Directory) : SameVersions folder a a :=
  ⟨rfl, fun _ => rfl, rfl⟩

theorem SameVersions.trans (h : SameVersions folder a b) (hnext : SameVersions folder b c) :
    SameVersions folder a c :=
  ⟨h.names.trans hnext.names, fun name => (h.items name).trans (hnext.items name),
    h.active.trans hnext.active⟩

theorem names_set_of_childName? (directory : Directory) (item : DirectoryItem)
    (h : childName? folder location = none) :
    (directory.set location item).names folder = directory.names folder := by
  have hnew : childName? folder (location, item).1 = none := h
  unfold Directory.names Directory.set
  rw [List.filterMap_append, List.filterMap_cons, hnew, List.filterMap_nil, List.append_nil,
    List.filterMap_filter]
  apply List.filterMap_congr
  intro entry _
  by_cases hsame : entry.1 = location
  · simp [hsame, h]
  · simp [hsame]

theorem sameVersions_set (directory : Directory) (item : DirectoryItem)
    (hversion : ∀ name, versionsFolder folder ++ [name] ≠ location)
    (hactive : activeFile folder ≠ location) :
    SameVersions folder (directory.set location item) directory := by
  constructor
  · apply names_set_of_childName?
    cases hchild : childName? (versionsFolder folder) location with
    | none => rfl
    | some name => exact absurd (childName?_eq_some_iff.mp hchild).symm (hversion name)
  · intro name
    exact item?_set_other _ _ (hversion name)
  · exact item?_set_other _ _ hactive

theorem sameVersions_makeFolder? (hway : location <+: versionsFolder folder)
    (h : directory.makeFolder? location = some after) : SameVersions folder after directory := by
  rcases makeFolder?_eq_some h with ⟨hsame, _⟩ | ⟨hset, _⟩
  · rw [hsame]
    exact .refl folder directory
  · rw [hset]
    apply sameVersions_set
    · intro name hsame
      rw [← hsame] at hway
      have hlength := hway.length_le
      rw [List.length_append, List.length_singleton] at hlength
      omega
    · intro hsame
      rw [← hsame] at hway
      exact activeFile_off_way folder hway

theorem sameVersions_makeFoldersBelow? {directory : Directory} {names : Location}
    (hway : location ++ names <+: versionsFolder folder)
    (h : directory.makeFoldersBelow? location names = some after) :
    SameVersions folder after directory := by
  induction names generalizing directory location with
  | nil =>
      cases h
      exact .refl folder _
  | cons name names ih =>
      have hsplit : location ++ name :: names = (location ++ [name]) ++ names := by simp
      rw [hsplit] at hway
      rcases Option.bind_eq_some_iff.mp h with ⟨middle, hfirst, hrest⟩
      have hmiddle : SameVersions folder middle directory :=
        sameVersions_makeFolder? ((List.prefix_append _ _).trans hway) hfirst
      exact (ih hway hrest).trans hmiddle

/-!
## The same answers
-/

theorem SameVersions.serials (h : SameVersions folder a b) :
    serials a folder = serials b folder := by
  have hfiles : ∀ name, a.isFile (versionsFolder folder ++ [name]) =
      b.isFile (versionsFolder folder ++ [name]) := by
    intro name
    exact isFile_congr (h.items name)
  unfold Store.serials
  simp only [h.names, hfiles]

theorem SameVersions.activeVersion (h : SameVersions folder a b) :
    Store.active a folder = Store.active b folder := by
  unfold Store.active namedActive
  rw [h.active, h.serials]

theorem SameVersions.readVersion (h : SameVersions folder a b) (active : Option Serial) :
    readVersion a folder active = readVersion b folder active := by
  funext serial
  unfold Store.readVersion versionFile
  rw [h.items]

theorem SameVersions.versionsIn (h : SameVersions folder a b) :
    versionsIn a folder = versionsIn b folder := by
  unfold Store.versionsIn
  rw [h.activeVersion, h.serials]
  simp only [h.readVersion]

theorem existingFolder_of_isFolder
    (h : a.isFolder (versionsFolder (root ++ [id])) = b.isFolder (versionsFolder (root ++ [id]))) :
    existingFolder a root id = existingFolder b root id := by
  unfold existingFolder
  cases hfolder : stencilFolder root id with
  | error fault => rfl
  | ok folder =>
      rw [(stencilFolder_eq_ok hfolder).1]
      simp only [bind, Except.bind, h]

theorem sameAnswers_of_active
    (hfolder : a.isFolder (versionsFolder (root ++ [id])) =
      b.isFolder (versionsFolder (root ++ [id])))
    (hactive : Store.active a (root ++ [id]) = Store.active b (root ++ [id]))
    (hread : ∀ named, Store.active b (root ++ [id]) = .ok named →
      Store.readVersion a (root ++ [id]) named = Store.readVersion b (root ++ [id]) named)
    (hversions : Store.versionsIn a (root ++ [id]) = Store.versionsIn b (root ++ [id])) :
    SameAnswers root id a b := by
  have hexisting := existingFolder_of_isFolder hfolder
  constructor
  · unfold history
    rw [hexisting]
    cases hok : existingFolder b root id with
    | error fault => rfl
    | ok folder =>
        rw [existingFolder_eq_ok hok]
        exact hversions
  · intro serial
    unfold snapshot
    rw [hexisting]
    cases hok : existingFolder b root id with
    | error fault => rfl
    | ok folder =>
        rw [existingFolder_eq_ok hok]
        simp only [bind, Except.bind, hactive]
        cases hnamed : Store.active b (root ++ [id]) with
        | error fault => rfl
        | ok named => simp only [hread named hnamed]
  · intro serial
    unfold load
    rw [hexisting]
    cases hok : existingFolder b root id with
    | error fault => rfl
    | ok folder =>
        rw [existingFolder_eq_ok hok]
        simp only [bind, Except.bind, hactive, hversions]
        cases hnamed : Store.active b (root ++ [id]) with
        | error fault => rfl
        | ok named => simp only [hread named hnamed]

/-- The store answers the same about a stencil if it has the same versions and, as before, a folder
of versions or none. -/
theorem SameVersions.sameAnswers (h : SameVersions (root ++ [id]) a b)
    (hfolder : a.isFolder (versionsFolder (root ++ [id])) =
      b.isFolder (versionsFolder (root ++ [id]))) : SameAnswers root id a b :=
  sameAnswers_of_active hfolder h.activeVersion (fun named _ => h.readVersion named) h.versionsIn

/-!
## Faults of the file that names the active version
-/

theorem active_of_namedActive_error (h : namedActive directory folder = .error fault) :
    active directory folder = .error fault := by
  unfold active
  rw [h]
  rfl

theorem active_of_namedActive_ok {named : Option Serial}
    (h : namedActive directory folder = .ok named) :
    ∃ serial, active directory folder = .ok serial := by
  unfold active
  rw [h]
  cases named with
  | none => exact ⟨_, rfl⟩
  | some serial => exact ⟨_, rfl⟩

theorem namedActive_ne_error (haccess : fault ≠ .access)
    (hserial : ∀ reason, fault ≠ .invalidSerial reason) :
    namedActive directory folder ≠ .error fault := by
  intro h
  unfold namedActive at h
  split at h
  · cases h
  · dsimp only at h
    split at h
    · cases h
    · split at h
      · cases h
      · cases h
        exact hserial _ rfl
  · cases h
    exact haccess rfl

theorem existingFolder_of_there (hid : Bundle.isStencilId id = true)
    (h : directory.isFolder (versionsFolder (root ++ [id])) = true) :
    existingFolder directory root id = .ok (root ++ [id]) := by
  unfold existingFolder stencilFolder
  simp only [hid, if_true, bind, Except.bind, h, Bool.not_true]
  rfl

theorem snapshot_of_missing (hid : Bundle.isStencilId id = true)
    (h : directory.isFolder (versionsFolder (root ++ [id])) = false) (serial : Serial) :
    snapshot directory root id serial = .error (.stencilNotFound id) := by
  unfold snapshot existingFolder stencilFolder
  simp only [hid, if_true, bind, Except.bind, h, Bool.not_false]
  rfl

theorem snapshot_of_named {named : Option Serial} (hid : Bundle.isStencilId id = true)
    (h : directory.isFolder (versionsFolder (root ++ [id])) = true)
    (hnamed : namedActive directory (root ++ [id]) = .ok named) (serial : Serial) :
    ∃ active, snapshot directory root id serial =
      readVersion directory (root ++ [id]) active serial := by
  rcases active_of_namedActive_ok hnamed with ⟨active, hactive⟩
  refine ⟨active, ?_⟩
  unfold snapshot
  simp only [existingFolder_of_there hid h, bind, Except.bind, hactive]

theorem snapshot_of_fault (hid : Bundle.isStencilId id = true)
    (h : directory.isFolder (versionsFolder (root ++ [id])) = true)
    (hfault : namedActive directory (root ++ [id]) = .error fault) (serial : Serial) :
    snapshot directory root id serial = .error fault := by
  unfold snapshot
  simp only [existingFolder_of_there hid h, bind, Except.bind, active_of_namedActive_error hfault]

/-- While the active version is unknown for some reason, nothing else is told of a stencil. -/
theorem sameAnswers_of_fault
    (hfolder : a.isFolder (versionsFolder (root ++ [id])) =
      b.isFolder (versionsFolder (root ++ [id])))
    (ha : namedActive a (root ++ [id]) = .error fault)
    (hb : namedActive b (root ++ [id]) = .error fault) : SameAnswers root id a b := by
  have hactive := active_of_namedActive_error ha
  have hother := active_of_namedActive_error hb
  apply sameAnswers_of_active hfolder (hactive.trans hother.symm)
  · intro named hnamed
    rw [hother] at hnamed
    cases hnamed
  · unfold versionsIn
    rw [hactive, hother]
    rfl

/-!
## What shows
-/

theorem readVersion_of_none (active : Option Serial)
    (h : directory.item? (versionFile folder serial) = none) :
    readVersion directory folder active serial = .error (.versionNotFound serial) := by
  unfold readVersion
  rw [h]

theorem readVersion_of_some (active : Option Serial)
    (h : directory.item? (versionFile folder serial) ≠ none) :
    (∃ version, readVersion directory folder active serial = .ok version) ∨
      readVersion directory folder active serial = .error .format := by
  unfold readVersion
  split
  · exact absurd ‹_› h
  · split
    · exact .inl ⟨_, rfl⟩
    · exact .inr rfl
  · exact .inr rfl

theorem readVersion_ne_stencilNotFound (active : Option Serial) (serial : Serial) :
    readVersion directory folder active serial ≠ .error (.stencilNotFound id) := by
  intro hsame
  by_cases hitem : directory.item? (versionFile folder serial) = none
  · rw [readVersion_of_none active hitem] at hsame
    cases hsame
  · rcases readVersion_of_some active hitem with ⟨version, hread⟩ | hread
    · rw [hread] at hsame
      cases hsame
    · rw [hread] at hsame
      cases hsame

theorem snapshot_ne_stencilNotFound (hid : Bundle.isStencilId id = true)
    (h : directory.isFolder (versionsFolder (root ++ [id])) = true) (serial : Serial) :
    snapshot directory root id serial ≠ .error (.stencilNotFound id) := by
  cases hnamed : namedActive directory (root ++ [id]) with
  | error fault =>
      rw [snapshot_of_fault hid h hnamed]
      intro hsame
      rw [Except.error.inj hsame] at hnamed
      exact namedActive_ne_error (by simp) (by simp) hnamed
  | ok named =>
      rcases snapshot_of_named hid h hnamed serial with ⟨active, hread⟩
      rw [hread]
      exact readVersion_ne_stencilNotFound active serial

theorem not_sameAnswers_of_folder (hid : Bundle.isStencilId id = true)
    (hbefore : directory.isFolder (versionsFolder (root ++ [id])) = false)
    (hafter : after.isFolder (versionsFolder (root ++ [id])) = true) :
    ¬SameAnswers root id after directory := by
  intro hsame
  have hanswer := hsame.snapshot ⟨"250101A", rfl⟩
  rw [snapshot_of_missing hid hbefore] at hanswer
  exact snapshot_ne_stencilNotFound hid hafter _ hanswer

theorem snapshot_of_free (hid : Bundle.isStencilId id = true)
    (h : directory.isFolder (versionsFolder (root ++ [id])) = true)
    (hfree : directory.item? (versionFile (root ++ [id]) serial) = none) :
    snapshot directory root id serial = .error (.versionNotFound serial) ∨
      ∃ fault, namedActive directory (root ++ [id]) = .error fault ∧
        snapshot directory root id serial = .error fault := by
  cases hnamed : namedActive directory (root ++ [id]) with
  | error fault => exact .inr ⟨fault, rfl, snapshot_of_fault hid h hnamed serial⟩
  | ok named =>
      rcases snapshot_of_named hid h hnamed serial with ⟨active, hread⟩
      rw [hread]
      exact .inl (readVersion_of_none active hfree)

theorem snapshot_of_there (hid : Bundle.isStencilId id = true)
    (h : directory.isFolder (versionsFolder (root ++ [id])) = true)
    (hthere : directory.item? (versionFile (root ++ [id]) serial) ≠ none) :
    ((∃ version, snapshot directory root id serial = .ok version) ∨
        snapshot directory root id serial = .error .format) ∨
      ∃ fault, namedActive directory (root ++ [id]) = .error fault ∧
        snapshot directory root id serial = .error fault := by
  cases hnamed : namedActive directory (root ++ [id]) with
  | error fault => exact .inr ⟨fault, rfl, snapshot_of_fault hid h hnamed serial⟩
  | ok named =>
      rcases snapshot_of_named hid h hnamed serial with ⟨active, hread⟩
      rw [hread]
      exact .inl (readVersion_of_some active hthere)

/-- Something in the place of a version that was not there shows if it is asked for, unless the
active version is unknown as it was before. -/
theorem not_sameAnswers_of_version (hid : Bundle.isStencilId id = true)
    (hbefore : directory.isFolder (versionsFolder (root ++ [id])) = true)
    (hafter : after.isFolder (versionsFolder (root ++ [id])) = true)
    (hfree : directory.item? (versionFile (root ++ [id]) serial) = none)
    (hthere : after.item? (versionFile (root ++ [id]) serial) ≠ none)
    (hpointer : ¬∃ fault, namedActive directory (root ++ [id]) = .error fault ∧
      namedActive after (root ++ [id]) = .error fault) :
    ¬SameAnswers root id after directory := by
  intro hsame
  have hanswer := hsame.snapshot serial
  -- Only the two faults of the file that names the active version can be the same answer.
  rcases snapshot_of_free hid hbefore hfree with hold | ⟨oldFault, holdNamed, hold⟩
  · rcases snapshot_of_there hid hafter hthere with (⟨version, hnew⟩ | hnew) | ⟨fault, hnamed, hnew⟩
    · simp [hold, hnew] at hanswer
    · simp [hold, hnew] at hanswer
    · rw [hold, hnew, Except.error.injEq] at hanswer
      rw [hanswer] at hnamed
      exact namedActive_ne_error (by simp) (by simp) hnamed
  · rcases snapshot_of_there hid hafter hthere with (⟨version, hnew⟩ | hnew) | ⟨fault, hnamed, hnew⟩
    · simp [hold, hnew] at hanswer
    · rw [hold, hnew, Except.error.injEq] at hanswer
      rw [← hanswer] at holdNamed
      exact namedActive_ne_error (by simp) (by simp) holdNamed
    · rw [hold, hnew, Except.error.injEq] at hanswer
      rw [hanswer] at hnamed
      exact hpointer ⟨oldFault, holdNamed, hnamed⟩

end Store
end StencilDesk
