import StencilDesk.Proofs.History.Archive
import StencilDesk.Proofs.History.Reading

/-!
# What a save leaves that fails

A save changes the directory step by step, and nothing is taken back when a later step fails. The
stages of a save tell what is there when it stops: the way to the versions, or also the file of a
version that is not named as the active one. Of other stencils nothing changes. Of its own stencil
the store answers as before exactly if the save has left no trace: neither a new folder of versions
nor a new file among them that can be looked for.
-/

namespace StencilDesk

namespace SaveStage

def hasFile : SaveStage → Bool
  | created _ | written _ => true
  | _ => false

end SaveStage

namespace Store

open Directory

variable {root : Location} {id : String} {directory current middle after : Directory}
  {stage : SaveStage} {request : SaveRequest} {now : Timestamp} {serial : Serial}

/-!
## Steps that fail
-/

/-- What a step of a save may leave if it fails, because it finds a fault or because the system lets
it down at any point of what it reads or writes. -/
def Leaves (root : Location) (request : SaveRequest) (directory after : Directory) :
    SaveStage → Prop
  | .requested =>
      after = directory ∨
        Bundle.isStencilId request.stencilId = true ∧
          Bundle.accept request.stencilId request.files = .ok () ∧
          ∃ way, way <+: versionsFolder (root ++ [request.stencilId]) ∧
            directory.makeFolders? way = some after
  | .prepared | .listed _ | .chosen _ => after = directory
  | .created snapshot =>
      ∃ content, after =
        directory.set (versionFile (root ++ [request.stencilId]) snapshot.serial) (.file content)
  | .written _ =>
      after = directory ∨
        ∃ content, directory.write? (activeFile (root ++ [request.stencilId])) content = some after
  | .finished _ => False

def Stopped (root : Location) (request : SaveRequest) (now : Timestamp) (directory : Directory)
    (stage : SaveStage) (after : Directory) : Prop :=
  ∃ steps current, advanceBy root request now steps (directory, .requested) = (current, stage) ∧
    Leaves root request current after stage

theorem stopped_of_save {fault : StoreFault}
    (h : save root request now directory = (after, .error fault)) :
    ∃ stage, Stopped root request now directory stage after := by
  cases hprepared : prepare root request directory with
  | error reason =>
      rw [save_of_refused hprepared, Prod.mk.injEq] at h
      exact ⟨.requested, 0, directory, rfl, .inl h.1.symm⟩
  | ok prepared =>
      have hfirst : advanceBy root request now 2 (directory, .requested) =
          (prepared, .listed (serials prepared (root ++ [request.stencilId]))) := by
        rw [advanceBy_of_advance (advance_requested_of_ok hprepared),
          advanceBy_of_advance advance_prepared]
        rfl
      cases hnext : Serial.next now.date (serials prepared (root ++ [request.stencilId])) with
      | error reason =>
          rw [save_of_exhausted hprepared hnext, Prod.mk.injEq] at h
          exact ⟨_, 2, prepared, hfirst, h.1.symm⟩
      | ok serial =>
          cases hcreated : createVersion (root ++ [request.stencilId]) serial prepared with
          | error reason =>
              rw [save_of_occupied hprepared hnext hcreated, Prod.mk.injEq] at h
              refine ⟨.chosen (requestedVersion request now serial), 3, prepared, ?_, h.1.symm⟩
              rw [advanceBy_of_advance (advance_requested_of_ok hprepared),
                advanceBy_of_advance advance_prepared,
                advanceBy_of_advance (advance_listed_of_ok hnext)]
              rfl
          | ok created =>
              cases htext : (requestedVersion request now serial).text? with
              | none =>
                  rw [save_of_unwritable hprepared hnext hcreated htext, Prod.mk.injEq] at h
                  exact ⟨_, 4, created, advanceBy_created hprepared hnext hcreated 0, _, h.1.symm⟩
              | some text =>
                  cases hnamed : (created.set (versionFile (root ++ [request.stencilId]) serial)
                      (.file (.text text))).write? (activeFile (root ++ [request.stencilId]))
                      (.text serial.text) with
                  | none =>
                      rw [save_of_locked hprepared hnext hcreated htext hnamed,
                        Prod.mk.injEq] at h
                      refine ⟨.written serial, 5, _, ?_, .inl h.1.symm⟩
                      rw [advanceBy_created hprepared hnext hcreated 1,
                        advanceBy_of_advance (advance_created_of_some htext)]
                      rfl
                  | some last =>
                      rw [save_of_named hprepared hnext hcreated htext hnamed] at h
                      cases h

/-!
## The stages of a save
-/

structure Opened (root : Location) (request : SaveRequest) (directory : Directory)
    (serial : Serial) (current : Directory) : Prop where
  valid : Bundle.isStencilId request.stencilId = true
  free : directory.item? (versionFile (root ++ [request.stencilId]) serial) = none
  there : current.item? (versionFile (root ++ [request.stencilId]) serial) ≠ none
  folder : current.isFolder (versionsFolder (root ++ [request.stencilId])) = true

def Underway (root : Location) (request : SaveRequest) (directory current : Directory) :
    SaveStage → Prop
  | .requested => current = directory
  | .prepared | .listed _ | .chosen _ => prepare root request directory = .ok current
  | .created snapshot => Opened root request directory snapshot.serial current
  | .written serial => Opened root request directory serial current
  | .finished _ => True

theorem Opened.set (h : Opened root request directory serial current) {location : Location}
    (content : FileContent)
    (hlocation : versionsFolder (root ++ [request.stencilId]) ≠ location) :
    Opened root request directory serial (current.set location (.file content)) := by
  refine ⟨h.valid, h.free, ?_, ?_⟩
  · by_cases hsame : versionFile (root ++ [request.stencilId]) serial = location
    · rw [← hsame, item?_set_self _ _ (versionFile_ne_nil _ _)]
      simp
    · rw [item?_set_other _ _ hsame]
      exact h.there
  · rw [isFolder_congr (item?_set_other _ _ hlocation)]
    exact h.folder

theorem versionsFolder_ne_versionFile (folder : Location) (serial : Serial) :
    versionsFolder folder ≠ versionFile folder serial := by
  intro hsame
  apply versionFile_off_way folder serial
  rw [← hsame]

theorem versionsFolder_ne_activeFile (folder : Location) :
    versionsFolder folder ≠ activeFile folder := by
  intro hsame
  apply activeFile_off_way folder
  rw [← hsame]

theorem opened_of_createVersion {prepared created : Directory}
    (hprepare : prepare root request directory = .ok prepared)
    (hcreated : createVersion (root ++ [request.stencilId]) serial prepared = .ok created) :
    Opened root request directory serial created := by
  rcases set_of_createVersion hcreated with ⟨hfree, hset⟩
  have hfolder := isFolder_of_prepare hprepare (List.prefix_refl _)
  rw [hset]
  refine ⟨(prepare_eq_ok hprepare).1, ?_, ?_, ?_⟩
  · rw [← item?_of_prepare hprepare (versionFile_off_way _ _)]
    exact hfree
  · rw [item?_set_self _ _ (versionFile_ne_nil _ _)]
    simp
  · rw [isFolder_congr (item?_set_other _ _ (versionsFolder_ne_versionFile _ _))]
    exact hfolder

theorem underway_advance (h : Underway root request directory current stage) :
    Underway root request directory (advance root request now current stage).1
      (advance root request now current stage).2 := by
  cases stage with
  | requested =>
      rw [show current = directory from h]
      cases hprepare : prepare root request directory with
      | error fault =>
          rw [advance_requested_of_error hprepare]
          exact trivial
      | ok prepared =>
          rw [advance_requested_of_ok hprepare]
          exact hprepare
  | prepared => exact h
  | listed existing =>
      cases hnext : Serial.next now.date existing with
      | error fault =>
          rw [advance_listed_of_error hnext]
          exact trivial
      | ok serial =>
          rw [advance_listed_of_ok hnext]
          exact h
  | chosen snapshot =>
      cases hcreated : createVersion (root ++ [request.stencilId]) snapshot.serial current with
      | error fault =>
          rw [advance_chosen_of_error snapshot hcreated]
          exact trivial
      | ok created =>
          rw [advance_chosen_of_ok snapshot hcreated]
          exact opened_of_createVersion h hcreated
  | created snapshot =>
      cases htext : snapshot.text? with
      | none =>
          rw [advance_created_of_none htext]
          exact trivial
      | some text =>
          rw [advance_created_of_some htext]
          exact Opened.set h _ (versionsFolder_ne_versionFile _ _)
  | written serial =>
      cases hnamed : current.write? (activeFile (root ++ [request.stencilId]))
          (.text serial.text) with
      | none =>
          rw [advance_written_of_none hnamed]
          exact trivial
      | some last =>
          rw [advance_written_of_some hnamed]
          exact trivial
  | finished outcome => exact trivial

/-- However many steps a save takes, the directory is as its stage tells. -/
theorem underway_advanceBy {steps : Nat} {start : SaveStage}
    (hstart : Underway root request directory current start)
    (h : advanceBy root request now steps (current, start) = (middle, stage)) :
    Underway root request directory middle stage := by
  induction steps generalizing current start with
  | zero =>
      cases h
      exact hstart
  | succ steps ih => exact ih (underway_advance hstart) h

/-!
## What is left of its own stencil
-/

/-- Holds if a directory has the same versions of the stencil of a save as before, although the
folder of versions may be a new one. -/
structure Kept (root : Location) (request : SaveRequest) (directory after : Directory) :
    Prop where
  same : SameVersions (root ++ [request.stencilId]) after directory
  folder : after.isFolder (versionsFolder (root ++ [request.stencilId])) =
      directory.isFolder (versionsFolder (root ++ [request.stencilId])) ∨
    Bundle.isStencilId request.stencilId = true ∧
      after.isFolder (versionsFolder (root ++ [request.stencilId])) = true ∧
      directory.isFolder (versionsFolder (root ++ [request.stencilId])) = false

theorem Kept.refl (directory : Directory) : Kept root request directory directory :=
  ⟨.refl _ directory, .inl rfl⟩

theorem kept_of_makeFolders? (hid : Bundle.isStencilId request.stencilId = true)
    {way : Location} (hway : way <+: versionsFolder (root ++ [request.stencilId]))
    (hmade : directory.makeFolders? way = some after) : Kept root request directory after := by
  constructor
  · rw [← List.nil_append way] at hway
    exact sameVersions_makeFoldersBelow? hway hmade
  · have hfolders := madeFolders_of_makeFoldersBelow? hmade
    by_cases halong : Along [] way (versionsFolder (root ++ [request.stencilId]))
    · have hafter := isFolder_iff.mpr (hfolders.made _ halong)
      cases hbefore : directory.isFolder (versionsFolder (root ++ [request.stencilId])) with
      | true => exact .inl hafter
      | false => exact .inr ⟨hid, hafter, rfl⟩
    · exact .inl (isFolder_congr (hfolders.kept _ halong))

theorem kept_of_prepare (h : prepare root request directory = .ok after) :
    Kept root request directory after := by
  rcases prepare_eq_ok h with ⟨hid, _, hmade⟩
  exact kept_of_makeFolders? hid (List.prefix_refl _) hmade

/-- Before the file of its version is there, a save that fails changes no version. -/
theorem kept_of_leaves (h : Underway root request directory current stage)
    (hleaves : Leaves root request current after stage) (hstage : stage.hasFile = false) :
    Kept root request directory after := by
  cases stage with
  | requested =>
      rw [show current = directory from h] at hleaves
      rcases hleaves with hsame | ⟨hid, _, way, hway, hmade⟩
      · rw [hsame]
        exact .refl directory
      · exact kept_of_makeFolders? hid hway hmade
  | prepared =>
      rw [show after = current from hleaves]
      exact kept_of_prepare h
  | listed existing =>
      rw [show after = current from hleaves]
      exact kept_of_prepare h
  | chosen snapshot =>
      rw [show after = current from hleaves]
      exact kept_of_prepare h
  | created snapshot => cases hstage
  | written serial => cases hstage
  | finished outcome => exact hleaves.elim

/-- Once the file of its version is there, a save that fails leaves it behind. -/
theorem opened_of_leaves (h : Underway root request directory current stage)
    (hleaves : Leaves root request current after stage) (hstage : stage.hasFile = true) :
    ∃ serial, Opened root request directory serial after := by
  cases stage with
  | requested | prepared | listed existing | chosen snapshot => cases hstage
  | created snapshot =>
      rcases hleaves with ⟨content, hafter⟩
      rw [hafter]
      exact ⟨snapshot.serial, Opened.set h content (versionsFolder_ne_versionFile _ _)⟩
  | written serial =>
      refine ⟨serial, ?_⟩
      rcases hleaves with hafter | ⟨content, hwrite⟩
      · rw [hafter]
        exact h
      · rw [write?_eq_some hwrite]
        exact Opened.set h content (versionsFolder_ne_activeFile _)
  | finished outcome => exact hleaves.elim

/-!
## What shows of it
-/

/-- Holds if what was left of a stencil shows: it has a folder of versions at last, or something in
the place of a version, and the active version is not unknown for the same reason as before. -/
def Shows (root : Location) (id : String) (directory after : Directory) : Prop :=
  directory.isFolder (versionsFolder (root ++ [id])) = false ∧
      after.isFolder (versionsFolder (root ++ [id])) = true ∨
    (∃ serial, directory.item? (versionFile (root ++ [id]) serial) = none ∧
      after.item? (versionFile (root ++ [id]) serial) ≠ none) ∧
    ¬∃ fault, namedActive directory (root ++ [id]) = .error fault ∧
      namedActive after (root ++ [id]) = .error fault

theorem Kept.sameAnswers (h : Kept root request directory after)
    (hfolder : directory.isFolder (versionsFolder (root ++ [request.stencilId])) = true) :
    SameAnswers root request.stencilId after directory := by
  apply h.same.sameAnswers
  rcases h.folder with hsame | ⟨_, _, hmissing⟩
  · exact hsame
  · rw [hfolder] at hmissing
    cases hmissing

theorem Kept.sameAnswers_iff (h : Kept root request directory after) :
    SameAnswers root request.stencilId after directory ↔
      ¬Shows root request.stencilId directory after := by
  have hversions : ∀ serial, after.item? (versionFile (root ++ [request.stencilId]) serial) =
      directory.item? (versionFile (root ++ [request.stencilId]) serial) := by
    intro serial
    exact h.same.items (versionName serial)
  rcases h.folder with hsame | ⟨hid, hafter, hbefore⟩
  · refine iff_of_true (h.same.sameAnswers hsame) ?_
    rintro (⟨hbefore, hafter⟩ | ⟨⟨serial, hfree, hthere⟩, _⟩)
    · rw [hsame, hbefore] at hafter
      cases hafter
    · rw [hversions, hfree] at hthere
      exact hthere rfl
  · refine iff_of_false (not_sameAnswers_of_folder hid hbefore hafter) ?_
    intro hhidden
    exact hhidden (.inl ⟨hbefore, hafter⟩)

theorem Opened.sameAnswers_iff (h : Opened root request directory serial after) :
    SameAnswers root request.stencilId after directory ↔
      ¬Shows root request.stencilId directory after := by
  cases hbefore : directory.isFolder (versionsFolder (root ++ [request.stencilId])) with
  | false =>
      refine iff_of_false (not_sameAnswers_of_folder h.valid hbefore h.folder) ?_
      intro hhidden
      exact hhidden (.inl ⟨hbefore, h.folder⟩)
  | true =>
      by_cases hpointer : ∃ fault,
          namedActive directory (root ++ [request.stencilId]) = .error fault ∧
            namedActive after (root ++ [request.stencilId]) = .error fault
      · rcases hpointer with ⟨fault, hold, hnew⟩
        refine iff_of_true (sameAnswers_of_fault (h.folder.trans hbefore.symm) hnew hold) ?_
        rintro (⟨hmissing, _⟩ | ⟨_, hdiffers⟩)
        · rw [hbefore] at hmissing
          cases hmissing
        · exact hdiffers ⟨fault, hold, hnew⟩
      · refine iff_of_false
          (not_sameAnswers_of_version h.valid hbefore h.folder h.free h.there hpointer) ?_
        intro hhidden
        exact hhidden (.inr ⟨⟨serial, h.free, h.there⟩, hpointer⟩)

/-!
## What is left of other stencils
-/

section
variable (hother : id ≠ request.stencilId)
include hother

theorem under_of_makeFolders? {way : Location}
    (hway : way <+: versionsFolder (root ++ [request.stencilId]))
    (hmade : directory.makeFolders? way = some after) :
    after.under (root ++ [id]) = directory.under (root ++ [id]) := by
  apply (madeFolders_of_makeFoldersBelow? hmade).under_eq
  intro hstart
  exact not_prefix_of_ne hother [versionsName] (hstart.trans hway)

theorem under_set_versionFile (item : DirectoryItem) :
    (directory.set (versionFile (root ++ [request.stencilId]) serial) item).under (root ++ [id]) =
      directory.under (root ++ [id]) := by
  rw [versionFile_eq]
  exact under_set_outside _ _ (not_prefix_of_ne hother _)

theorem under_advance :
    (advance root request now directory stage).1.under (root ++ [id]) =
      directory.under (root ++ [id]) := by
  cases stage with
  | requested =>
      cases hprepare : prepare root request directory with
      | error fault => rw [advance_requested_of_error hprepare]
      | ok prepared =>
          rw [advance_requested_of_ok hprepare]
          exact under_of_prepare hother hprepare
  | prepared => rfl
  | listed existing =>
      cases hnext : Serial.next now.date existing with
      | error fault => rw [advance_listed_of_error hnext]
      | ok serial => rw [advance_listed_of_ok hnext]
  | chosen snapshot =>
      cases hcreated : createVersion (root ++ [request.stencilId]) snapshot.serial directory with
      | error fault => rw [advance_chosen_of_error snapshot hcreated]
      | ok created =>
          rw [advance_chosen_of_ok snapshot hcreated]
          exact under_of_createVersion hother hcreated
  | created snapshot =>
      cases htext : snapshot.text? with
      | none =>
          rw [advance_created_of_none htext]
          exact under_set_versionFile hother _
      | some text =>
          rw [advance_created_of_some htext]
          exact under_set_versionFile hother _
  | written serial =>
      cases hnamed : directory.write? (activeFile (root ++ [request.stencilId]))
          (.text serial.text) with
      | none => rw [advance_written_of_none hnamed]
      | some last =>
          rw [advance_written_of_some hnamed]
          exact under_of_write? hother hnamed
  | finished outcome => rfl

theorem under_advanceBy {steps : Nat} {start : SaveStage}
    (h : advanceBy root request now steps (directory, start) = (current, stage)) :
    current.under (root ++ [id]) = directory.under (root ++ [id]) := by
  induction steps generalizing directory start with
  | zero =>
      cases h
      rfl
  | succ steps ih => exact (ih h).trans (under_advance hother)

theorem under_of_leaves (h : Leaves root request directory after stage) :
    after.under (root ++ [id]) = directory.under (root ++ [id]) := by
  cases stage with
  | requested =>
      rcases h with hsame | ⟨_, _, way, hway, hmade⟩
      · rw [hsame]
      · exact under_of_makeFolders? hother hway hmade
  | prepared | listed existing | chosen snapshot => rw [show after = directory from h]
  | created snapshot =>
      rcases h with ⟨content, hafter⟩
      rw [hafter]
      exact under_set_versionFile hother _
  | written serial =>
      rcases h with hsame | ⟨content, hwrite⟩
      · rw [hsame]
      · exact under_of_write? hother hwrite
  | finished outcome => exact h.elim

theorem Stopped.sameAnswers_other (h : Stopped root request now directory stage after) :
    SameAnswers root id after directory := by
  rcases h with ⟨steps, current, hsteps, hleaves⟩
  have hsame : after.under (root ++ [id]) = directory.under (root ++ [id]) :=
    (under_of_leaves hother hleaves).trans (under_advanceBy hother hsteps)
  exact ⟨history_congr hsame, snapshot_congr hsame, load_congr hsame⟩

end

/-!
## Saves that fail
-/

/-- A save that answers with a fault has failed at one of its stages. Wherever a save fails, the
store answers about other stencils as before, and about its own stencil exactly if nothing shows of
what was left. Up to the creation of its file, nothing shows of a save of a stencil that has a
folder of versions. -/
theorem sameAnswers_of_stopped :
    (∀ fault, (save root request now directory).2 = .error fault →
      ∃ stage, Stopped root request now directory stage (save root request now directory).1) ∧
    ∀ stage after, Stopped root request now directory stage after →
      (∀ id, id ≠ request.stencilId → SameAnswers root id after directory) ∧
      (SameAnswers root request.stencilId after directory ↔
        ¬Shows root request.stencilId directory after) ∧
      (stage.hasFile = false →
        directory.isFolder (versionsFolder (root ++ [request.stencilId])) = true →
        SameAnswers root request.stencilId after directory) := by
  constructor
  · intro fault hfault
    exact stopped_of_save (Prod.ext rfl hfault)
  · intro stage after hstopped
    refine ⟨fun id hother => hstopped.sameAnswers_other hother, ?_⟩
    rcases hstopped with ⟨steps, current, hsteps, hleaves⟩
    have hunderway : Underway root request directory current stage :=
      underway_advanceBy (show Underway root request directory directory .requested from rfl)
        hsteps
    cases hstage : stage.hasFile with
    | false =>
        have hkept := kept_of_leaves hunderway hleaves hstage
        exact ⟨hkept.sameAnswers_iff, fun _ hfolder => hkept.sameAnswers hfolder⟩
    | true =>
        rcases opened_of_leaves hunderway hleaves hstage with ⟨serial, hopened⟩
        exact ⟨hopened.sameAnswers_iff, fun hfile => nomatch hfile⟩

def lockedDirectory : Directory :=
  ⟨[(["demo"], .folder), (["demo", activeName], .folder)]⟩

def firstRequest : SaveRequest :=
  ⟨"demo", none, [File.ofPath "/stencil.yml" "stencil:\n  id: demo\n  name: Demo\n"], "ann", none⟩

def firstTime : Timestamp :=
  ⟨⟨2025, 9, 13⟩, 10, 0, 0, 0, 0⟩

theorem sameAnswers_of_stopped_locked :
    (save [] firstRequest firstTime lockedDirectory).2 = .error .access ∧
      SameAnswers [] "other" (save [] firstRequest firstTime lockedDirectory).1 lockedDirectory ∧
      ¬SameAnswers [] "demo" (save [] firstRequest firstTime lockedDirectory).1
        lockedDirectory := by
  have hfault : (save [] firstRequest firstTime lockedDirectory).2 = .error .access := by
    decide +kernel
  rcases sameAnswers_of_stopped.1 _ hfault with ⟨stage, hstopped⟩
  rcases sameAnswers_of_stopped.2 stage _ hstopped with ⟨hothers, hown, _⟩
  refine ⟨hfault, hothers "other" (by decide), ?_⟩
  intro hsame
  apply hown.mp hsame
  exact .inl ⟨by decide +kernel, by decide +kernel⟩

/-- Not every save that fails leaves the store as it was: the first save of a stencil can fail when
all but the active version is written, and the stencil is not missing any more. -/
theorem not_sameAnswers_of_error :
    ¬∀ (root : Location) (request : SaveRequest) (now : Timestamp) (directory : Directory)
      (fault : StoreFault), (save root request now directory).2 = .error fault →
      ∀ id, SameAnswers root id (save root request now directory).1 directory := by
  intro hall
  have hfault : (save [] firstRequest firstTime lockedDirectory).2 = .error .access := by
    decide +kernel
  have hsame := (hall [] firstRequest firstTime lockedDirectory .access hfault "demo").history
  have hbefore : history lockedDirectory [] "demo" = .error (.stencilNotFound "demo") := by
    decide +kernel
  have hafter : history (save [] firstRequest firstTime lockedDirectory).1 [] "demo" =
      .error .access := by
    decide +kernel
  rw [hbefore, hafter] at hsame
  cases hsame

end Store
end StencilDesk
