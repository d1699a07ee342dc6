import StencilDesk.Bundle.Diff
import StencilDesk.History.Service
import StencilDesk.Session.Operations

/-!
# Versions of a session

Saving a session as a new version, going back to an earlier one, and comparing two of them. A save
that the store does not accept leaves the session as it was.
-/

namespace StencilDesk

structure RestoreReport where
  serial : Serial
  replacement : Replacement
deriving DecidableEq, Repr

namespace Session

def saveRequest (s : Session) (author : String) (message : Option String) : SaveRequest :=
  { stencilId := s.stencilId, base := s.serial, files := s.files, author, message }

/-- The versions after a save of which the store cannot list them: the new one before all others. -/
def versionsWith (s : Session) (serial : Serial) (author : String) (message : Option String)
    (now : Timestamp) : List Snapshot :=
  { serial, createdAt := now, createdBy := author, isActive := true, message,
    files := s.files } ::
    s.versions.map fun version => { version with isActive := false }

/-- The session after an accepted save: no tab is dirty, and the files are the new baseline. -/
def saved (s : Session) (serial : Serial) : Session :=
  { s with
    tabs := s.tabs.map Tab.saved
    serial := some serial
    baseline := checksums s.files }

def save {σ : Type} (service : StoreService σ) (s : Session) (author : String)
    (message : Option String) : StateM σ (Except SessionFault SaveAnswer × Session) := do
  match ← service.save (s.saveRequest author message) with
  | .error fault => return (.error (.store fault), s)
  | .ok answer =>
      if !answer.success then
        return (.error (.saveRejected s.stencilId), s)
      let next := s.saved answer.serial
      match ← service.history s.stencilId with
      | .ok versions => return (.ok answer, next.setVersions versions)
      | .error _ =>
          let versions := s.versionsWith answer.serial author message (← service.now)
          return (.ok answer, next.setVersions versions)

def restore {σ : Type} (service : StoreService σ) (s : Session) (serial : Serial) :
    StateM σ (Except SessionFault RestoreReport × Session) := do
  match ← service.snapshot s.stencilId serial with
  | .error fault => return (.error (.store fault), s)
  | .ok snapshot =>
      let (replacement, s) := s.install snapshot.files
      return (.ok { serial, replacement }, s)

/-! ## What a save and a restore make of the store's answers -/

section
variable {σ : Type}

theorem save_of_error {service : StoreService σ} {s : Session} {author : String}
    {message : Option String} {store after : σ} {fault : StoreFault}
    (h : service.save (s.saveRequest author message) store = (.error fault, after)) :
    s.save service author message store = ((.error (.store fault), s), after) := by
  unfold save
  simp only [bind, StateT.bind, h]
  rfl

theorem save_of_refused {service : StoreService σ} {s : Session} {author : String}
    {message : Option String} {store after : σ} {answer : SaveAnswer}
    (h : service.save (s.saveRequest author message) store = (.ok answer, after))
    (hrefused : answer.success = false) :
    s.save service author message store = ((.error (.saveRejected s.stencilId), s), after) := by
  unfold save
  simp only [bind, StateT.bind, h, hrefused]
  rfl

theorem save_of_listed {service : StoreService σ} {s : Session} {author : String}
    {message : Option String} {store after last : σ} {answer : SaveAnswer}
    {versions : List Snapshot}
    (h : service.save (s.saveRequest author message) store = (.ok answer, after))
    (haccepted : answer.success = true)
    (hlisted : service.history s.stencilId after = (.ok versions, last)) :
    s.save service author message store =
      ((.ok answer, (s.saved answer.serial).setVersions versions), last) := by
  unfold save
  simp only [bind, StateT.bind, h, haccepted, Bool.not_true, Bool.false_eq_true, if_false,
    hlisted]
  rfl

theorem save_of_unlisted {service : StoreService σ} {s : Session} {author : String}
    {message : Option String} {store after last : σ} {answer : SaveAnswer} {fault : StoreFault}
    (h : service.save (s.saveRequest author message) store = (.ok answer, after))
    (haccepted : answer.success = true)
    (hlisted : service.history s.stencilId after = (.error fault, last)) :
    s.save service author message store =
      ((.ok answer, (s.saved answer.serial).setVersions
          (s.versionsWith answer.serial author message (service.now last).1)),
        (service.now last).2) := by
  unfold save
  simp only [bind, StateT.bind, h, haccepted, Bool.not_true, Bool.false_eq_true, if_false,
    hlisted]
  rfl

theorem restore_of_error {service : StoreService σ} {s : Session} {serial : Serial}
    {store after : σ} {fault : StoreFault}
    (h : service.snapshot s.stencilId serial store = (.error fault, after)) :
    s.restore service serial store = ((.error (.store fault), s), after) := by
  unfold restore
  simp only [bind, StateT.bind, h]
  rfl

theorem restore_of_ok {service : StoreService σ} {s : Session} {serial : Serial}
    {store after : σ} {version : Snapshot}
    (h : service.snapshot s.stencilId serial store = (.ok version, after)) :
    s.restore service serial store =
      ((.ok ⟨serial, (s.install version.files).1⟩, (s.install version.files).2), after) := by
  unfold restore
  simp only [bind, StateT.bind, h]
  rfl
end

end Session

def compareVersions {σ : Type} (service : StoreService σ) (id : String) (old new : Serial) :
    StateM σ (Except StoreFault BundleDiff) := do
  match ← service.snapshot id old with
  | .error fault => return .error fault
  | .ok before =>
      match ← service.snapshot id new with
      | .error fault => return .error fault
      | .ok after => return .ok (BundleDiff.compare before.files after.files)

end StencilDesk
