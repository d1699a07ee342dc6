import StencilDesk.Session.Versions

/-!
# Runs of a session

Everything that can be asked of a session, and the session after any number of requests, whatever
the store answers to them. A property that every request preserves holds after every run.
-/

namespace StencilDesk
namespace Session

variable {σ : Type}

inductive Operation where
  | expect (expected : List String)
  | openFile (path : String)
  | activate (path : String)
  | edit (path content : String)
  | close (path : String) (confirmed : Bool)
  | createFile (parent name : String)
  | createFolder (parent name : String)
  | moveFile (path new : String)
  | deleteFile (path : String)
  | install (files : List File)
  | save (author : String) (message : Option String)
  | restore (serial : Serial)
  | setVersions (versions : List Snapshot)

def afterResult (s : Session) : Except SessionFault Session → Session
  | .ok next => next
  | .error _ => s

def perform (service : StoreService σ) (s : Session) : Operation → StateM σ Session
  | .expect expected => return s.expect expected
  | .openFile path => return s.afterResult (s.openFile path)
  | .activate path => return s.afterResult (s.activate path)
  | .edit path content => return s.afterResult (s.edit path content)
  | .close path confirmed => return (s.close path confirmed).2
  | .createFile parent name => return (s.createFile parent name).2
  | .createFolder parent name =>
      return s.afterResult ((s.createFolder parent name).map Prod.snd)
  | .moveFile path new => return s.afterResult (s.moveFile path new)
  | .deleteFile path => return (s.deleteFile path).2
  | .install files => return (s.install files).2
  | .save author message => return (← s.save service author message).2
  | .restore serial => return (← s.restore service serial).2
  | .setVersions versions => return s.setVersions versions

def run (service : StoreService σ) (s : Session) : List Operation → StateM σ Session
  | [] => return s
  | operation :: rest => do
      let s ← s.perform service operation
      s.run service rest

/-- A session begins on files that were not saved before, or on a version that was loaded. -/
inductive Begins (P : List File → Prop) : Session → Prop where
  | start (id : String) {files : List File} (h : P files) : Begins P (start id files)
  | loaded {version : LoadedStencil} (h : P version.files) : Begins P (ofLoaded version)

def Operation.Installs (service : StoreService σ) (id : String) (P : List File → Prop) :
    Operation → Prop
  | .install files => P files
  | .restore serial =>
      ∀ store version, (service.snapshot id serial store).1 = .ok version → P version.files
  | _ => True

/-!
## What the operations on versions do
-/

theorem save_cases (service : StoreService σ) (s : Session) (author : String)
    (message : Option String) (store : σ) :
    (s.save service author message store).1.2 = s ∨
      ∃ serial versions,
        (s.save service author message store).1.2 = (s.saved serial).setVersions versions := by
  rcases hsave : service.save (s.saveRequest author message) store with ⟨answer, after⟩
  cases answer with
  | error fault =>
      rw [save_of_error hsave]
      exact .inl rfl
  | ok answer =>
      cases haccepted : answer.success with
      | false =>
          rw [save_of_refused hsave haccepted]
          exact .inl rfl
      | true =>
          rcases hlisted : service.history s.stencilId after with ⟨listing, last⟩
          cases listing with
          | ok versions =>
              rw [save_of_listed hsave haccepted hlisted]
              exact .inr ⟨answer.serial, versions, rfl⟩
          | error fault =>
              rw [save_of_unlisted hsave haccepted hlisted]
              exact .inr ⟨answer.serial, _, rfl⟩

/-- A restore either leaves the session as it was, or installs the files of the version. -/
theorem restore_cases (service : StoreService σ) (s : Session) (serial : Serial) (store : σ) :
    (s.restore service serial store).1.2 = s ∨
      ∃ version, (service.snapshot s.stencilId serial store).1 = .ok version ∧
        (s.restore service serial store).1.2 = (s.install version.files).2 := by
  rcases hanswer : service.snapshot s.stencilId serial store with ⟨answer, after⟩
  cases answer with
  | error fault =>
      rw [restore_of_error hanswer]
      exact .inl rfl
  | ok version =>
      rw [restore_of_ok hanswer]
      exact .inr ⟨version, rfl, rfl⟩

/-!
## Runs
-/

theorem run_cons (service : StoreService σ) (s : Session) (operation : Operation)
    (rest : List Operation) (store : σ) :
    s.run service (operation :: rest) store =
      (s.perform service operation store).1.run service rest
        (s.perform service operation store).2 := rfl

theorem run_append (service : StoreService σ) (s : Session) (before after : List Operation)
    (store : σ) :
    s.run service (before ++ after) store =
      (s.run service before store).1.run service after (s.run service before store).2 := by
  induction before generalizing s store with
  | nil => rfl
  | cons operation rest ih =>
      rw [List.cons_append, run_cons, run_cons]
      exact ih _ _

theorem run_concat (service : StoreService σ) (s : Session) (before : List Operation)
    (operation : Operation) (store : σ) :
    s.run service (before ++ [operation]) store =
      (s.run service before store).1.perform service operation
        (s.run service before store).2 := by
  rw [run_append]
  rfl

/-- What every operation of a run preserves holds after the run. -/
theorem run_preserves {service : StoreService σ} {P : Session → Prop}
    {operations : List Operation} {s : Session} (store : σ)
    (hstep : ∀ s operation store, operation ∈ operations → P s →
      P (s.perform service operation store).1)
    (h : P s) : P (s.run service operations store).1 := by
  induction operations generalizing s store with
  | nil => exact h
  | cons operation rest ih =>
      rw [run_cons]
      apply ih
      · intro s operation store hmem hs
        exact hstep s operation store (List.mem_cons_of_mem _ hmem) hs
      · exact hstep s operation store List.mem_cons_self h

end Session
end StencilDesk
