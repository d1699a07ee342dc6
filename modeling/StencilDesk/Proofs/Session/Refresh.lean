import StencilDesk.Proofs.History.Addition
import StencilDesk.Proofs.History.Chronology
import StencilDesk.Proofs.Session.Undo

/-!
# Listing the versions without the store

After a save, a session asks the store for the versions. If the store does not answer, the session
puts the new version before those that it knows. If these are what the store listed before, and the
new serial is the latest, this is what the store would have answered, but for the time of the new
version: the session reads its own clock.
-/

namespace StencilDesk

/-- Holds of a service that saves into a directory and lists what is there, if it answers at all.
Its clock need not be that of the directory. -/
structure StoreService.InDirectory (service : StoreService DirectoryStore) : Prop where
  save : service.save = DirectoryStore.service.save
  history : ∀ id store versions, (service.history id store).1 = .ok versions →
    Store.history store.directory store.root id = .ok versions

theorem DirectoryStore.inDirectory_service : service.InDirectory where
  save := rfl
  history := by
    intro id store versions h
    replace h : store.history id = .ok versions := h
    unfold DirectoryStore.history answer at h
    split at h
    · cases h
    · exact h

theorem DirectoryStore.save_of_success {store after : DirectoryStore} {request : SaveRequest}
    {answer : SaveAnswer} (h : store.save request = (.ok answer, after))
    (hsuccess : answer.success = true) :
    after.root = store.root ∧
      Store.save store.root request store.now store.directory = (after.directory, .ok answer) := by
  unfold DirectoryStore.save at h
  dsimp only at h
  split at h
  · cases h
  · split at h
    · cases h
      cases hsuccess
    · rw [Prod.mk.injEq] at h
      rw [← h.1, ← h.2]
      exact ⟨rfl, rfl⟩

/-- Holds of listings that agree in all but the time of their first version, which has the given
serial. -/
def AgreeButTime (serial : Serial) (told own : List Snapshot) : Prop :=
  ∃ newest rest time, newest.serial = serial ∧ told = newest :: rest ∧
    own = { newest with createdAt := time } :: rest

namespace Session

def IsAtActive (s : Session) : Prop :=
  ∃ version, s.versions.filter Snapshot.isActive = [version] ∧ s.serial = some version.serial

section
variable {service : StoreService DirectoryStore} {store after last : DirectoryStore}
  {s next : Session} {author : String} {message : Option String} {answer : SaveAnswer}

/-- What a save that was accepted asked the store, and what it made of the answers. -/
theorem exists_answers_of_save
    (h : s.save service author message store = ((.ok answer, next), last)) :
    ∃ after, service.save (s.saveRequest author message) store = (.ok answer, after) ∧
      answer.success = true ∧ next.serial = some answer.serial ∧
      (∀ versions, (service.history s.stencilId after).1 = .ok versions →
        next.versions = versions) ∧
      ∀ fault, (service.history s.stencilId after).1 = .error fault →
        ∃ time, next.versions = s.versionsWith answer.serial author message time := by
  cases hsave : service.save (s.saveRequest author message) store with
  | mk reply after =>
      cases reply with
      | error fault =>
          rw [save_of_error hsave] at h
          cases h
      | ok given =>
          cases haccepted : given.success with
          | false =>
              rw [save_of_refused hsave haccepted] at h
              cases h
          | true =>
              cases hlisted : service.history s.stencilId after with
              | mk listed final =>
                  cases listed with
                  | ok versions =>
                      rw [save_of_listed hsave haccepted hlisted] at h
                      cases h
                      refine ⟨after, rfl, haccepted, rfl, ?_, ?_⟩
                      · rw [hlisted]
                        intro others hsame
                        exact Except.ok.inj hsame
                      · rw [hlisted]
                        intro fault hfailed
                        cases hfailed
                  | error fault =>
                      rw [save_of_unlisted hsave haccepted hlisted] at h
                      cases h
                      refine ⟨after, rfl, haccepted, rfl, ?_, ?_⟩
                      · rw [hlisted]
                        intro versions hsame
                        cases hsame
                      · intro _ _
                        exact ⟨_, rfl⟩

theorem isAtActive_of_versions {version : Snapshot} {others : List Snapshot}
    (hversions : s.versions = version :: others.map Store.retired)
    (hactive : version.isActive = true) (hserial : s.serial = some version.serial) :
    s.IsAtActive := by
  have hretired : (others.map Store.retired).filter Snapshot.isActive = [] := by
    rw [List.filter_eq_nil_iff]
    intro other hmem
    rcases List.mem_map.mp hmem with ⟨_, _, rfl⟩
    exact Bool.false_ne_true
  refine ⟨version, ?_, hserial⟩
  rw [hversions, List.filter_cons_of_pos hactive, hretired]

/-- Whether or not the store lists the versions after a save, the session lists what the store has,
but for the time of the new version. -/
theorem versions_agree_of_save (hservice : service.InDirectory) (htime : store.now.Possible)
    (hlisted : Store.history store.directory store.root s.stencilId = .ok s.versions)
    (hsaved : s.save service author message store = ((.ok answer, next), last))
    (hlatest : ∀ version ∈ s.versions, version.serial.text < answer.serial.text) :
    ∃ after told, service.save (s.saveRequest author message) store = (.ok answer, after) ∧
      Store.history after.directory after.root s.stencilId = .ok told ∧
      (∀ fault, (service.history s.stencilId after).1 = .error fault →
        AgreeButTime answer.serial told next.versions) ∧
      (∀ versions, (service.history s.stencilId after).1 = .ok versions →
        next.versions = told) ∧
      next.IsAtActive := by
  rcases exists_answers_of_save hsaved with
    ⟨after, hsave, hsuccess, hserial, hanswered, hunanswered⟩
  have hdirectory : store.save (s.saveRequest author message) = (.ok answer, after) := by
    rw [← hsave, hservice.save]
    rfl
  rcases DirectoryStore.save_of_success hdirectory hsuccess with ⟨hroot, hmade⟩
  replace hlisted : Store.history store.directory store.root
      (s.saveRequest author message).stencilId = .ok s.versions := hlisted
  have htold := Store.history_save hlisted htime hmade hlatest
  rw [← hroot] at htold
  have hagree : ∀ versions, (service.history s.stencilId after).1 = .ok versions →
      next.versions = Store.requestedVersion (s.saveRequest author message) store.now
        answer.serial :: s.versions.map Store.retired := by
    intro versions hok
    rw [hanswered versions hok]
    exact Except.ok.inj ((hservice.history _ _ _ hok).symm.trans htold)
  refine ⟨after, _, hsave, htold, ?_, hagree, ?_⟩
  · intro fault hfailed
    rcases hunanswered fault hfailed with ⟨time, hversions⟩
    exact ⟨_, _, time, rfl, rfl, hversions⟩
  · cases hreply : (service.history s.stencilId after).1 with
    | ok versions => exact isAtActive_of_versions (hagree versions hreply) rfl hserial
    | error fault =>
        rcases hunanswered fault hreply with ⟨time, hversions⟩
        exact isAtActive_of_versions hversions rfl hserial

end

def silentService : StoreService DirectoryStore :=
  { DirectoryStore.service with
    history := fun _ store => (.error .access, store)
    now := fun store => (⟨⟨2024, 2, 29⟩, 0, 0, 0, 0, 0⟩, store) }

theorem inDirectory_silentService : silentService.InDirectory where
  save := rfl
  history := by
    intro id store versions h
    cases h

def firstVersion : Snapshot :=
  ⟨⟨"240229A", rfl⟩, ⟨⟨2024, 2, 29⟩, 10, 0, 0, 0, 0⟩, "ann", true, none, pageFiles⟩

def firstCalls : List Store.SaveCall :=
  [⟨⟨"demo", none, pageFiles, "ann", none⟩, ⟨⟨2024, 2, 29⟩, 10, 0, 0, 0, 0⟩⟩]

def firstStore : DirectoryStore :=
  { directory := (Store.saveAll ["stencils"] {} firstCalls).1
    root := ["stencils"]
    now := ⟨⟨2024, 3, 1⟩, 9, 0, 0, 0, 0⟩ }

theorem history_firstStore :
    Store.history firstStore.directory firstStore.root "demo" = .ok [firstVersion] := by
  have hvacant := Store.vacant_empty ["stencils"]
  have hcalls : Store.Forward "demo" 20 firstCalls := by
    unfold firstCalls
    refine ⟨by decide, ?_, by decide, by decide⟩
    rw [List.forall_mem_singleton]
    exact ⟨by decide, by decide, by decide, by decide, by decide, by decide⟩
  have hchronicle := Store.chronicle_saveAll hvacant.clear (hvacant.keeps "demo") hcalls
  have hsaved : Store.savedVersions "demo" (Store.saveAll ["stencils"] {} firstCalls).2 =
      [] ++ [firstVersion] := by decide +kernel
  rw [hsaved] at hchronicle
  exact hchronicle.history

def noteSession : Session :=
  { start "demo" noteFiles with versions := [firstVersion] }

theorem versions_agree_of_save_second :
    ∃ (after : DirectoryStore) (told : List Snapshot) (next : Session) (last : DirectoryStore),
      noteSession.save silentService "ben" none firstStore =
        ((.ok ⟨⟨"240301A", rfl⟩, true⟩, next), last) ∧
      Store.history after.directory after.root "demo" = .ok told ∧
      AgreeButTime ⟨"240301A", rfl⟩ told next.versions ∧ next.IsAtActive := by
  have hlisted : Store.history firstStore.directory firstStore.root noteSession.stencilId =
      .ok noteSession.versions := history_firstStore
  have hlatest : ∀ version ∈ noteSession.versions, version.serial.text < "240301A" := by decide
  have haccepted : (Store.save firstStore.root (noteSession.saveRequest "ben" none)
      firstStore.now firstStore.directory).2 = .ok ⟨⟨"240301A", rfl⟩, true⟩ := by decide +kernel
  have hnow : firstStore.now.Possible :=
    ⟨by decide, by decide, by decide, by decide, by decide⟩
  obtain ⟨after, hsave⟩ : ∃ after, silentService.save (noteSession.saveRequest "ben" none)
      firstStore = (.ok ⟨⟨"240301A", rfl⟩, true⟩, after) := by
    rw [inDirectory_silentService.save, DirectoryStore.service_save rfl, haccepted]
    exact ⟨_, rfl⟩
  have hunlisted : silentService.history noteSession.stencilId after = (.error .access, after) :=
    rfl
  have hdone := save_of_unlisted hsave rfl hunlisted
  rcases versions_agree_of_save inDirectory_silentService hnow hlisted hdone hlatest with
    ⟨middle, told, _, htold, hagree, _, hactive⟩
  exact ⟨middle, told, _, _, hdone, htold, hagree .access rfl, hactive⟩

end Session
end StencilDesk
