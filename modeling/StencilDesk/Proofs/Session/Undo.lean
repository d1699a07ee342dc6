import StencilDesk.Proofs.Bundle.Diff
import StencilDesk.Proofs.History.Archive
import StencilDesk.Proofs.Session.Baseline
import StencilDesk.Proofs.Session.Restore

/-!
# Going back to any version, and saving it anew

A session can go back to every version that was saved of its stencil. What it saves then is that
version again, under a new serial.
-/

namespace StencilDesk
namespace DirectoryStore

structure FilledBy (store : DirectoryStore) (empty : Directory) (calls : List Store.SaveCall) :
    Prop where
  vacant : Store.Vacant store.root empty
  possible : ∀ call ∈ calls, call.now.Possible
  directory_eq : store.directory = (Store.saveAll store.root empty calls).1
  failing_eq : store.failing = []

/-- Holds of a store that shows the same files under two serials, and no change between them. -/
structure SameVersions (store : DirectoryStore) (id : String) (old new : Serial)
    (files : List File) : Prop where
  showsOld : ∃ version, service.snapshot id old store = (.ok version, store) ∧
    version.files = files
  showsNew : ∃ version, service.snapshot id new store = (.ok version, store) ∧
    version.files = files
  unchanged : ∃ diff, compareVersions service id old new store = (.ok diff, store) ∧
    diff.FindsNoChange files

section
variable {store : DirectoryStore} {id : String} {versions : List Snapshot}

theorem service_snapshot (hfailing : store.failing = []) (id : String) (serial : Serial) :
    service.snapshot id serial store =
      (Store.snapshot store.directory store.root id serial, store) := by
  show (store.answer .snapshot _, store) = _
  unfold answer
  rw [hfailing]
  rfl

theorem service_save (hfailing : store.failing = []) (request : SaveRequest) :
    service.save request store =
      ((Store.save store.root request store.now store.directory).2,
        { store with
          lastRequest := some request
          directory := (Store.save store.root request store.now store.directory).1 }) := by
  show DirectoryStore.save store request = _
  unfold DirectoryStore.save
  rw [hfailing]
  rfl

theorem FilledBy.archives {empty : Directory} {calls : List Store.SaveCall}
    (h : store.FilledBy empty calls) (id : String) :
    Store.Archives store.root id store.directory
      (Store.savedVersions id (Store.saveAll store.root empty calls).2) := by
  have hall := Store.archives_saveAll h.vacant.archives h.possible id
  rw [List.nil_append] at hall
  rw [h.directory_eq]
  exact hall

theorem exists_snapshot (hfailing : store.failing = [])
    (h : Store.Archives store.root id store.directory versions) {version : Snapshot}
    (hmem : version ∈ versions) :
    ∃ shown, service.snapshot id version.serial store = (.ok shown, store) ∧
      shown.files = version.files := by
  rcases h.snapshot hmem with ⟨isActive, hread⟩
  rw [service_snapshot hfailing, hread]
  exact ⟨_, rfl, rfl⟩

theorem sameVersions_of_archives (hfailing : store.failing = [])
    (h : Store.Archives store.root id store.directory versions) {old new : Snapshot}
    (hold : old ∈ versions) (hnew : new ∈ versions) (hsame : new.files = old.files) :
    store.SameVersions id old.serial new.serial old.files := by
  rcases exists_snapshot hfailing h hold with ⟨shownOld, hshownOld, hfilesOld⟩
  rcases exists_snapshot hfailing h hnew with ⟨shownNew, hshownNew, hfilesNew⟩
  rw [hsame] at hfilesNew
  have hcompare : compareVersions service id old.serial new.serial store =
      (.ok (BundleDiff.compare shownOld.files shownNew.files), store) := by
    unfold compareVersions
    simp only [bind, StateT.bind, hshownOld, hshownNew]
    rfl
  rw [hfilesOld, hfilesNew] at hcompare
  have hpaths := Bundle.wellFormed_of_accept (h.accepted old hold)
  exact ⟨⟨shownOld, hshownOld, hfilesOld⟩, ⟨shownNew, hshownNew, hfilesNew⟩, _, hcompare,
    BundleDiff.findsNoChange_compare_self hpaths⟩

end

end DirectoryStore

namespace Session

variable {σ : Type}

theorem exists_save_inDirectory {s : Session} {author : String} {message : Option String}
    {store saved : DirectoryStore} {answer : SaveAnswer}
    (hsave : DirectoryStore.service.save (s.saveRequest author message) store =
      (.ok answer, saved)) (haccepted : answer.success = true) :
    ∃ last, s.save DirectoryStore.service author message store = ((.ok answer, last), saved) := by
  have hhistory : DirectoryStore.service.history s.stencilId saved =
      (saved.history s.stencilId, saved) := rfl
  cases hlisted : saved.history s.stencilId with
  | ok versions =>
      rw [hlisted] at hhistory
      exact ⟨_, save_of_listed hsave haccepted hhistory⟩
  | error fault =>
      rw [hlisted] at hhistory
      exact ⟨_, save_of_unlisted hsave haccepted hhistory⟩

/-- After a save that succeeds, the store is as its own answer to the save has left it. -/
theorem save_inDirectory {s last : Session} {author : String} {message : Option String}
    {store after saved : DirectoryStore} {answer : SaveAnswer}
    {reply : Except StoreFault SaveAnswer}
    (hsave : DirectoryStore.service.save (s.saveRequest author message) store = (reply, saved))
    (h : s.save DirectoryStore.service author message store = ((.ok answer, last), after)) :
    reply = .ok answer ∧ after = saved := by
  cases reply with
  | error fault =>
      rw [save_of_error hsave] at h
      cases h
  | ok given =>
      cases haccepted : given.success with
      | false =>
          rw [save_of_refused hsave haccepted] at h
          cases h
      | true =>
          rcases exists_save_inDirectory hsave haccepted with ⟨_, hdone⟩
          rw [hdone] at h
          cases h
          exact ⟨rfl, rfl⟩

/-- A session with the files of a version saves them as another version, which is the same. -/
theorem sameVersions_of_save {s last : Session} {author : String} {message : Option String}
    {store after : DirectoryStore} {answer : SaveAnswer} {versions : List Snapshot}
    (hfailing : store.failing = []) (hnow : store.now.Possible)
    (harchives : Store.Archives store.root s.stencilId store.directory versions)
    {version : Snapshot} (hversion : version ∈ versions) (hfiles : s.files = version.files)
    (h : s.save DirectoryStore.service author message store = ((.ok answer, last), after)) :
    after.SameVersions s.stencilId version.serial answer.serial version.files := by
  have hsave := DirectoryStore.service_save hfailing (s.saveRequest author message)
  rcases save_inDirectory hsave h with ⟨hanswer, hafter⟩
  rw [hafter]
  have hrequest : Store.Archives store.root (s.saveRequest author message).stencilId
      store.directory versions := harchives
  rcases hrequest.save hnow with ⟨fault, hfailed, _⟩ | ⟨serial, hsaved, hgrown⟩
  · rw [hanswer] at hfailed
    cases hfailed
  · rw [hanswer, Except.ok.injEq] at hsaved
    rw [hsaved]
    have hold := List.mem_append_left
      [Store.requestedVersion (s.saveRequest author message) store.now serial] hversion
    have hnew := List.mem_append_right versions
      (List.mem_singleton_self
        (Store.requestedVersion (s.saveRequest author message) store.now serial))
    refine DirectoryStore.sameVersions_of_archives ?_ ?_ hold hnew hfiles
    · exact hfailing
    · exact hgrown

/-!
## After any run
-/

/-- A session can go back to every version that was saved of its stencil. Nothing but its files,
its tabs and what is seen of them changes. If it is saved then, the version is there twice. -/
theorem restored_run {service : StoreService σ} {begun : Session}
    (hbegins : begun.Begins fun _ => True) (operations : List Operation) (state : σ)
    {store : DirectoryStore} {empty : Directory} {calls : List Store.SaveCall}
    (hstore : store.FilledBy empty calls) {version : Snapshot}
    (hversion : version ∈ Store.savedVersions (begun.run service operations state).1.stencilId
      (Store.saveAll store.root empty calls).2)
    (hcollision : ∀ content config,
      BundleDiff.lastContent? (begun.savedFiles service begun.files state operations)
        File.mainConfigPath = some content →
      File.find? version.files File.mainConfigPath = some config →
      Checksum.ofText content = Checksum.ofText config.content → content = config.content) :
    ∃ report next,
      (begun.run service operations state).1.restore DirectoryStore.service version.serial store =
        ((.ok report, next), store) ∧
      report.serial = version.serial ∧
      (begun.run service operations state).1.Restored
        (begun.savedFiles service begun.files state operations) version.files report next ∧
      ∀ author message now answer last after, now.Possible →
        next.save DirectoryStore.service author message { store with now } =
          ((.ok answer, last), after) →
        after.SameVersions next.stencilId version.serial answer.serial version.files := by
  have harchives := hstore.archives (begun.run service operations state).1.stencilId
  rcases DirectoryStore.exists_snapshot hstore.failing_eq harchives hversion with
    ⟨shown, hshown, hfiles⟩
  rcases File.exists_of_existsAt
    (Store.existsAt_of_accept (harchives.accepted version hversion)) with ⟨config, hconfig⟩
  have hbaseline : (begun.run service operations state).1.baseline.get? File.mainConfigPath =
      (BundleDiff.lastContent? (begun.savedFiles service begun.files state operations)
        File.mainConfigPath).map Checksum.ofText :=
    get?_baseline_run hbegins operations state File.mainConfigPath
  rw [← hfiles] at hconfig
  rcases restored_of_snapshot hshown hconfig hbaseline
      (fun content hcontent => hcollision content config hcontent (hfiles ▸ hconfig)) with
    ⟨report, next, hrestore, hserial, hrestored⟩
  rw [hfiles] at hrestored
  refine ⟨report, next, hrestore, hserial, hrestored, ?_⟩
  intro author message now answer last after hnow hsave
  -- The session still belongs to the stencil, so that its save adds to the same archive.
  rw [← hrestored.stencilId_eq] at harchives hversion
  refine sameVersions_of_save ?_ ?_ ?_ hversion hrestored.files_eq hsave
  · exact hstore.failing_eq
  · exact hnow
  · exact harchives

def pageFiles : List File :=
  [File.ofPath "/stencil.yml" "a:", File.ofPath "/t/page.ftl" "one"]

def noteFiles : List File :=
  [File.ofPath "/stencil.yml" "b:", File.ofPath "/note.txt" "two"]

def pageCalls : List Store.SaveCall :=
  [⟨⟨"demo", none, pageFiles, "ann", none⟩, ⟨⟨2025, 9, 13⟩, 10, 0, 0, 0, 0⟩⟩,
    ⟨⟨"other", none, noteFiles, "ann", none⟩, ⟨⟨10000, 1, 1⟩, 0, 0, 0, 0, 0⟩⟩]

def pageStore : DirectoryStore :=
  { directory := (Store.saveAll ["stencils"] {} pageCalls).1
    root := ["stencils"]
    now := ⟨⟨2025, 9, 14⟩, 9, 0, 0, 0, 0⟩ }

theorem filledBy_pageStore : pageStore.FilledBy {} pageCalls := by
  refine ⟨Store.vacant_empty _, ?_, rfl, rfl⟩
  intro call hmem
  unfold pageCalls at hmem
  simp only [List.mem_cons, List.not_mem_nil, or_false] at hmem
  rcases hmem with rfl | rfl
  · exact ⟨by decide, by decide, by decide, by decide, by decide⟩
  · exact ⟨by decide, by decide, by decide, by decide, by decide⟩

def noteOperations : List Operation :=
  [.openFile "/note.txt", .edit "/note.txt" "three"]

theorem restored_run_pages :
    ∃ report next answer last after,
      ((start "demo" noteFiles).run DirectoryStore.service noteOperations pageStore).1.restore
        DirectoryStore.service ⟨"250913A", rfl⟩ pageStore = ((.ok report, next), pageStore) ∧
      report.replacement.closed = ["/note.txt"] ∧ next.files = pageFiles ∧
      next.save DirectoryStore.service "ben" none pageStore = ((.ok answer, last), after) ∧
      after.SameVersions "demo" ⟨"250913A", rfl⟩ answer.serial pageFiles := by
  have hversion : Snapshot.mk ⟨"250913A", rfl⟩ ⟨⟨2025, 9, 13⟩, 10, 0, 0, 0, 0⟩ "ann" true none
      pageFiles ∈ Store.savedVersions
        ((start "demo" noteFiles).run DirectoryStore.service noteOperations pageStore).1.stencilId
        (Store.saveAll pageStore.root {} pageCalls).2 := by decide +kernel
  have hsaved : BundleDiff.lastContent? ((start "demo" noteFiles).savedFiles
      DirectoryStore.service (start "demo" noteFiles).files pageStore noteOperations)
      File.mainConfigPath = some "b:" := by decide +kernel
  have hconfig : File.find? pageFiles File.mainConfigPath =
      some (File.ofPath "/stencil.yml" "a:") := by decide +kernel
  have hsums : Checksum.ofText "b:" ≠ Checksum.ofText "a:" := by decide +kernel
  have hcollision : ∀ content config,
      BundleDiff.lastContent? ((start "demo" noteFiles).savedFiles DirectoryStore.service
        (start "demo" noteFiles).files pageStore noteOperations) File.mainConfigPath =
        some content →
      File.find? pageFiles File.mainConfigPath = some config →
      Checksum.ofText content = Checksum.ofText config.content → content = config.content := by
    intro content config hcontent hfound hsum
    rw [hsaved, Option.some.injEq] at hcontent
    rw [hconfig, Option.some.injEq] at hfound
    rw [← hcontent, ← hfound] at hsum
    exact absurd hsum hsums
  rcases restored_run (Begins.start "demo" trivial) noteOperations pageStore filledBy_pageStore
      hversion hcollision with ⟨report, next, hrestore, _, hrestored, hsaves⟩
  have hid : next.stencilId = "demo" := hrestored.stencilId_eq.trans (by decide +kernel)
  have hserial : next.serial = none := hrestored.serial_eq.trans (by decide +kernel)
  have hfiles : next.files = pageFiles := hrestored.files_eq
  have hrequest : next.saveRequest "ben" none = ⟨"demo", none, pageFiles, "ben", none⟩ := by
    unfold saveRequest
    rw [hid, hserial, hfiles]
  have haccepted : (Store.save pageStore.root ⟨"demo", none, pageFiles, "ben", none⟩ pageStore.now
      pageStore.directory).2.toOption = some ⟨⟨"250914A", rfl⟩, true⟩ := by decide +kernel
  have hsave := DirectoryStore.service_save filledBy_pageStore.failing_eq
    (next.saveRequest "ben" none)
  rw [hrequest] at hsave
  cases hanswer : (Store.save pageStore.root ⟨"demo", none, pageFiles, "ben", none⟩
      pageStore.now pageStore.directory).2 with
  | error fault =>
      rw [hanswer] at haccepted
      cases haccepted
  | ok answer =>
      rw [hanswer] at haccepted hsave
      cases haccepted
      rw [← hrequest] at hsave
      rcases exists_save_inDirectory hsave rfl with ⟨last, hdone⟩
      have hnow : pageStore.now.Possible :=
        ⟨by decide, by decide, by decide, by decide, by decide⟩
      have hsame := hsaves "ben" none pageStore.now _ last _ hnow hdone
      rw [hid] at hsame
      refine ⟨report, next, _, last, _, hrestore, ?_, hfiles, hdone, hsame⟩
      rw [hrestored.closed_eq]
      decide +kernel

end Session
end StencilDesk
