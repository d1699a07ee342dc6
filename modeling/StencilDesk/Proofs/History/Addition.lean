import StencilDesk.Proofs.FindingOrder
import StencilDesk.Proofs.History.Archive
import StencilDesk.Proofs.History.Reading

/-!
# The listing after a save

A save adds one file to the folder of versions, and names its serial as the active one. What the
store lists then is what it listed before, with all versions retired, behind the new one if its
serial is the latest. The folder may hold any files: versions need not be stored under their own
serials, nor under different ones.
-/

namespace StencilDesk

theorem exists_mergeSort_middle {α : Type} [DecidableEq α] {le : α → α → Bool}
    (htrans : ∀ a b c, le a b = true → le b c = true → le a c = true)
    (htotal : ∀ a b, (le a b || le b a) = true) {before after : List α} {a : α}
    (h : a ∉ before ++ after) :
    ∃ front back, (before ++ a :: after).mergeSort le = front ++ a :: back ∧
      (before ++ after).mergeSort le = front ++ back := by
  have hmem : a ∈ (before ++ a :: after).mergeSort le := by
    rw [List.mem_mergeSort]
    exact List.mem_append_right _ List.mem_cons_self
  rcases List.append_of_mem hmem with ⟨front, back, hsplit⟩
  have hperm : (front ++ back).Perm (before ++ after) := by
    have hsorted := List.mergeSort_perm (before ++ a :: after) le
    rw [hsplit] at hsorted
    exact (List.perm_middle.symm.trans (hsorted.trans List.perm_middle)).cons_inv
  have hothers : ∀ list : List α, a ∉ list → list.filter (· != a) = list := by
    intro list hnot
    apply List.filter_eq_self.mpr
    intro other hother
    exact bne_iff_ne.mpr fun hsame => hnot (hsame ▸ hother)
  have hmiddle : ∀ first last : List α,
      (first ++ a :: last).filter (· != a) = (first ++ last).filter (· != a) := by
    intro first last
    rw [List.filter_append, List.filter_append, List.filter_cons_of_neg (by simp)]
  have hrest := filter_mergeSort htrans htotal (· != a) (before ++ a :: after)
  rw [hsplit, hmiddle, hmiddle, hothers _ h, hothers _ (mt hperm.mem_iff.mp h)] at hrest
  exact ⟨front, back, hsplit, hrest.symm⟩

namespace Store

open Directory

section
variable {root folder location : Location} {id name : String} {directory prepared after : Directory}
  {serial : Serial} {text : String} {versions : List Snapshot}

/-!
## The names in a folder
-/

theorem set_set (directory : Directory) (location : Location) (item other : DirectoryItem) :
    (directory.set location item).set location other = directory.set location other := by
  unfold Directory.set
  simp

theorem names_set_of_free (item : DirectoryItem)
    (h : directory.item? (folder ++ [name]) = none) :
    (directory.set (folder ++ [name]) item).names folder = directory.names folder ++ [name] := by
  have hitems : directory.items.filter (fun entry => entry.1 != folder ++ [name]) =
      directory.items := by
    rw [item?_of_ne_nil _ (by simp), Option.map_eq_none_iff, List.find?_eq_none] at h
    apply List.filter_eq_self.mpr
    intro entry hmem
    simpa using h entry hmem
  have hchild : childName? folder (folder ++ [name]) = some name := childName?_eq_some_iff.mpr rfl
  unfold Directory.names Directory.set
  simp only [hitems, List.filterMap_append, List.filterMap_cons, List.filterMap_nil, hchild]

theorem versionsFolder_append_ne_activeFile (folder : Location) (name : String) :
    versionsFolder folder ++ [name] ≠ activeFile folder := by
  unfold versionsFolder activeFile
  intro hsame
  have hlength := congrArg List.length hsame
  simp at hlength

theorem names_published (text : String)
    (hfree : prepared.item? (versionFile folder serial) = none) :
    (published prepared folder serial text).names (versionsFolder folder) =
      prepared.names (versionsFolder folder) ++ [versionName serial] := by
  have hactive : childName? (versionsFolder folder) (activeFile folder) = none := by
    cases hchild : childName? (versionsFolder folder) (activeFile folder) with
    | none => rfl
    | some name =>
        exact absurd (childName?_eq_some_iff.mp hchild).symm
          (versionsFolder_append_ne_activeFile folder name)
  unfold published
  rw [names_set_of_childName? _ _ hactive, set_set]
  exact names_set_of_free _ hfree

theorem serials_published (text : String)
    (hfree : prepared.item? (versionFile folder serial) = none) :
    ∃ before after, serials (published prepared folder serial text) folder =
        before ++ serial :: after ∧ serials prepared folder = before ++ after := by
  have hfiles : (prepared.names (versionsFolder folder)).filter (fun name =>
        (published prepared folder serial text).isFile (versionsFolder folder ++ [name])) =
      (prepared.names (versionsFolder folder)).filter (fun name =>
        prepared.isFile (versionsFolder folder ++ [name])) := by
    apply List.filter_congr
    intro name hmem
    apply isFile_congr
    apply item?_published_other text _ (versionsFolder_append_ne_activeFile folder name)
    intro hsame
    rw [mem_names_iff, hsame] at hmem
    exact hmem hfree
  have hnew : (published prepared folder serial text).isFile
      (versionsFolder folder ++ [versionName serial]) = true :=
    isFile_of_item? (item?_published_version folder serial text)
  have hname : serialOfName? (versionName serial) = some serial :=
    serialOfName?_eq_some_iff.mpr rfl
  have hnot : serial ∉ serials prepared folder := by
    rw [mem_serials_iff]
    intro hfile
    exact item?_ne_none_of_isFile hfile hfree
  unfold serials Serial.sorted at hnot ⊢
  rw [List.mem_mergeSort] at hnot
  simp only [names_published text hfree, List.filter_append, hfiles, List.filter_cons, hnew,
    if_true, List.filter_nil, List.filterMap_append, List.filterMap_cons, hname,
    List.filterMap_nil]
  rw [← List.append_nil (List.filterMap _ _)] at hnot
  rcases exists_mergeSort_middle Serial.le_trans Serial.le_total hnot with
    ⟨before, after, hsplit, hrest⟩
  rw [List.append_nil] at hrest
  exact ⟨before, after, hsplit, hrest⟩

/-!
## Reading the versions
-/

theorem mapM_of_answers {α β γ : Type} {f : α → Except StoreFault β} {g : α → Except StoreFault γ}
    {change : β → γ} {list : List α} {results : List β}
    (h : ∀ a ∈ list, ∀ b, f a = .ok b → g a = .ok (change b)) (hread : list.mapM f = .ok results) :
    list.mapM g = .ok (results.map change) := by
  induction list generalizing results with
  | nil =>
      cases hread
      rfl
  | cons a rest ih =>
      rw [List.mapM_cons] at hread ⊢
      rcases Bundle.bind_eq_ok hread with ⟨b, hfirst, hread⟩
      rcases Bundle.bind_eq_ok hread with ⟨others, hothers, hread⟩
      cases hread
      rw [h a List.mem_cons_self b hfirst]
      simp only [bind, Except.bind,
        ih (fun other hmem => h other (List.mem_cons_of_mem a hmem)) hothers]
      rfl

theorem mapM_append_eq_ok {α β : Type} {f : α → Except StoreFault β} {before after : List α}
    {results : List β} :
    (before ++ after).mapM f = .ok results ↔ ∃ first last, before.mapM f = .ok first ∧
      after.mapM f = .ok last ∧ results = first ++ last := by
  rw [List.mapM_append]
  constructor
  · intro h
    rcases Bundle.bind_eq_ok h with ⟨first, hfirst, h⟩
    rcases Bundle.bind_eq_ok h with ⟨last, hlast, h⟩
    cases h
    exact ⟨first, last, hfirst, hlast, rfl⟩
  · rintro ⟨first, last, hfirst, hlast, rfl⟩
    simp only [bind, Except.bind, hfirst, hlast]
    rfl

/-- A version that was there before is read as it was, but is not the active one any more. -/
theorem readVersion_published (text : String) {other : Serial} (h : other ≠ serial)
    {active : Option Serial} {version : Snapshot}
    (hread : readVersion prepared folder active other = .ok version) :
    readVersion (published prepared folder serial text) folder (some serial) other =
      .ok (retired version) := by
  have hactive : (some serial == some other) = false := by
    rw [beq_eq_false_iff_ne]
    exact fun hsame => h (Option.some.inj hsame).symm
  unfold readVersion at hread ⊢
  rw [item?_published_of_ne text h]
  cases hitem : prepared.item? (versionFile folder other) with
  | none =>
      rw [hitem] at hread
      cases hread
  | some item =>
      rw [hitem] at hread
      cases item with
      | folder => cases hread
      | file content =>
          cases content with
          | bytes _ => cases hread
          | text stored =>
              cases hstored : Snapshot.ofText? stored with
              | none =>
                  simp only [hstored] at hread
                  cases hread
              | some found =>
                  simp only [hstored] at hread
                  cases hread
                  simp only [hstored, hactive]
                  rfl

theorem listedBefore_trans (a b c : Snapshot) (hab : listedBefore a b = true)
    (hbc : listedBefore b c = true) : listedBefore a c = true :=
  Serial.le_trans _ _ _ hbc hab

theorem listedBefore_total (a b : Snapshot) : (listedBefore a b || listedBefore b a) = true :=
  Serial.le_total _ _

theorem mergeSort_latest {before after : List Snapshot} {version : Snapshot}
    (h : ∀ other ∈ before ++ after, other.serial.text < version.serial.text) :
    (before ++ version :: after).mergeSort listedBefore =
      version :: (before ++ after).mergeSort listedBefore := by
  have hnot : version ∉ before ++ after := fun hmem => String.lt_irrefl _ (h version hmem)
  rcases exists_mergeSort_middle listedBefore_trans listedBefore_total hnot with
    ⟨front, back, hsplit, hrest⟩
  cases front with
  | nil => rw [hsplit, hrest, List.nil_append, List.nil_append]
  | cons first front =>
      -- What is listed before the new version would have a serial that is no earlier.
      have hsorted := List.pairwise_mergeSort listedBefore_trans listedBefore_total
        (before ++ version :: after)
      rw [hsplit, List.cons_append, List.pairwise_cons] at hsorted
      have hbefore := hsorted.1 version (List.mem_append_right _ List.mem_cons_self)
      have hfirst : first ∈ (before ++ after).mergeSort listedBefore := by
        rw [hrest]
        exact List.mem_cons_self
      unfold listedBefore at hbefore
      rw [Serial.le_iff, ← String.not_lt] at hbefore
      exact absurd (h first (List.mem_mergeSort.mp hfirst)) hbefore

theorem mergeSort_map_retired (versions : List Snapshot) :
    (versions.map retired).mergeSort listedBefore =
      (versions.mergeSort listedBefore).map retired := by
  symm
  apply List.map_mergeSort
  intro a _ b _
  rfl

/-!
## The listing
-/

theorem versionsIn_eq_ok (h : versionsIn directory folder = .ok versions) :
    ∃ active read, Store.active directory folder = .ok active ∧
      (serials directory folder).reverse.mapM (readVersion directory folder active) = .ok read ∧
      versions = read.mergeSort listedBefore := by
  rcases Bundle.bind_eq_ok h with ⟨active, hactive, h⟩
  rcases Bundle.bind_eq_ok h with ⟨read, hread, h⟩
  cases h
  exact ⟨active, read, hactive, hread, rfl⟩

theorem versionsIn_published (hlisted : versionsIn prepared folder = .ok versions)
    (hfree : prepared.item? (versionFile folder serial) = none) {version : Snapshot}
    (hread : Snapshot.ofText? text = some version) (hactive : version.isActive = true)
    (hserial : version.serial = serial)
    (hlatest : ∀ other ∈ versions, other.serial.text < serial.text) :
    versionsIn (published prepared folder serial text) folder =
      .ok (version :: versions.map retired) := by
  rcases versionsIn_eq_ok hlisted with ⟨active, read, _, hfound, rfl⟩
  rcases serials_published text hfree with ⟨before, after, hserials, hsplit⟩
  have hne : ∀ other ∈ before ++ after, other ≠ serial := by
    rintro other hmem rfl
    rw [← hsplit, mem_serials_iff] at hmem
    exact item?_ne_none_of_isFile hmem hfree
  rw [hsplit, List.reverse_append] at hfound
  rcases mapM_append_eq_ok.mp hfound with ⟨later, earlier, hlater, hearlier, rfl⟩
  have hretired : ∀ list : List Serial, (∀ other ∈ list, other ∈ before ++ after) →
      ∀ results, list.mapM (readVersion prepared folder active) = .ok results →
      list.mapM (readVersion (published prepared folder serial text) folder (some serial)) =
        .ok (results.map retired) := by
    intro list hsub results
    apply mapM_of_answers
    intro other hmem found
    exact readVersion_published text (hne other (hsub other hmem))
  have hnew : readVersion (published prepared folder serial text) folder (some serial) serial =
      .ok version := by
    unfold readVersion
    rw [item?_published_version]
    simp only [hread, beq_self_eq_true, ← hactive]
  have hall : (serials (published prepared folder serial text) folder).reverse.mapM
      (readVersion (published prepared folder serial text) folder (some serial)) =
      .ok (later.map retired ++ version :: earlier.map retired) := by
    rw [hserials, List.reverse_append, List.reverse_cons, List.append_assoc]
    refine mapM_append_eq_ok.mpr ⟨later.map retired, version :: earlier.map retired, ?_, ?_, rfl⟩
    · exact hretired _ (fun other hmem => List.mem_append_right _ (List.mem_reverse.mp hmem)) _
        hlater
    · rw [List.singleton_append, List.mapM_cons, hnew]
      simp only [bind, Except.bind, hretired _
        (fun other hmem => List.mem_append_left _ (List.mem_reverse.mp hmem)) _ hearlier]
      rfl
  have hsorted : (later.map retired ++ version :: earlier.map retired).mergeSort listedBefore =
      version :: ((later ++ earlier).mergeSort listedBefore).map retired := by
    rw [mergeSort_latest, ← List.map_append, mergeSort_map_retired]
    intro other hmem
    rw [← List.map_append] at hmem
    rcases List.mem_map.mp hmem with ⟨found, hfound, rfl⟩
    rw [hserial]
    exact hlatest found (List.mem_mergeSort.mpr hfound)
  unfold versionsIn Store.active
  rw [namedActive_of_text (item?_published_active folder serial text)]
  simp only [bind, Except.bind, pure, Except.pure, hall, hsorted]

theorem history_eq_ok (h : history directory root id = .ok versions) :
    Bundle.isStencilId id = true ∧ directory.isFolder (versionsFolder (root ++ [id])) = true ∧
      versionsIn directory (root ++ [id]) = .ok versions := by
  rcases Bundle.bind_eq_ok h with ⟨folder, hexisting, hversions⟩
  rw [existingFolder_eq_ok hexisting] at hversions
  rcases Bundle.bind_eq_ok hexisting with ⟨_, hfolder, hthere⟩
  rcases stencilFolder_eq_ok hfolder with ⟨rfl, hid⟩
  refine ⟨hid, ?_, hversions⟩
  cases hversionsFolder : directory.isFolder (versionsFolder (root ++ [id])) with
  | true => rfl
  | false =>
      rw [hversionsFolder] at hthere
      cases hthere

/-- After a save with the latest serial, its version is listed before all others, which are not the
active one. -/
theorem history_save {request : SaveRequest} {now : Timestamp} {answer : SaveAnswer}
    (hlisted : history directory root request.stencilId = .ok versions) (htime : now.Possible)
    (hsaved : save root request now directory = (after, .ok answer))
    (hlatest : ∀ version ∈ versions, version.serial.text < answer.serial.text) :
    history after root request.stencilId =
      .ok (requestedVersion request now answer.serial :: versions.map retired) := by
  rcases history_eq_ok hlisted with ⟨hid, hfolder, hversions⟩
  have hattempt : Attempt root request now directory (after, .ok answer) := by
    rw [← hsaved]
    exact attempt_save
  cases hattempt with
  | published hprepare hfree htext =>
      rename_i prepared serial text
      rcases prepare_eq_ok hprepare with ⟨_, _, hmade⟩
      have hway : [] ++ versionsFolder (root ++ [request.stencilId]) <+:
          versionsFolder (root ++ [request.stencilId]) := List.prefix_refl _
      have hsame : SameVersions (root ++ [request.stencilId]) prepared directory :=
        sameVersions_makeFoldersBelow? hway hmade
      rw [← hsame.versionsIn] at hversions
      have hkept : (published prepared (root ++ [request.stencilId]) serial text).isFolder
          (versionsFolder (root ++ [request.stencilId])) = true := by
        rw [isFolder_congr (item?_published_way serial text (List.prefix_refl _))]
        exact isFolder_of_prepare hprepare (List.prefix_refl _)
      unfold history
      rw [existingFolder_of_there hid hkept]
      exact versionsIn_published hversions hfree (Snapshot.ofText?_of_text? htime htext) rfl rfl
        hlatest

end

end Store
end StencilDesk
