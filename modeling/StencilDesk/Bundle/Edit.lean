import StencilDesk.Bundle.File

/-!
# Changing a bundle

Creating, moving and deleting files. A new path has to be well formed and free: no file may be
there, none may lie below it, and none above it. A folder is created by way of a placeholder.
-/

namespace StencilDesk

inductive EditFault where
  | duplicatePath (path : String)
  | notFound (path : String)
  | traversal (path : String)
  | invalidPath (path : String)
deriving DecidableEq, Repr

namespace EditFault

def message : EditFault → String
  | duplicatePath path => s!"A file already exists at {path}"
  | notFound path => s!"No file at {path}"
  | traversal path => s!"Path traversal is not allowed: {path}"
  | invalidPath path => s!"Invalid path: {path}"

def ofPathFault : PathFault → EditFault
  | .traversal path => .traversal path
  | .invalid path => .invalidPath path

end EditFault

namespace Bundle

/-- Holds if a file is at the path, or below it. -/
def isTaken (files : List File) (path : String) : Bool :=
  files.any fun file =>
    file.path == path || (path.toList ++ ['/']).isPrefixOf file.path.toList

/-- The folders above a path, from the nearest up to the root; as many as the number allows. -/
def ancestors : Nat → String → List String
  | 0, _ => []
  | fuel + 1, path =>
      let parent := Path.parent path
      if parent = Path.root then [] else parent :: ancestors fuel parent

def fileAbove? (files : List File) (path : String) : Option String :=
  (ancestors path.toList.length path).find? (File.existsAt files)

def checkPath (path : String) : Except EditFault Unit :=
  (Path.check path).mapError EditFault.ofPathFault

def checkName (name : String) : Except EditFault Unit :=
  (Path.checkName name).mapError EditFault.ofPathFault

def checkAbove (files : List File) (path : String) : Except EditFault Unit :=
  match fileAbove? files path with
  | some above => .error (.duplicatePath above)
  | none => .ok ()

def checkFree (files : List File) (path : String) : Except EditFault Unit := do
  checkAbove files path
  if isTaken files path then
    throw (.duplicatePath path)

def createFile (files : List File) (parent name : String) : Except EditFault (List File) := do
  checkPath parent
  checkName name
  let path := Path.join parent name
  checkFree files path
  return files ++ [File.ofPath path ""]

/-- Adds a folder, by adding a placeholder inside it. -/
def createFolder (files : List File) (parent name : String) : Except EditFault (List File) := do
  checkPath parent
  checkName name
  let path := Path.join parent name
  if File.existsAt files path then
    throw (.duplicatePath path)
  checkAbove files path
  createFile files path FileKind.placeholderName

def replaceFirst (path : String) (f : File → File) : List File → List File
  | [] => []
  | file :: rest => if file.path = path then f file :: rest else file :: replaceFirst path f rest

theorem mem_replaceFirst {path : String} {f : File → File} {files : List File} {file : File}
    (h : file ∈ replaceFirst path f files) :
    file ∈ files ∨ ∃ old ∈ files, old.path = path ∧ file = f old := by
  induction files with
  | nil => cases h
  | cons first rest ih =>
      unfold replaceFirst at h
      split at h
      · rename_i hsame
        rcases List.mem_cons.mp h with rfl | h
        · exact .inr ⟨first, List.mem_cons_self, hsame, rfl⟩
        · exact .inl (List.mem_cons_of_mem _ h)
      · rcases List.mem_cons.mp h with rfl | h
        · exact .inl List.mem_cons_self
        · rcases ih h with h | ⟨old, hold, hpath, hfile⟩
          · exact .inl (List.mem_cons_of_mem _ h)
          · exact .inr ⟨old, List.mem_cons_of_mem _ hold, hpath, hfile⟩

theorem find?_replaceFirst_of_ne {path other : String} {f : File → File} (files : List File)
    (hpath : other ≠ path) (hnew : ∀ file, file.path = path → (f file).path ≠ other) :
    File.find? (replaceFirst path f files) other = File.find? files other := by
  unfold File.find?
  induction files with
  | nil => rfl
  | cons first rest ih =>
      unfold replaceFirst
      split
      · rename_i hsame
        have hold : (first.path == other) = false := by simp [hsame, Ne.symm hpath]
        have hmoved : ((f first).path == other) = false := by simpa using hnew first hsame
        rw [List.find?_cons, List.find?_cons, hold, hmoved]
      · rw [List.find?_cons, List.find?_cons, ih]

theorem existsAt_replaceFirst {path : String} {f : File → File} {files : List File} {file : File}
    (h : File.find? files path = some file) :
    File.existsAt (replaceFirst path f files) (f file).path = true := by
  induction files with
  | nil => cases h
  | cons first rest ih =>
      unfold replaceFirst
      unfold File.find? at h
      rw [List.find?_cons] at h
      split
      · rename_i hsame
        have hhere : (first.path == path) = true := by simp [hsame]
        rw [hhere] at h
        cases h
        exact File.existsAt_iff.mpr ⟨_, List.mem_cons_self, rfl⟩
      · rename_i hdiffers
        have helsewhere : (first.path == path) = false := by simp [hdiffers]
        rw [helsewhere] at h
        rcases File.existsAt_iff.mp (ih h) with ⟨found, hmem, hfound⟩
        exact File.existsAt_iff.mpr ⟨found, List.mem_cons_of_mem _ hmem, hfound⟩

/-- Moves a file. Moving it to where it is changes nothing. -/
def moveFile (files : List File) (path new : String) : Except EditFault (List File) := do
  checkPath new
  if new = Path.root then
    throw (.invalidPath new)
  if !File.existsAt files path then
    throw (.notFound path)
  if path = new then
    return files
  checkFree files new
  return replaceFirst path (fun file => file.moved new) files

def deleteFile (files : List File) (path : String) : Except EditFault (List File) :=
  if File.existsAt files path then .ok (files.filter fun file => file.path != path)
  else .error (.notFound path)

/-! ## When a change succeeds -/

theorem bind_eq_ok {ε α β : Type} {x : Except ε α} {f : α → Except ε β} {b : β}
    (h : x.bind f = .ok b) : ∃ a, x = .ok a ∧ f a = .ok b := by
  cases x with
  | error fault => cases h
  | ok a => exact ⟨a, rfl, h⟩

theorem checkPath_eq_ok {path : String} (h : checkPath path = .ok ()) :
    Path.check path = .ok () := by
  unfold checkPath at h
  cases hcheck : Path.check path with
  | error fault =>
      rw [hcheck] at h
      cases h
  | ok _ => rfl

theorem checkName_eq_ok {name : String} (h : checkName name = .ok ()) :
    Path.checkName name = .ok () := by
  unfold checkName at h
  cases hcheck : Path.checkName name with
  | error fault =>
      rw [hcheck] at h
      cases h
  | ok _ => rfl

theorem checkFree_eq_ok {files : List File} {path : String} (h : checkFree files path = .ok ()) :
    fileAbove? files path = none ∧ isTaken files path = false := by
  rcases bind_eq_ok h with ⟨_, habove, hfree⟩
  constructor
  · unfold checkAbove at habove
    cases hfound : fileAbove? files path with
    | none => rfl
    | some above =>
        rw [hfound] at habove
        cases habove
  · cases htaken : isTaken files path with
    | false => rfl
    | true =>
        simp [htaken] at hfree

theorem existsAt_of_not_isTaken {files : List File} {path : String}
    (h : isTaken files path = false) : File.existsAt files path = false := by
  cases hexists : File.existsAt files path with
  | false => rfl
  | true =>
      rcases File.existsAt_iff.mp hexists with ⟨file, hmem, hpath⟩
      have htaken : isTaken files path = true :=
        List.any_eq_true.mpr ⟨file, hmem, by simp [hpath]⟩
      rw [h] at htaken
      cases htaken

theorem createFile_eq_ok {files next : List File} {parent name : String}
    (h : createFile files parent name = .ok next) :
    Path.check parent = .ok () ∧ Path.checkName name = .ok () ∧
      fileAbove? files (Path.join parent name) = none ∧
      isTaken files (Path.join parent name) = false ∧
      next = files ++ [File.ofPath (Path.join parent name) ""] := by
  rcases bind_eq_ok h with ⟨_, hparent, h⟩
  rcases bind_eq_ok h with ⟨_, hname, h⟩
  rcases bind_eq_ok h with ⟨_, hfree, h⟩
  rcases checkFree_eq_ok hfree with ⟨habove, htaken⟩
  cases h
  exact ⟨checkPath_eq_ok hparent, checkName_eq_ok hname, habove, htaken, rfl⟩

theorem createFolder_eq_ok {files next : List File} {parent name : String}
    (h : createFolder files parent name = .ok next) :
    Path.check parent = .ok () ∧ Path.checkName name = .ok () ∧
      createFile files (Path.join parent name) FileKind.placeholderName = .ok next := by
  rcases bind_eq_ok h with ⟨_, hparent, h⟩
  rcases bind_eq_ok h with ⟨_, hname, h⟩
  refine ⟨checkPath_eq_ok hparent, checkName_eq_ok hname, ?_⟩
  cases hexists : File.existsAt files (Path.join parent name) with
  | true =>
      simp [hexists] at h
      cases h
  | false =>
      simp [hexists] at h
      rcases bind_eq_ok h with ⟨_, habove, h⟩
      exact h

theorem moveFile_eq_ok {files next : List File} {path new : String}
    (h : moveFile files path new = .ok next) :
    Path.check new = .ok () ∧ new ≠ Path.root ∧ File.existsAt files path = true ∧
      (path = new ∧ next = files ∨
        path ≠ new ∧ fileAbove? files new = none ∧ isTaken files new = false ∧
          next = replaceFirst path (fun file => file.moved new) files) := by
  rcases bind_eq_ok h with ⟨_, hcheck, h⟩
  by_cases hroot : new = Path.root
  · simp [hroot] at h
    cases h
  cases hexists : File.existsAt files path with
  | false =>
      simp [hroot, hexists] at h
      cases h
  | true =>
      refine ⟨checkPath_eq_ok hcheck, hroot, rfl, ?_⟩
      by_cases hsame : path = new
      · rw [hsame] at hexists h
        simp [hroot, hexists] at h
        cases h
        exact .inl ⟨hsame, rfl⟩
      · simp [hroot, hexists, hsame] at h
        rcases bind_eq_ok h with ⟨_, hfree, h⟩
        rcases checkFree_eq_ok hfree with ⟨habove, htaken⟩
        cases h
        exact .inr ⟨hsame, habove, htaken, rfl⟩

theorem deleteFile_eq_ok {files next : List File} {path : String}
    (h : deleteFile files path = .ok next) :
    next = files.filter fun file => file.path != path := by
  unfold deleteFile at h
  split at h
  · cases h
    rfl
  · cases h

end Bundle

end StencilDesk
