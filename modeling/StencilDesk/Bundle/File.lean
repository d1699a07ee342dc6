import StencilDesk.Bundle.Path

/-!
# Files

The files of a bundle. What a file is for shows in its name: the main configuration, a shared
configuration, a template, or the placeholder that keeps an otherwise empty folder.
-/

namespace StencilDesk

inductive FileKind where
  | mainConfig
  | sharedConfig
  | template
  | placeholder
  | other
deriving DecidableEq, Repr, Inhabited

namespace FileKind

def mainConfigName : String := "stencil.yml"

def placeholderName : String := ".gitkeep"

def sharedSuffix : List Char := "_shared.yml".toList

/-- How the names of templates end; something has to stand before it. -/
def templateSuffix : List Char := ".ftl".toList

def ofName (name : String) : FileKind :=
  if name = mainConfigName then .mainConfig
  else if name = placeholderName then .placeholder
  else if sharedSuffix.isSuffixOf name.toList then .sharedConfig
  else if templateSuffix.isSuffixOf name.toList ∧ templateSuffix.length < name.toList.length then
    .template
  else .other

def isEditable (kind : FileKind) : Bool :=
  kind != .placeholder

def text : FileKind → String
  | mainConfig => "main_config"
  | sharedConfig => "shared_config"
  | template => "template"
  | placeholder => "placeholder"
  | other => "other"

def all : List FileKind := [.mainConfig, .sharedConfig, .template, .placeholder, .other]

def ofText? (word : String) : Option FileKind :=
  all.find? fun kind => kind.text == word

end FileKind

structure File where
  path : String
  name : String
  content : String
  kind : FileKind
  editable : Bool
deriving DecidableEq, Repr, Inhabited

namespace File

def mainConfigPath : String := "/stencil.yml"

/-- The file at a path; its name and kind follow from the path. -/
def ofPath (path content : String) : File :=
  let name := Path.name path
  let kind := FileKind.ofName name
  { path, name, content, kind, editable := kind.isEditable }

def moved (file : File) (path : String) : File :=
  ofPath path file.content

def find? (files : List File) (path : String) : Option File :=
  files.find? fun file => file.path == path

def existsAt (files : List File) (path : String) : Bool :=
  files.any fun file => file.path == path

@[simp] theorem path_ofPath (path content : String) : (ofPath path content).path = path := rfl

@[simp] theorem content_ofPath (path content : String) :
    (ofPath path content).content = content := rfl

@[simp] theorem name_ofPath (path content : String) :
    (ofPath path content).name = Path.name path := rfl

@[simp] theorem editable_ofPath (path content : String) :
    (ofPath path content).editable = (FileKind.ofName (Path.name path)).isEditable := by
  simp only [ofPath]

@[simp] theorem kind_ofPath (path content : String) :
    (ofPath path content).kind = FileKind.ofName (Path.name path) := by
  simp only [ofPath]

/-- Holds of files whose name, kind and editing rule are those of their path. -/
structure Derived (file : File) : Prop where
  name_eq : file.name = Path.name file.path
  kind_eq : file.kind = FileKind.ofName file.name
  editable_eq : file.editable = file.kind.isEditable

theorem derived_ofPath (path content : String) : (ofPath path content).Derived where
  name_eq := by rw [name_ofPath, path_ofPath]
  kind_eq := by rw [kind_ofPath, name_ofPath]
  editable_eq := by rw [editable_ofPath, kind_ofPath]

theorem derived_moved (file : File) (path : String) : (file.moved path).Derived :=
  derived_ofPath path file.content

def AllDerived (files : List File) : Prop :=
  ∀ file ∈ files, file.Derived

theorem Derived.withContent {file : File} (h : file.Derived) (content : String) :
    { file with content }.Derived :=
  ⟨h.name_eq, h.kind_eq, h.editable_eq⟩

@[simp] theorem path_moved (file : File) (path : String) : (file.moved path).path = path := rfl

/-! ## Looking up -/

theorem existsAt_iff {files : List File} {path : String} :
    existsAt files path = true ↔ ∃ file ∈ files, file.path = path := by
  simp [existsAt]

theorem of_find?_eq_some {files : List File} {path : String} {file : File}
    (h : find? files path = some file) : file ∈ files ∧ file.path = path := by
  constructor
  · exact List.mem_of_find?_eq_some h
  · simpa using List.find?_some h

theorem find?_eq_none_iff {files : List File} {path : String} :
    find? files path = none ↔ existsAt files path = false := by
  simp [find?, existsAt]

theorem exists_of_existsAt {files : List File} {path : String}
    (h : existsAt files path = true) : ∃ file, find? files path = some file := by
  cases hfound : find? files path with
  | none =>
      rw [find?_eq_none_iff.mp hfound] at h
      cases h
  | some file => exact ⟨file, rfl⟩

theorem existsAt_of_find? {files : List File} {path : String} {file : File}
    (h : find? files path = some file) : existsAt files path = true :=
  existsAt_iff.mpr ⟨file, of_find?_eq_some h⟩

theorem existsAt_eq_isSome (files : List File) (path : String) :
    existsAt files path = (find? files path).isSome := by
  cases hfound : find? files path with
  | none => exact find?_eq_none_iff.mp hfound
  | some file => exact existsAt_of_find? hfound

theorem find?_append_of_ne (files : List File) {file : File} {path : String}
    (h : path ≠ file.path) : find? (files ++ [file]) path = find? files path := by
  have differs : (file.path == path) = false := by simp [Ne.symm h]
  simp [find?, List.find?_append, differs]

theorem existsAt_append (files others : List File) (path : String) :
    existsAt (files ++ others) path = (existsAt files path || existsAt others path) := by
  simp [existsAt]

theorem find?_filter_of_ne (files : List File) {path other : String} (h : other ≠ path) :
    find? (files.filter fun file => file.path != path) other = find? files other := by
  unfold find?
  induction files with
  | nil => rfl
  | cons file rest ih =>
      by_cases same : file.path = path
      · have differs : (file.path == other) = false := by simp [same, Ne.symm h]
        rw [List.filter_cons_of_neg (by simp [same]), List.find?_cons, differs]
        exact ih
      · rw [List.filter_cons_of_pos (by simp [same]), List.find?_cons, List.find?_cons, ih]

end File

end StencilDesk
