import StencilDesk.Text.Split

/-!
# Directories

A file system as a value: files and folders under paths that are lists of names. The empty path is
the folder that holds everything. Files and folders are only put into folders that exist.
-/

namespace StencilDesk

inductive FileContent where
  | text (content : String)
  | bytes (bytes : List UInt8)
deriving DecidableEq, Repr, Inhabited

namespace FileContent

def ofBytes (bytes : List UInt8) : FileContent :=
  match String.fromUTF8? (ByteArray.mk bytes.toArray) with
  | some decoded => .text decoded
  | none => .bytes bytes

def text? : FileContent → Option String
  | text content => some content
  | bytes _ => none

end FileContent

inductive DirectoryItem where
  | file (content : FileContent)
  | folder
deriving DecidableEq, Repr, Inhabited

/-- The names on the way to a file or folder. -/
abbrev Location := List String

structure Directory where
  items : List (Location × DirectoryItem) := []
deriving Inhabited

namespace Directory

def item? (directory : Directory) (location : Location) : Option DirectoryItem :=
  if location = [] then some .folder
  else (directory.items.find? fun entry => entry.1 == location).map Prod.snd

def isOccupied (directory : Directory) (location : Location) : Bool :=
  (directory.item? location).isSome

def isFolder (directory : Directory) (location : Location) : Bool :=
  directory.item? location == some .folder

def content? (directory : Directory) (location : Location) : Option FileContent :=
  match directory.item? location with
  | some (.file content) => some content
  | _ => none

def isFile (directory : Directory) (location : Location) : Bool :=
  (directory.content? location).isSome

def text? (directory : Directory) (location : Location) : Option String :=
  (directory.content? location).bind FileContent.text?

def set (directory : Directory) (location : Location) (item : DirectoryItem) : Directory :=
  ⟨directory.items.filter (fun entry => entry.1 != location) ++ [(location, item)]⟩

def remove (directory : Directory) (location : Location) : Directory :=
  ⟨directory.items.filter fun entry => entry.1 != location⟩

/-- Makes the folder at a location, below a folder that exists; an existing folder stays. -/
def makeFolder? (directory : Directory) (location : Location) : Option Directory :=
  match directory.item? location with
  | some .folder => some directory
  | some (.file _) => none
  | none => some (directory.set location .folder)

def makeFoldersBelow? (directory : Directory) (location : Location) : Location → Option Directory
  | [] => some directory
  | name :: names => do
      let location := location ++ [name]
      let directory ← directory.makeFolder? location
      directory.makeFoldersBelow? location names

/-- Makes a folder and all folders above it; fails if one of them is a file. -/
def makeFolders? (directory : Directory) (location : Location) : Option Directory :=
  directory.makeFoldersBelow? [] location

/-- Writes a file, in place of one that is there; fails without a folder above, or if a folder is
there. -/
def write? (directory : Directory) (location : Location) (content : FileContent) :
    Option Directory :=
  if directory.isFolder location || !directory.isFolder location.dropLast then none
  else some (directory.set location (.file content))

def put? (directory : Directory) (location : Location) (content : FileContent) :
    Option Directory := do
  let directory ← directory.makeFolders? location.dropLast
  directory.write? location content

def childName? (folder location : Location) : Option String :=
  if location.dropLast = folder then location.getLast? else none

def names (directory : Directory) (folder : Location) : List String :=
  directory.items.filterMap fun entry => childName? folder entry.1

/-- The locations on the way to a location, from the outermost folder to the location itself. -/
def way : Location → List Location
  | [] => [[]]
  | name :: rest => [] :: (way rest).map (name :: ·)

/-- Goes one piece of a path further: a point stays, and two points go back. -/
def goTo (location : Location) (piece : List Char) : Location :=
  if piece = [] ∨ piece = ['.'] then location
  else if piece = ['.', '.'] then location.dropLast
  else location ++ [String.ofList piece]

/-- The location of a path, seen from a folder; a path that starts with a slash starts at the
top. -/
def locate (folder : Location) (path : String) : Location :=
  let start := if path.toList.head? = some '/' then [] else folder
  (Text.splitOn '/' path.toList).foldl goTo start

def locationText (location : Location) : String :=
  "/".intercalate location

/-- Everything below a location, as texts in ascending order; folders end with a slash. -/
def listing (directory : Directory) (folder : Location) : List String :=
  let texts := directory.items.filterMap fun (location, item) =>
    if folder.isPrefixOf location && folder.length < location.length then
      let text := locationText (location.drop folder.length)
      some (if item = .folder then text ++ "/" else text)
    else none
  texts.mergeSort fun a b => a ≤ b

theorem item?_set_self (directory : Directory) {location : Location} (item : DirectoryItem)
    (h : location ≠ []) : (directory.set location item).item? location = some item := by
  have none : (directory.items.filter (fun entry => entry.1 != location)).find?
      (fun entry => entry.1 == location) = none := by
    simp [List.find?_eq_none]
  simp [item?, set, h, List.find?_append, none]

theorem item?_set_other (directory : Directory) {location other : Location} (item : DirectoryItem)
    (h : other ≠ location) : (directory.set location item).item? other = directory.item? other := by
  by_cases empty : other = []
  · simp [item?, empty]
  · have filtered : ∀ items : List (Location × DirectoryItem),
        (items.filter (fun entry => entry.1 != location)).find? (fun entry => entry.1 == other) =
          items.find? (fun entry => entry.1 == other) := by
      intro items
      induction items with
      | nil => rfl
      | cons entry rest ih =>
          by_cases same : entry.1 = location
          · have differs : ¬ location = other := fun e => h e.symm
            simp [same, differs, ih]
          · simp [same, List.find?_cons, ih]
    have last : ¬ location = other := fun e => h e.symm
    simp [item?, set, empty, List.find?_append, filtered, last]

end Directory

end StencilDesk
