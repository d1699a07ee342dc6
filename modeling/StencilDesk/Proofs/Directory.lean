import Mathlib.Data.List.Nodup
import StencilDesk.Directory

/-!
# Parts of directories

What is found below a folder depends on nothing outside of it, and making or writing something
elsewhere leaves it alone. The folders along a way can be made if no file stands in the way.
-/

namespace StencilDesk
namespace Directory

def under (directory : Directory) (folder : Location) : Directory :=
  ⟨directory.items.filter fun entry => folder.isPrefixOf entry.1⟩

def Distinct (directory : Directory) : Prop :=
  (directory.items.map Prod.fst).Nodup

/-!
## What is found below a folder
-/

theorem item?_of_ne_nil (directory : Directory) {location : Location} (h : location ≠ []) :
    directory.item? location =
      (directory.items.find? fun entry => entry.1 == location).map Prod.snd := by
  unfold item?
  rw [if_neg h]

theorem append_ne_nil {folder : Location} (h : folder ≠ []) (names : List String) :
    folder ++ names ≠ [] := by
  intro hempty
  exact h (List.append_eq_nil_iff.mp hempty).1

theorem item?_under (directory : Directory) {folder : Location} (h : folder ≠ [])
    (names : List String) :
    (directory.under folder).item? (folder ++ names) = directory.item? (folder ++ names) := by
  rw [item?_of_ne_nil _ (append_ne_nil h names), item?_of_ne_nil _ (append_ne_nil h names)]
  congr 1
  unfold under
  rw [List.find?_filter]
  congr 1
  funext entry
  by_cases hsame : entry.1 = folder ++ names
  · simp [hsame]
  · simp [hsame]

theorem item?_congr {a b : Directory} {folder : Location} (hfolder : folder ≠ [])
    (h : a.under folder = b.under folder) (names : List String) :
    a.item? (folder ++ names) = b.item? (folder ++ names) := by
  rw [← item?_under a hfolder, ← item?_under b hfolder, h]

theorem isFile_congr {a b : Directory} {location : Location}
    (h : a.item? location = b.item? location) : a.isFile location = b.isFile location := by
  unfold isFile content?
  rw [h]

theorem isFolder_congr {a b : Directory} {location : Location}
    (h : a.item? location = b.item? location) : a.isFolder location = b.isFolder location := by
  unfold isFolder
  rw [h]

theorem childName?_eq_some_iff {folder location : Location} {name : String} :
    childName? folder location = some name ↔ location = folder ++ [name] := by
  unfold childName?
  constructor
  · intro h
    split at h
    · rename_i hfolder
      rw [← hfolder]
      exact (List.dropLast_append_getLast? name h).symm
    · cases h
  · intro h
    rw [h]
    simp

theorem names_under (directory : Directory) (folder : Location) (names : List String) :
    (directory.under folder).names (folder ++ names) = directory.names (folder ++ names) := by
  unfold Directory.names under
  rw [List.filterMap_filter]
  congr 1
  funext entry
  by_cases hinside : folder.isPrefixOf entry.1 = true
  · rw [if_pos hinside]
  · rw [if_neg hinside]
    cases hchild : childName? (folder ++ names) entry.1 with
    | none => rfl
    | some name =>
        exfalso
        apply hinside
        rw [childName?_eq_some_iff.mp hchild, List.isPrefixOf_iff_prefix, List.append_assoc]
        exact List.prefix_append _ _

theorem mem_names_iff {directory : Directory} {folder : Location} {name : String} :
    name ∈ directory.names folder ↔ directory.item? (folder ++ [name]) ≠ none := by
  rw [item?_of_ne_nil _ (by simp)]
  unfold Directory.names
  rw [List.mem_filterMap]
  constructor
  · intro ⟨entry, hmem, hchild⟩ hnone
    rw [Option.map_eq_none_iff, List.find?_eq_none] at hnone
    apply hnone entry hmem
    rw [childName?_eq_some_iff.mp hchild]
    exact beq_self_eq_true _
  · intro hsome
    cases hfound : directory.items.find? fun entry => entry.1 == folder ++ [name] with
    | none =>
        rw [hfound] at hsome
        exact absurd rfl hsome
    | some entry =>
        refine ⟨entry, List.mem_of_find?_eq_some hfound, ?_⟩
        rw [childName?_eq_some_iff]
        simpa using List.find?_some hfound

theorem Distinct.nodup_names {directory : Directory} (h : directory.Distinct)
    (folder : Location) : (directory.names folder).Nodup := by
  have hnames : directory.names folder =
      (directory.items.map Prod.fst).filterMap (childName? folder) := by
    unfold Directory.names
    rw [List.filterMap_map]
    rfl
  rw [hnames]
  apply List.Nodup.filterMap _ h
  intro location other name hlocation hother
  rw [childName?_eq_some_iff.mp hlocation, childName?_eq_some_iff.mp hother]

theorem under_eq_empty {directory : Directory} {folder : Location} (h : folder ≠ [])
    (hvacant : ∀ names, directory.item? (folder ++ names) = none) :
    directory.under folder = {} := by
  unfold under
  congr 1
  rw [List.filter_eq_nil_iff]
  intro entry hmem hinside
  rcases List.isPrefixOf_iff_prefix.mp hinside with ⟨names, hlocation⟩
  have hnone := hvacant names
  rw [item?_of_ne_nil _ (append_ne_nil h names), Option.map_eq_none_iff,
    List.find?_eq_none] at hnone
  apply hnone entry hmem
  rw [hlocation]
  exact beq_self_eq_true _

/-!
## Putting something into a directory
-/

/-- What is put outside of a folder leaves alone what is below the folder. -/
theorem under_set_outside (directory : Directory) {folder location : Location}
    (item : DirectoryItem) (h : ¬folder <+: location) :
    (directory.set location item).under folder = directory.under folder := by
  have houtside : folder.isPrefixOf location = false := by
    rw [Bool.eq_false_iff]
    intro hinside
    exact h (List.isPrefixOf_iff_prefix.mp hinside)
  unfold under set
  congr 1
  rw [List.filter_append, List.filter_filter,
    List.filter_cons_of_neg (by simp [houtside]), List.filter_nil, List.append_nil]
  apply List.filter_congr
  intro entry _
  by_cases hinside : folder.isPrefixOf entry.1 = true
  · have hother : entry.1 ≠ location := by
      intro hsame
      rw [hsame, houtside] at hinside
      cases hinside
    simp [hother]
  · simp [hinside]

theorem Distinct.set {directory : Directory} (h : directory.Distinct) (location : Location)
    (item : DirectoryItem) : (directory.set location item).Distinct := by
  unfold Distinct Directory.set
  rw [List.map_append, List.map_singleton, List.nodup_append]
  refine ⟨h.sublist (List.filter_sublist.map Prod.fst), by simp, ?_⟩
  intro old hold other hother
  rcases List.mem_map.mp hold with ⟨entry, hmem, hsame⟩
  have hdiffers := (List.mem_filter.mp hmem).2
  rw [List.mem_singleton.mp hother, ← hsame]
  simpa using hdiffers

theorem under_set_inside (directory : Directory) {folder location : Location}
    (item : DirectoryItem) (h : folder <+: location) :
    (directory.set location item).under folder = (directory.under folder).set location item := by
  have hinside : folder.isPrefixOf location = true := List.isPrefixOf_iff_prefix.mpr h
  unfold under Directory.set
  congr 1
  rw [List.filter_append, List.filter_filter, List.filter_filter,
    List.filter_cons_of_pos (by simp [hinside]), List.filter_nil]
  congr 1
  apply List.filter_congr
  intro entry _
  exact Bool.and_comm _ _

theorem distinct_under_set {directory : Directory} {folder : Location}
    (h : (directory.under folder).Distinct) (location : Location) (item : DirectoryItem) :
    ((directory.set location item).under folder).Distinct := by
  by_cases hinside : folder <+: location
  · rw [under_set_inside _ _ hinside]
    exact h.set location item
  · rw [under_set_outside _ _ hinside]
    exact h

/-!
## Making folders
-/

def Along (location names other : Location) : Prop :=
  ∃ before, before <+: names ∧ before ≠ [] ∧ other = location ++ before

theorem makeFolder?_eq_some {directory next : Directory} {location : Location}
    (h : directory.makeFolder? location = some next) :
    next = directory ∧ directory.item? location = some .folder ∨
      next = directory.set location .folder ∧ directory.item? location = none := by
  unfold makeFolder? at h
  split at h
  · cases h
    exact .inl ⟨rfl, ‹_›⟩
  · cases h
  · cases h
    exact .inr ⟨rfl, ‹_›⟩

theorem along_cons_iff {location names other : Location} {name : String} :
    Along location (name :: names) other ↔
      other = location ++ [name] ∨ Along (location ++ [name]) names other := by
  constructor
  · intro ⟨before, hstart, hsome, hother⟩
    cases before with
    | nil => exact absurd rfl hsome
    | cons first rest =>
        rcases List.cons_prefix_cons.mp hstart with ⟨hfirst, hrest⟩
        rw [hfirst] at hother
        cases rest with
        | nil => exact .inl hother
        | cons second rest =>
            exact .inr ⟨second :: rest, hrest, by simp, by rw [hother, List.append_assoc]; rfl⟩
  · intro h
    rcases h with hother | ⟨before, hstart, _, hother⟩
    · exact ⟨[name], by simp, by simp, hother⟩
    · refine ⟨name :: before, List.cons_prefix_cons.mpr ⟨rfl, hstart⟩, by simp, ?_⟩
      rw [hother, List.append_assoc]
      rfl

theorem not_along_nil {location other : Location} : ¬Along location [] other := by
  intro ⟨before, hstart, hsome, _⟩
  exact hsome (List.prefix_nil.mp hstart)

theorem ne_of_along {location names other : Location} (h : Along location names other) :
    other ≠ location := by
  rcases h with ⟨before, _, hsome, hother⟩
  intro hsame
  rw [hsame] at hother
  exact hsome (List.append_right_eq_self.mp hother.symm)

theorem isFile_eq_false_iff {directory : Directory} {location : Location} :
    directory.isFile location = false ↔
      directory.item? location = none ∨ directory.item? location = some .folder := by
  unfold isFile content?
  cases hitem : directory.item? location with
  | none => simp
  | some item => cases item <;> simp

theorem isFolder_iff {directory : Directory} {location : Location} :
    directory.isFolder location = true ↔ directory.item? location = some .folder := by
  unfold isFolder
  exact beq_iff_eq

/-- How folders were made along a way: all of them are there, and nothing else has changed. -/
structure MadeFolders (directory next : Directory) (location names : Location) : Prop where
  made : ∀ other, Along location names other → next.item? other = some .folder
  kept : ∀ other, ¬Along location names other → next.item? other = directory.item? other
  under_eq : ∀ folder, ¬folder <+: location ++ names → next.under folder = directory.under folder
  distinct_under : ∀ folder, (directory.under folder).Distinct → (next.under folder).Distinct

theorem MadeFolders.cons {directory middle next : Directory} {location names : Location}
    {name : String} (hfirst : directory.makeFolder? (location ++ [name]) = some middle)
    (h : MadeFolders middle next (location ++ [name]) names) :
    MadeFolders directory next location (name :: names) := by
  have hway : location ++ name :: names = (location ++ [name]) ++ names := by simp
  have hmiddle : middle.item? (location ++ [name]) = some .folder ∧
      ∀ other, other ≠ location ++ [name] → middle.item? other = directory.item? other := by
    rcases makeFolder?_eq_some hfirst with ⟨hsame, hfolder⟩ | ⟨hset, _⟩
    · rw [hsame]
      exact ⟨hfolder, fun _ _ => rfl⟩
    · rw [hset]
      exact ⟨item?_set_self _ _ (by simp), fun other hother => item?_set_other _ _ hother⟩
  constructor
  · intro other halong
    rcases along_cons_iff.mp halong with hhere | hbelow
    · rw [hhere, h.kept _ fun hbelow => ne_of_along hbelow rfl]
      exact hmiddle.1
    · exact h.made other hbelow
  · intro other halong
    rw [along_cons_iff, not_or] at halong
    rw [h.kept other halong.2, hmiddle.2 other halong.1]
  · intro folder hfolder
    rw [hway] at hfolder
    rw [h.under_eq folder hfolder]
    rcases makeFolder?_eq_some hfirst with ⟨hsame, _⟩ | ⟨hset, _⟩
    · rw [hsame]
    · rw [hset]
      apply under_set_outside
      intro hstart
      exact hfolder (hstart.trans (List.prefix_append _ _))
  · intro folder hdistinct
    apply h.distinct_under
    rcases makeFolder?_eq_some hfirst with ⟨hsame, _⟩ | ⟨hset, _⟩
    · rw [hsame]
      exact hdistinct
    · rw [hset]
      exact distinct_under_set hdistinct _ _

theorem madeFolders_of_makeFoldersBelow? {directory next : Directory} {location names : Location}
    (h : directory.makeFoldersBelow? location names = some next) :
    MadeFolders directory next location names := by
  induction names generalizing directory location with
  | nil =>
      cases h
      exact ⟨fun _ halong => absurd halong not_along_nil, fun _ _ => rfl, fun _ _ => rfl,
        fun _ hdistinct => hdistinct⟩
  | cons name names ih =>
      rcases Option.bind_eq_some_iff.mp h with ⟨middle, hfirst, hrest⟩
      exact MadeFolders.cons hfirst (ih hrest)

theorem exists_makeFoldersBelow? {directory : Directory} {location names : Location}
    (h : ∀ other, Along location names other → directory.isFile other = false) :
    ∃ next, directory.makeFoldersBelow? location names = some next := by
  induction names generalizing directory location with
  | nil => exact ⟨directory, rfl⟩
  | cons name names ih =>
      have hfree := isFile_eq_false_iff.mp (h _ (along_cons_iff.mpr (.inl rfl)))
      have hfirst : ∃ middle, directory.makeFolder? (location ++ [name]) = some middle := by
        unfold makeFolder?
        rcases hfree with hnone | hfolder
        · rw [hnone]
          exact ⟨_, rfl⟩
        · rw [hfolder]
          exact ⟨_, rfl⟩
      rcases hfirst with ⟨middle, hfirst⟩
      have hbelow : ∀ other, Along (location ++ [name]) names other →
          middle.isFile other = false := by
        intro other halong
        have hother := isFile_eq_false_iff.mp (h other (along_cons_iff.mpr (.inr halong)))
        rw [isFile_eq_false_iff]
        rcases makeFolder?_eq_some hfirst with ⟨hsame, _⟩ | ⟨hset, _⟩
        · rw [hsame]
          exact hother
        · rw [hset, item?_set_other _ _ (ne_of_along halong)]
          exact hother
      rcases ih hbelow with ⟨next, hrest⟩
      exact ⟨next, Option.bind_eq_some_iff.mpr ⟨middle, hfirst, hrest⟩⟩

theorem content?_set_folder {directory : Directory} {location : Location}
    (h : directory.item? location = none) (other : Location) :
    (directory.set location .folder).content? other = directory.content? other := by
  unfold content?
  by_cases hsame : other = location
  · have hsome : location ≠ [] := by
      intro hempty
      rw [hempty] at h
      cases h
    rw [hsame, item?_set_self _ _ hsome, h]
  · rw [item?_set_other _ _ hsame]

theorem content?_of_makeFoldersBelow? {directory next : Directory} {location names : Location}
    (h : directory.makeFoldersBelow? location names = some next) (other : Location) :
    next.content? other = directory.content? other := by
  induction names generalizing directory location with
  | nil =>
      cases h
      rfl
  | cons name names ih =>
      rcases Option.bind_eq_some_iff.mp h with ⟨middle, hfirst, hrest⟩
      rw [ih hrest]
      rcases makeFolder?_eq_some hfirst with ⟨hsame, _⟩ | ⟨hset, hnone⟩
      · rw [hsame]
      · rw [hset]
        exact content?_set_folder hnone other

/-!
## Writing files
-/

theorem write?_eq_some {directory next : Directory} {location : Location} {content : FileContent}
    (h : directory.write? location content = some next) :
    next = directory.set location (.file content) := by
  unfold write? at h
  split at h
  · cases h
  · cases h
    rfl

theorem write?_of_isFolder {directory : Directory} {location : Location} (content : FileContent)
    (hfree : directory.isFolder location = false)
    (habove : directory.isFolder location.dropLast = true) :
    directory.write? location content = some (directory.set location (.file content)) := by
  unfold write?
  rw [hfree, habove]
  rfl

end Directory
end StencilDesk
