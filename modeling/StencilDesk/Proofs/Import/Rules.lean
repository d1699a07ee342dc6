import Mathlib.Data.String.Basic
import StencilDesk.Proofs.Bundle.Storable
import StencilDesk.Proofs.Directory
import StencilDesk.Proofs.Import

/-!
# What an import obeys

Whatever ignore rules keep of a folder, the files that come along obey what the store asks of a
bundle, as the names and folders of a directory do already. The store can only miss the main
configuration.
-/

namespace StencilDesk

namespace Directory

def ProperName (name : String) : Prop :=
  Path.ProperPiece name.toList ∧ '/' ∉ name.toList

/-- Holds if a directory is a tree: nothing is in it twice, names are proper, and whatever is in it
is in a folder. -/
structure IsTree (directory : Directory) : Prop where
  distinct : directory.Distinct
  located : ∀ entry ∈ directory.items, entry.1 ≠ []
  proper : ∀ entry ∈ directory.items, ∀ name ∈ entry.1, ProperName name
  rooted : ∀ entry ∈ directory.items, directory.isFolder entry.1.dropLast = true

variable {directory : Directory} {location names : Location} {item : DirectoryItem}

/-!
## Trees
-/

theorem mem_items_of_item? (hlocation : location ≠ []) (h : directory.item? location = some item) :
    (location, item) ∈ directory.items := by
  rw [item?_of_ne_nil _ hlocation] at h
  rcases Option.map_eq_some_iff.mp h with ⟨entry, hfound, hitem⟩
  have hsame : entry.1 = location := by simpa using List.find?_some hfound
  rw [← hsame, ← hitem]
  exact List.mem_of_find?_eq_some hfound

theorem IsTree.item?_eq_some_iff (h : directory.IsTree) (hlocation : location ≠ []) :
    directory.item? location = some item ↔ (location, item) ∈ directory.items := by
  constructor
  · exact mem_items_of_item? hlocation
  · intro hmem
    cases hfound : directory.item? location with
    | none =>
        rw [item?_of_ne_nil _ hlocation, Option.map_eq_none_iff, List.find?_eq_none] at hfound
        exact absurd (beq_self_eq_true location) (hfound _ hmem)
    | some other =>
        have hother := mem_items_of_item? hlocation hfound
        have hsame := List.inj_on_of_nodup_map h.distinct hother hmem rfl
        rw [(Prod.mk.inj hsame).2]

theorem IsTree.isFolder_above (h : directory.IsTree) (hnames : names ≠ [])
    (hitem : directory.item? (location ++ names) ≠ none) : directory.isFolder location = true := by
  -- From the last name back to the location, one folder at a time.
  induction names using List.reverseRecOn with
  | nil => exact absurd rfl hnames
  | append_singleton names name ih =>
      rw [← List.append_assoc] at hitem
      rcases Option.ne_none_iff_exists'.mp hitem with ⟨item, hsome⟩
      have hfolder := h.rooted _ (mem_items_of_item? (by simp) hsome)
      rw [List.dropLast_concat] at hfolder
      by_cases hnone : names = []
      · rw [hnone, List.append_nil] at hfolder
        exact hfolder
      · apply ih hnone
        rw [isFolder_iff.mp hfolder]
        exact Option.some_ne_none _

theorem IsTree.properName (h : directory.IsTree) (hitem : directory.item? location ≠ none) :
    ∀ name ∈ location, ProperName name := by
  intro name hname
  rcases Option.ne_none_iff_exists'.mp hitem with ⟨item, hsome⟩
  exact h.proper _ (mem_items_of_item? (List.ne_nil_of_mem hname) hsome) name hname

theorem content?_eq_some_iff {content : FileContent} :
    directory.content? location = some content ↔
      directory.item? location = some (.file content) := by
  unfold content?
  cases directory.item? location with
  | none => simp
  | some item => cases item <;> simp

/-!
## Ways
-/

theorem mem_way_iff {folder : Location} : folder ∈ way location ↔ folder <+: location := by
  constructor
  · exact prefix_of_mem_way
  · intro hprefix
    induction location generalizing folder with
    | nil =>
        rw [List.prefix_nil.mp hprefix]
        exact List.mem_cons_self
    | cons name rest ih =>
        cases folder with
        | nil => exact List.mem_cons_self
        | cons first inner =>
            rcases List.cons_prefix_cons.mp hprefix with ⟨hname, hinner⟩
            rw [hname]
            exact List.mem_cons_of_mem _ (List.mem_map_of_mem (ih hinner))

theorem mem_way_drop_iff {folder : Location} :
    folder ∈ (way location).drop 1 ↔ folder ≠ [] ∧ folder <+: location := by
  constructor
  · intro h
    exact ⟨ne_nil_of_mem_way_drop h, mem_way_iff.mp (List.mem_of_mem_drop h)⟩
  · rintro ⟨hne, hprefix⟩
    have hmem := mem_way_iff.mpr hprefix
    cases location with
    | nil => exact absurd (List.prefix_nil.mp hprefix) hne
    | cons name rest => exact (List.mem_cons.mp hmem).resolve_left hne

theorem forall_getLast?_iff {p : String → Bool} :
    (∀ folder ∈ (way location.dropLast).drop 1, folder.getLast?.all p = true) ∧
        location.getLast?.all p = true ↔ ∀ name ∈ location, p name = true := by
  constructor
  · rintro ⟨habove, hlast⟩ name hname
    rcases List.append_of_mem hname with ⟨before, after, hsplit⟩
    rcases List.eq_nil_or_concat' after with hnone | ⟨middle, last, hafter⟩
    · rw [hsplit, hnone, List.getLast?_concat] at hlast
      exact hlast
    · have hfolder : before ++ [name] ∈ (way location.dropLast).drop 1 := by
        rw [mem_way_drop_iff]
        refine ⟨by simp, middle, ?_⟩
        rw [hsplit, hafter, ← List.cons_append, ← List.append_assoc, List.dropLast_concat,
          List.append_assoc, List.singleton_append]
      have hall := habove _ hfolder
      rw [List.getLast?_concat] at hall
      exact hall
  · intro hall
    constructor
    · intro folder hfolder
      rcases mem_way_drop_iff.mp hfolder with ⟨_, hprefix⟩
      rw [Option.all_eq_true]
      intro name hname
      have hmem := hprefix.subset (List.mem_of_getLast? hname)
      exact hall name (List.mem_of_mem_dropLast hmem)
    · rw [Option.all_eq_true]
      intro name hname
      exact hall name (List.mem_of_getLast? hname)

/-!
## Paths of locations
-/

theorem splitOn_locationText (hlocation : location ≠ [])
    (hproper : ∀ name ∈ location, ProperName name) :
    Text.splitOn '/' (locationText location).toList = location.map String.toList := by
  induction location with
  | nil => exact absurd rfl hlocation
  | cons name rest ih =>
      rw [List.forall_mem_cons] at hproper
      cases rest with
      | nil =>
          have htext : locationText [name] = name := by simp [locationText]
          rw [htext, Text.splitOn_of_not_mem hproper.1.2]
          rfl
      | cons next more =>
          have htext := @toList_locationText_append [name] (next :: more) (by simp) (by simp)
          have hname : locationText [name] = name := by simp [locationText]
          rw [List.singleton_append] at htext
          rw [htext, hname, Text.splitOn_append_separator, Text.splitOn_of_not_mem hproper.1.2,
            ih (by simp) hproper.2]
          rfl

/-- Locations whose texts continue one another do so themselves. -/
theorem exists_append_of_locationText {above : Location} {more : List Char} (habove : above ≠ [])
    (hlocation : location ≠ []) (hproperAbove : ∀ name ∈ above, ProperName name)
    (hproper : ∀ name ∈ location, ProperName name)
    (h : (locationText location).toList = (locationText above).toList ++ '/' :: more) :
    ∃ names, names ≠ [] ∧ location = above ++ names := by
  have hpieces := congrArg (Text.splitOn '/') h
  rw [Text.splitOn_append_separator, splitOn_locationText hlocation hproper,
    splitOn_locationText habove hproperAbove] at hpieces
  rcases List.map_eq_append_iff.mp hpieces with ⟨first, names, hsplit, hfirst, hnames⟩
  have hsame : first = above :=
    List.map_injective_iff.mpr (fun _ _ => String.toList_injective) hfirst
  refine ⟨names, ?_, ?_⟩
  · intro hnone
    rw [hnone] at hnames
    exact Text.splitOn_ne_nil '/' more hnames.symm
  · rw [hsplit, hsame]

end Directory

namespace Import

open Directory

variable {directory : Directory} {root location : Location}

/-!
## Paths of imported files
-/

theorem toList_bundlePath (location : Location) :
    (bundlePath location).toList = '/' :: (locationText location).toList := by
  unfold bundlePath
  rw [String.toList_append]
  rfl

theorem segments_bundlePath (hlocation : location ≠ [])
    (hproper : ∀ name ∈ location, ProperName name) :
    Path.segments (bundlePath location) = location := by
  have hkept : (location.map String.toList).filter (fun piece => !piece.isEmpty) =
      location.map String.toList := by
    rw [List.filter_eq_self]
    intro piece hpiece
    rcases List.mem_map.mp hpiece with ⟨name, hname, hsame⟩
    have hsome := (hproper name hname).1.1
    rw [hsame] at hsome
    simpa using hsome
  unfold Path.segments Path.pieces
  rw [toList_bundlePath, Text.splitOn_separator, splitOn_locationText hlocation hproper,
    List.filter_cons_of_neg (by simp), hkept, List.map_map]
  simp

theorem check_bundlePath (hlocation : location ≠ [])
    (hproper : ∀ name ∈ location, ProperName name) :
    Path.check (bundlePath location) = .ok () := by
  rw [Path.check_eq_ok_iff]
  refine .inr ⟨_, toList_bundlePath location, ?_⟩
  rw [splitOn_locationText hlocation hproper]
  intro piece hpiece
  rcases List.mem_map.mp hpiece with ⟨name, hname, hsame⟩
  rw [← hsame]
  exact (hproper name hname).1

theorem bundlePath_ne_root (hlocation : location ≠ [])
    (hproper : ∀ name ∈ location, ProperName name) : bundlePath location ≠ Path.root := by
  intro hroot
  have hsegments := segments_bundlePath hlocation hproper
  rw [hroot] at hsegments
  exact hlocation hsegments.symm

/-!
## What ignore rules keep
-/

/-- What exclusions say of a file or folder below the imported one, or else ignore files. -/
def ruling? (directory : Directory) (exclusions : Exclusions) (root path : Location)
    (isFolder : Bool) : Option Verdict :=
  exclusions.verdict? (locationText path) isFolder <|>
    ignoreVerdict? directory (root ++ path) isFolder

/-- Holds of the files that rules leave out neither by themselves nor by way of a folder above. -/
def ruledIn (directory : Directory) (exclusions : Exclusions) (root path : Location) : Bool :=
  ((way path.dropLast).drop 1).all
    (fun folder => ruling? directory exclusions root folder true != some .leaveOut) &&
    ruling? directory exclusions root path false != some .leaveOut

/-- The bundle of the text files of a folder that some rules keep. Hidden ones are dropped in any
case. -/
def filesKept (directory : Directory) (root : Location) (keeps : Location → Bool) : List File :=
  sortedFiles (((textsBelow directory root).filter fun file =>
    keeps file.1 && file.1.all isVisible).map fun file => File.ofPath (bundlePath file.1) file.2)

theorem comesAlong_eq (directory : Directory) (exclusions : Exclusions) (root path : Location) :
    comesAlong directory exclusions root path =
      (ruledIn directory exclusions root path && path.all isVisible) := by
  rw [Bool.eq_iff_iff, Bool.and_eq_true, List.all_eq_true, ← forall_getLast?_iff]
  have hpasses : ∀ (path : Location) (isFolder : Bool),
      passes directory exclusions root path isFolder =
        (ruling? directory exclusions root path isFolder != some .leaveOut &&
          path.getLast?.all isVisible) := fun _ _ => rfl
  unfold comesAlong ruledIn
  simp only [hpasses, Bool.and_eq_true, List.all_eq_true]
  constructor
  · rintro ⟨habove, hruled, hlast⟩
    exact ⟨⟨fun folder hfolder => (habove folder hfolder).1, hruled⟩,
      fun folder hfolder => (habove folder hfolder).2, hlast⟩
  · rintro ⟨⟨habove, hruled⟩, hvisible, hlast⟩
    exact ⟨fun folder hfolder => ⟨habove folder hfolder, hvisible folder hfolder⟩, hruled, hlast⟩

theorem importedFiles_eq (directory : Directory) (root : Location) (patterns : List String) :
    importedFiles directory root patterns =
      filesKept directory root (ruledIn directory (Exclusions.ofPatterns patterns) root) := by
  unfold importedFiles filesKept
  simp only [comesAlong_eq]

/-!
## The files of a folder
-/

def textBelow? (root : Location) : Location × DirectoryItem → Option (Location × String)
  | (location, .file (.text text)) =>
      if root.isPrefixOf location && root.length < location.length then
        some (location.drop root.length, text)
      else none
  | _ => none

theorem textsBelow_eq (directory : Directory) (root : Location) :
    textsBelow directory root = directory.items.filterMap (textBelow? root) := rfl

theorem textBelow?_eq_some_iff {entry : Location × DirectoryItem} {found : Location × String} :
    textBelow? root entry = some found ↔
      found.1 ≠ [] ∧ entry = (root ++ found.1, .file (.text found.2)) := by
  constructor
  · intro h
    unfold textBelow? at h
    split at h
    · split at h
      · next hbelow =>
          rw [Bool.and_eq_true, List.isPrefixOf_iff_prefix, decide_eq_true_iff] at hbelow
          rcases hbelow with ⟨⟨names, hsplit⟩, hlonger⟩
          cases h
          rw [← hsplit, List.length_append] at hlonger
          rw [← hsplit, List.drop_left]
          refine ⟨?_, rfl⟩
          show names ≠ []
          rw [← List.length_pos_iff]
          omega
      · cases h
    · cases h
  · rintro ⟨hne, hentry⟩
    have hpositive := List.length_pos_iff.mpr hne
    rw [hentry, textBelow?, if_pos]
    · rw [List.drop_left]
    · rw [Bool.and_eq_true, List.isPrefixOf_iff_prefix, decide_eq_true_iff, List.length_append]
      exact ⟨List.prefix_append _ _, by omega⟩

theorem mem_textsBelow_iff (h : directory.IsTree) {found : Location × String} :
    found ∈ textsBelow directory root ↔
      found.1 ≠ [] ∧ directory.content? (root ++ found.1) = some (.text found.2) := by
  rw [textsBelow_eq, List.mem_filterMap]
  simp only [textBelow?_eq_some_iff, content?_eq_some_iff]
  constructor
  · rintro ⟨entry, hmem, hne, hentry⟩
    rw [hentry] at hmem
    exact ⟨hne, (h.item?_eq_some_iff (by simp [hne])).mpr hmem⟩
  · rintro ⟨hne, hitem⟩
    exact ⟨_, (h.item?_eq_some_iff (by simp [hne])).mp hitem, hne, rfl⟩

theorem pairwise_textsBelow (h : directory.IsTree) (root : Location) :
    (textsBelow directory root).Pairwise fun a b => a.1 ≠ b.1 := by
  rw [textsBelow_eq, List.pairwise_filterMap]
  apply (List.pairwise_map.mp h.distinct).imp
  intro entry other hdiffers found hfound last hlast hsame
  apply hdiffers
  rw [(textBelow?_eq_some_iff.mp hfound).2, (textBelow?_eq_some_iff.mp hlast).2, hsame]

/-!
## What is kept obeys the rules
-/

variable {keeps : Location → Bool}

def Kept (directory : Directory) (root : Location) (keeps : Location → Bool) (file : File) : Prop :=
  ∃ location text, location ≠ [] ∧ directory.content? (root ++ location) = some (.text text) ∧
    keeps location = true ∧ location.all isVisible = true ∧
    file = File.ofPath (bundlePath location) text

/-- Holds if a list of files is what some rules keep of a folder, and such that it can be stored
once it has a main configuration. -/
structure Lawful (directory : Directory) (root : Location) (keeps : Location → Bool)
    (files : List File) : Prop where
  mem_iff : ∀ file, file ∈ files ↔ Kept directory root keeps file
  ascending : files.Pairwise fun a b => a.path < b.path
  /-- Paths are well formed, none is the root, and no file lies below another one. -/
  storable : Bundle.Storable files
  /-- Segments only start with a point in the names of placeholders. -/
  visible : ∀ file ∈ files, ∀ segment ∈ Path.segments file.path,
    segment.toList.head? = some '.' → segment = FileKind.placeholderName
  /-- Every file is the one of its path and of the text that is there. -/
  read : ∀ file ∈ files, ∃ text,
    directory.content? (root ++ Path.segments file.path) = some (.text text) ∧
      file = File.ofPath file.path text
  accepted : ∀ id, Bundle.accept id files =
    if File.existsAt files File.mainConfigPath then .ok () else .error (.missingMainConfig id)

theorem mem_filesKept_iff (h : directory.IsTree) {file : File} :
    file ∈ filesKept directory root keeps ↔ Kept directory root keeps file := by
  unfold filesKept sortedFiles Kept
  rw [List.mem_mergeSort, List.mem_map]
  simp only [List.mem_filter, Bool.and_eq_true, mem_textsBelow_iff h]
  constructor
  · rintro ⟨found, ⟨⟨hne, hcontent⟩, hkept, hvisible⟩, hfile⟩
    exact ⟨found.1, found.2, hne, hcontent, hkept, hvisible, hfile.symm⟩
  · rintro ⟨location, text, hne, hcontent, hkept, hvisible, hfile⟩
    exact ⟨(location, text), ⟨⟨hne, hcontent⟩, hkept, hvisible⟩, hfile.symm⟩

theorem properName_of_content? (h : directory.IsTree) {content : FileContent}
    (hcontent : directory.content? (root ++ location) = some content) :
    ∀ name ∈ location, ProperName name := by
  intro name hname
  have hitem := content?_eq_some_iff.mp hcontent
  exact h.properName (hitem ▸ Option.some_ne_none _) name (List.mem_append_right root hname)

theorem exists_of_mem_filesKept (h : directory.IsTree) {file : File}
    (hmem : file ∈ filesKept directory root keeps) :
    ∃ location text, location ≠ [] ∧ (∀ name ∈ location, ProperName name) ∧
      directory.content? (root ++ location) = some (.text text) ∧
      (∀ name ∈ location, isVisible name = true) ∧
        file = File.ofPath (bundlePath location) text := by
  rcases (mem_filesKept_iff h).mp hmem with ⟨location, text, hne, hcontent, _, hvisible, hfile⟩
  exact ⟨location, text, hne, properName_of_content? h hcontent, hcontent,
    List.all_eq_true.mp hvisible, hfile⟩

theorem pairwise_filesKept (h : directory.IsTree) (root : Location) (keeps : Location → Bool) :
    (filesKept directory root keeps).Pairwise fun a b => a.path < b.path := by
  apply Path.pairwise_lt_mergeSort File.path
  rw [List.map_map]
  apply List.pairwise_map.mpr
  apply ((pairwise_textsBelow h root).filter _).imp_of_mem
  intro found last hfound hlast hdiffers hsame
  rcases (mem_textsBelow_iff h).mp (List.mem_of_mem_filter hfound) with ⟨hne, hcontent⟩
  rcases (mem_textsBelow_iff h).mp (List.mem_of_mem_filter hlast) with ⟨hneLast, hcontentLast⟩
  apply hdiffers
  rw [← segments_bundlePath hne (properName_of_content? h hcontent),
    ← segments_bundlePath hneLast (properName_of_content? h hcontentLast)]
  exact congrArg Path.segments hsame

theorem not_isAbove_bundlePath (h : directory.IsTree) {other : Location}
    {content contentOther : FileContent} (hlocation : location ≠ []) (hother : other ≠ [])
    (hcontent : directory.content? (root ++ location) = some content)
    (hcontentOther : directory.content? (root ++ other) = some contentOther) :
    ¬Path.IsAbove (bundlePath location) (bundlePath other) := by
  rintro ⟨more, hmore⟩
  rw [toList_bundlePath, toList_bundlePath, List.append_assoc, List.cons_append,
    List.cons.injEq] at hmore
  rcases exists_append_of_locationText hlocation hother (properName_of_content? h hcontent)
    (properName_of_content? h hcontentOther) hmore.2.symm with ⟨names, hnames, hsplit⟩
  rw [hsplit, ← List.append_assoc] at hcontentOther
  have hitem := content?_eq_some_iff.mp hcontentOther
  have hfolder := isFolder_iff.mp (h.isFolder_above hnames (hitem ▸ Option.some_ne_none _))
  rw [content?_eq_some_iff.mp hcontent] at hfolder
  cases hfolder

theorem storable_filesKept (h : directory.IsTree) :
    Bundle.Storable (filesKept directory root keeps) where
  derived := by
    intro file hmem
    rcases exists_of_mem_filesKept h hmem with ⟨location, text, _, _, _, _, hfile⟩
    rw [hfile]
    exact File.derived_ofPath _ _
  wellFormed := by
    intro file hmem
    rcases exists_of_mem_filesKept h hmem with ⟨location, text, hne, hproper, _, _, hfile⟩
    rw [hfile]
    exact check_bundlePath hne hproper
  notRoot := by
    intro file hmem
    rcases exists_of_mem_filesKept h hmem with ⟨location, text, hne, hproper, _, _, hfile⟩
    rw [hfile]
    exact bundlePath_ne_root hne hproper
  distinct := by
    rw [List.Nodup, List.pairwise_map]
    exact (pairwise_filesKept h root keeps).imp ne_of_lt
  exclusive := by
    intro file hmem other hother
    rcases exists_of_mem_filesKept h hmem with ⟨_, _, hne, _, hcontent, _, hfile⟩
    rcases exists_of_mem_filesKept h hother with
      ⟨_, _, hneOther, _, hcontentOther, _, hfileOther⟩
    rw [hfile, hfileOther]
    exact not_isAbove_bundlePath h hne hneOther hcontent hcontentOther

/-- The bundle is lawful, whatever the rules keep. -/
theorem lawful_filesKept (h : directory.IsTree) (root : Location) (keeps : Location → Bool) :
    Lawful directory root keeps (filesKept directory root keeps) where
  mem_iff := fun file => mem_filesKept_iff h
  ascending := pairwise_filesKept h root keeps
  storable := storable_filesKept h
  visible := by
    intro file hmem segment hsegment hpoint
    rcases exists_of_mem_filesKept h hmem with ⟨location, text, hne, hproper, _, hvisible, hfile⟩
    rw [hfile, File.path_ofPath, segments_bundlePath hne hproper] at hsegment
    have hshown := hvisible segment hsegment
    unfold isVisible at hshown
    rw [hpoint] at hshown
    simpa using hshown
  read := by
    intro file hmem
    rcases exists_of_mem_filesKept h hmem with ⟨location, text, hne, hproper, hcontent, _, hfile⟩
    refine ⟨text, ?_, ?_⟩
    · rw [hfile, File.path_ofPath, segments_bundlePath hne hproper]
      exact hcontent
    · rw [hfile, File.path_ofPath]
  accepted := (storable_filesKept h).accept_eq

/-- What is imported from a tree obeys the rules of the store, whichever files are kept. Those that
are kept by an import are the ones that neither exclusions nor ignore files leave out. -/
theorem bundle_lawful (h : directory.IsTree) (root : Location) (rootText : String)
    (patterns : List String) :
    (∀ keeps, Lawful directory root keeps (filesKept directory root keeps)) ∧
      ∀ files, bundle directory root rootText patterns = .ok files →
        Lawful directory root (ruledIn directory (Exclusions.ofPatterns patterns) root) files := by
  refine ⟨lawful_filesKept h root, ?_⟩
  intro files hfiles
  rw [bundle_eq, importedFiles_eq] at hfiles
  split at hfiles
  · cases hfiles
  · split at hfiles
    · cases hfiles
    · cases hfiles
      exact lawful_filesKept h root _

def hiddenDirectory : Directory :=
  ⟨[(["b"], .folder),
    (["b", "stencil.yml"], .file (.text "stencil:\n  id: demo\n  name: Demo\n")),
    (["b", ".env"], .file (.text "x")),
    (["b", "parts"], .folder),
    (["b", "parts", ".gitkeep"], .file (.text "")),
    (["b", "notes.md"], .file (.text "keep"))]⟩

theorem isTree_hiddenDirectory : hiddenDirectory.IsTree where
  distinct := by
    unfold Directory.Distinct
    decide
  located := by decide
  proper := by
    unfold ProperName Path.ProperPiece
    decide
  rooted := by decide

theorem bundle_hiddenDirectory :
    bundle hiddenDirectory ["b"] "b" ["*.md"] =
      .ok [File.ofPath "/parts/.gitkeep" "",
        File.ofPath "/stencil.yml" "stencil:\n  id: demo\n  name: Demo\n"] := by
  have hkept : ((textsBelow hiddenDirectory ["b"]).filter fun file =>
      comesAlong hiddenDirectory (Exclusions.ofPatterns ["*.md"]) ["b"] file.1) =
      [(["stencil.yml"], "stencil:\n  id: demo\n  name: Demo\n"), (["parts", ".gitkeep"], "")] := by
    decide +kernel
  have hconfig : bundlePath ["stencil.yml"] = "/stencil.yml" := rfl
  have hplaceholder : bundlePath ["parts", ".gitkeep"] = "/parts/.gitkeep" := rfl
  have horder : ¬"/stencil.yml" ≤ "/parts/.gitkeep" := by decide
  rw [bundle_eq, if_neg (by decide), if_neg (by decide), importedFiles, hkept]
  simp [sortedFiles, List.mergeSort, hconfig, hplaceholder, horder]

theorem bundle_lawful_hidden :
    hiddenDirectory.IsTree ∧ ∃ files,
      bundle hiddenDirectory ["b"] "b" ["*.md"] = .ok files ∧
        files.map File.path = ["/parts/.gitkeep", "/stencil.yml"] ∧
        Lawful hiddenDirectory ["b"]
          (ruledIn hiddenDirectory (Exclusions.ofPatterns ["*.md"]) ["b"]) files ∧
        Bundle.accept "demo" files = .ok () := by
  have hlawful := (bundle_lawful isTree_hiddenDirectory ["b"] "b" ["*.md"]).2 _
    bundle_hiddenDirectory
  refine ⟨isTree_hiddenDirectory, _, bundle_hiddenDirectory, rfl, hlawful, ?_⟩
  rw [hlawful.accepted]
  rfl

end Import
end StencilDesk
