import StencilDesk.Proofs.Bundle.Listing
import StencilDesk.Proofs.Bundle.Shape

/-!
# Trees mirror their files

The tree of files at different places lists them in the order of their paths. A path is found in it
as a file if one of the files is there, as a folder if it lies above one of them, and otherwise not
at all.
-/

namespace StencilDesk
namespace TreeNode

/-!
## The order of the files
-/

/-- Holds of paths that are reached from a folder by segments of which the first ones are listed no
later. -/
def ListedFrom (parent : String) (path other : String) : Prop :=
  ∃ names others, (∀ name ∈ names, Path.IsSegment name) ∧ (∀ name ∈ others, Path.IsSegment name) ∧
    path = Path.descend parent names ∧ other = Path.descend parent others ∧
    Path.listedBy names others = true

section
variable {parent path other : String} {nodes : List TreeNode}

theorem ListedFrom.cons {name : String} (hname : Path.IsSegment name)
    (h : ListedFrom (parent ++ "/" ++ name) path other) : ListedFrom parent path other := by
  rcases h with ⟨names, others, hnames, hothers, hpath, hother, hlisted⟩
  refine ⟨name :: names, name :: others, ?_, ?_, hpath, hother, ?_⟩
  · exact List.forall_mem_cons.mpr ⟨hname, hnames⟩
  · exact List.forall_mem_cons.mpr ⟨hname, hothers⟩
  · rw [Path.listedBy, if_pos rfl]
    exact hlisted

theorem ListedFrom.le (h : ListedFrom "" path other) : Path.le path other = true := by
  rcases h with ⟨names, others, hnames, hothers, rfl, rfl, hlisted⟩
  rw [Path.le, Path.segments_descend hnames, Path.segments_descend hothers]
  exact hlisted

theorem Shaped.exists_names (h : Shaped parent nodes) {node : TreeNode} (hnode : node ∈ nodes)
    {leaf : String} (hleaf : leaf ∈ node.leaves) :
    ∃ rest, leaf = Path.descend parent (node.name :: rest) ∧
      (∀ name ∈ node.name :: rest, Path.IsSegment name) ∧ rest.isEmpty = !node.isFolder := by
  induction h generalizing node leaf with
  | of_nodes _ named located _ _ ih =>
      have hname := named node hnode
      have hpath := located node hnode
      cases node with
      | file name path kind =>
          rw [leaves, List.mem_singleton] at hleaf
          refine ⟨[], hleaf.trans hpath, ?_, rfl⟩
          exact List.forall_mem_singleton.mpr hname
      | folder name path children =>
          rw [leaves, leavesOfAll_eq_flatMap, List.mem_flatMap] at hleaf
          rcases hleaf with ⟨child, hchild, hleaf⟩
          rcases ih _ hnode hchild hleaf with ⟨rest, hlocated, hsegments, _⟩
          refine ⟨child.name :: rest, ?_, List.forall_mem_cons.mpr ⟨hname, hsegments⟩, rfl⟩
          rw [hlocated, hpath]
          rfl

theorem Shaped.pairwise_leavesOfAll (h : Shaped parent nodes) :
    (leavesOfAll nodes).Pairwise (ListedFrom parent) := by
  induction h with
  | of_nodes ordered named located filled below ih =>
      have hshaped := Shaped.of_nodes ordered named located filled below
      rw [leavesOfAll_eq_flatMap, List.pairwise_flatMap]
      constructor
      · intro node hnode
        cases node with
        | file name path kind => exact List.pairwise_singleton _ _
        | folder name path children =>
            have hchildren := ih _ hnode
            rw [located _ hnode] at hchildren
            exact hchildren.imp (ListedFrom.cons (named _ hnode))
      · -- Between two siblings the names decide, or that one is a folder.
        apply ordered.imp_of_mem
        intro a b ha hb hab path hpath other hother
        rcases hshaped.exists_names ha hpath with ⟨rest, hlocated, hsegments, hends⟩
        rcases hshaped.exists_names hb hother with ⟨more, hlocatedOther, hsegmentsOther, hendsOther⟩
        refine ⟨_, _, hsegments, hsegmentsOther, hlocated, hlocatedOther, ?_⟩
        rw [Path.listedBy, hends, hendsOther]
        rcases hab with ⟨hfolder, hfile⟩ | ⟨hkind, hlt⟩
        · rw [hfile] at hendsOther
          rw [hfolder, hfile, List.isEmpty_iff.mp hendsOther, Path.listedBy_nil]
          simp
        · have hne : a.name ≠ b.name := by
            intro hsame
            rw [hsame] at hlt
            exact String.lt_irrefl _ hlt
          rw [hkind, if_neg hne, if_pos rfl, decide_eq_true_iff]
          exact Std.le_of_lt hlt

end

theorem descend_of_mem_placesOf {files : List File} {path : String} (h : path ∈ placesOf files) :
    Path.descend "" (Path.segments path) = path := by
  rcases List.mem_map.mp h with ⟨file, _, rfl⟩
  rw [Path.segments_descend fun _ => Path.isSegment_of_mem_segments]

theorem pairwise_filePaths_ofFiles {files : List File} (h : (placesOf files).Nodup) :
    (ofFiles files).filePaths.Pairwise fun path other => Path.le path other = true := by
  rw [ofFiles, filePaths_folder]
  exact (shaped_ofFiles h).pairwise_leavesOfAll.imp ListedFrom.le

theorem eq_of_le_of_le {files others : List File} {path other : String}
    (hpath : path ∈ placesOf files) (hother : other ∈ placesOf others)
    (hle : Path.le path other = true) (hback : Path.le other path = true) : path = other := by
  rw [← descend_of_mem_placesOf hpath, ← descend_of_mem_placesOf hother,
    Path.listedBy_antisymm hle hback]

theorem filePaths_ofFiles {files : List File} (h : (placesOf files).Nodup) :
    (ofFiles files).filePaths = (placesOf files).mergeSort Path.le := by
  have hperm := perm_filePaths_ofFiles files
  have htrans : ∀ a b c, Path.le a b = true → Path.le b c = true → Path.le a c = true :=
    fun _ _ _ => Path.listedBy_trans
  have htotal : ∀ a b, (Path.le a b || Path.le b a) = true :=
    fun _ _ => Path.listedBy_total _ _
  have hsorted := List.pairwise_mergeSort htrans htotal (placesOf files)
  apply List.Perm.eq_of_pairwise _ (pairwise_filePaths_ofFiles h) hsorted
    (hperm.trans (List.mergeSort_perm _ _).symm)
  intro path other hpath hother
  rw [hperm.mem_iff] at hpath
  rw [List.mem_mergeSort] at hother
  exact eq_of_le_of_le hpath hother

theorem filePaths_ofFiles_congr {files others : List File} (h : (placesOf files).Nodup)
    (hothers : (placesOf others).Nodup)
    (hsame : ∀ path, path ∈ placesOf files ↔ path ∈ placesOf others) :
    (ofFiles files).filePaths = (ofFiles others).filePaths := by
  have hperm := perm_filePaths_ofFiles files
  have hpermOthers := perm_filePaths_ofFiles others
  have hplaces : (placesOf files).Perm (placesOf others) :=
    (List.perm_ext_iff_of_nodup h hothers).mpr hsame
  apply List.Perm.eq_of_pairwise _ (pairwise_filePaths_ofFiles h)
    (pairwise_filePaths_ofFiles hothers) (hperm.trans (hplaces.trans hpermOthers.symm))
  intro path other hpath hother
  exact eq_of_le_of_le (hperm.mem_iff.mp hpath) (hpermOthers.mem_iff.mp hother)

/-!
## What is at a path
-/

def mark (node : TreeNode) : String × Option FileKind :=
  (node.path, node.fileKind?)

def marks (nodes : List TreeNode) : List (String × Option FileKind) :=
  (nodes.flatMap TreeNode.nodes).map mark

/-- Holds of the marks of a file that is reached from a folder by some names, and of the folders
on its way. -/
inductive Marks (kind : FileKind) (parent : String) (names : List String) :
    String × Option FileKind → Prop where
  | file (h : names ≠ []) : Marks kind parent names (Path.descend parent names, some kind)
  | folder {first rest : List String} (hnames : names = first ++ rest) (hfirst : first ≠ [])
      (hrest : rest ≠ []) : Marks kind parent names (Path.descend parent first, none)

section
variable {kind : FileKind} {parent : String} {nodes : List TreeNode}
  {found : String × Option FileKind}

theorem marks_single (name : String) :
    Marks kind parent [name] found ↔ found = (parent ++ "/" ++ name, some kind) := by
  constructor
  · intro h
    cases h with
    | file => rfl
    | folder hnames hfirst hrest =>
        -- One name does not split into two parts.
        rcases List.append_eq_singleton_iff.mp hnames.symm with ⟨hnone, _⟩ | ⟨_, hnone⟩
        · exact absurd hnone hfirst
        · exact absurd hnone hrest
  · rintro rfl
    exact .file (List.cons_ne_nil _ _)

theorem marks_cons (name next : String) (rest : List String) :
    Marks kind parent (name :: next :: rest) found ↔
      found = (parent ++ "/" ++ name, none) ∨
        Marks kind (parent ++ "/" ++ name) (next :: rest) found := by
  constructor
  · intro h
    cases h with
    | file => exact .inr (.file (List.cons_ne_nil _ _))
    | folder hnames hfirst hrest =>
        rename_i first more
        rcases List.cons_eq_append_iff.mp hnames with ⟨hnone, _⟩ | ⟨inner, rfl, hinner⟩
        · exact absurd hnone hfirst
        · cases inner with
          | nil => exact .inl rfl
          | cons deeper others =>
              exact .inr (.folder hinner (List.cons_ne_nil _ _) hrest)
  · rintro (rfl | h)
    · have hsplit : name :: next :: rest = [name] ++ (next :: rest) := rfl
      exact .folder hsplit (List.cons_ne_nil _ _) (List.cons_ne_nil _ _)
    · cases h with
      | file => exact .file (List.cons_ne_nil _ _)
      | folder hnames hfirst hrest =>
          exact .folder (by rw [hnames]; rfl) (List.cons_ne_nil _ _) hrest

theorem not_marks_nil : ¬Marks kind parent [] found := by
  intro h
  cases h with
  | file hsome => exact hsome rfl
  | folder hnames hfirst _ => exact hfirst (List.append_eq_nil_iff.mp hnames.symm).1

theorem marks_nil : marks [] = [] := rfl

theorem marks_append (nodes others : List TreeNode) :
    marks (nodes ++ others) = marks nodes ++ marks others := by
  rw [marks, List.flatMap_append, List.map_append]
  rfl

theorem marks_cons_node (node : TreeNode) (rest : List TreeNode) :
    marks (node :: rest) = node.mark :: (marks node.children ++ marks rest) := by
  rw [marks, List.flatMap_cons, nodes_eq, List.map_append, List.map_cons]
  rfl

theorem mem_marks_insertNode (node : TreeNode) (nodes : List TreeNode) :
    found ∈ marks (insertNode node nodes) ↔
      found = node.mark ∨ found ∈ marks node.children ∨ found ∈ marks nodes := by
  have hperm : (marks (insertNode node nodes)).Perm (marks (node :: nodes)) :=
    ((perm_insertNode node nodes).flatMap_right _).map _
  rw [hperm.mem_iff, marks_cons_node, List.mem_cons, List.mem_append]

/-- A file that is added leaves its marks, and those of the folders on its way. -/
theorem mem_marks_addFile {names : List String} (hnames : names ≠ []) (h : Shaped parent nodes) :
    found ∈ marks (addFile kind parent names nodes) ↔
      Marks kind parent names found ∨ found ∈ marks nodes := by
  induction names generalizing parent nodes with
  | nil => exact absurd rfl hnames
  | cons name rest ih =>
      cases rest with
      | nil =>
          rw [addFile, mem_marks_insertNode, marks_single]
          simp [marks, mark, children, TreeNode.path, fileKind?]
      | cons next others =>
          have hbelow : ∀ {children}, Shaped (parent ++ "/" ++ name) children →
              (found ∈ marks (addFile kind (parent ++ "/" ++ name) (next :: others) children) ↔
                Marks kind (parent ++ "/" ++ name) (next :: others) found ∨
                  found ∈ marks children) :=
            ih (List.cons_ne_nil _ _)
          rw [addFile, marks_cons]
          split
          · rcases exists_folderNamed h.unambiguous ‹_› with
              ⟨before, path, children, after, hsplit, _, hmap⟩
            have hmem : folder name path children ∈ nodes := by
              rw [hsplit]
              exact List.mem_append_right _ List.mem_cons_self
            rcases (shaped_iff.mp h).2 _ hmem with ⟨_, hpath, _, hchildren⟩
            have hsame : path = parent ++ "/" ++ name := hpath
            rw [hsame] at hchildren hsplit hmap
            have hadded := hbelow hchildren
            rw [TreeNode.children] at hadded
            rw [hmap, hsplit]
            simp only [marks_append, marks_cons_node, List.mem_append, List.mem_cons, mark,
              TreeNode.path, fileKind?, TreeNode.children, hadded]
            grind
          · have hadded := hbelow (shaped_nil (parent ++ "/" ++ name))
            simp only [marks_nil, List.not_mem_nil, or_false] at hadded
            rw [mem_marks_insertNode]
            simp only [mark, TreeNode.path, fileKind?, TreeNode.children]
            grind

end

theorem mem_marks_ofFiles {files : List File} (h : (placesOf files).Nodup)
    {found : String × Option FileKind} :
    found ∈ marks (ofFiles files).children ↔
      ∃ file ∈ files, Marks file.kind "" (Path.segments file.path) found := by
  induction files using List.reverseRecOn with
  | nil => simp [ofFiles, children, marks_nil]
  | append_singleton files file ih =>
      rw [children_ofFiles_concat]
      simp only [List.mem_append, List.mem_singleton, or_and_right, exists_or, exists_eq_left]
      by_cases hnames : Path.segments file.path = []
      · rw [placesOf_concat_of_nil files hnames] at h
        rw [hnames, addFile, ih h, or_iff_left not_marks_nil]
      · rw [placesOf_concat files hnames, List.nodup_append] at h
        rw [mem_marks_addFile hnames (shaped_ofFiles h.1), ih h.1, or_comm]

theorem marks_segments_iff {file : File} (hcheck : Path.check file.path = .ok ())
    (hroot : file.path ≠ Path.root) {path : String} {kind? : Option FileKind} :
    Marks file.kind "" (Path.segments file.path) (path, kind?) ↔
      path = file.path ∧ kind? = some file.kind ∨
        path ≠ "" ∧ Path.IsAbove path file.path ∧ kind? = none := by
  rcases Path.descend_segments hcheck hroot with ⟨hsome, hspelled⟩
  constructor
  · intro h
    cases h with
    | file => exact .inl ⟨hspelled, rfl⟩
    | folder hnames hfirst hrest =>
        refine .inr ⟨Path.descend_ne_empty hfirst, ?_, rfl⟩
        rw [← hspelled, hnames]
        exact Path.isAbove_descend hrest
  · rintro (⟨rfl, rfl⟩ | ⟨hempty, habove, rfl⟩)
    · have hmark : Marks file.kind "" (Path.segments file.path) _ := .file hsome
      rw [hspelled] at hmark
      exact hmark
    · rcases Path.segments_of_isAbove hcheck habove hempty with
        ⟨hwell, hbelowRoot, rest, hrest, hnames⟩
      rcases Path.descend_segments hwell hbelowRoot with ⟨hfirst, hspelledAbove⟩
      rw [← hspelledAbove]
      exact .folder hnames hfirst hrest

/-!
## Looking for a path
-/

section
variable {tree : TreeNode} {path : String}

theorem find?_path : tree.find? tree.path = some tree := by
  rw [find?, nodes_eq, List.find?_cons_of_pos (by simp)]

theorem find?_eq_below (h : path ≠ tree.path) :
    tree.find? path =
      (tree.children.flatMap TreeNode.nodes).find? fun node => node.path == path := by
  rw [find?, nodes_eq, List.find?_cons_of_neg (by simpa using h.symm)]

theorem mark_of_find? {node : TreeNode} (h : path ≠ tree.path)
    (hfound : tree.find? path = some node) :
    node ∈ tree.children.flatMap TreeNode.nodes ∧
      (path, node.fileKind?) ∈ marks tree.children := by
  rw [find?_eq_below h] at hfound
  have hmem := List.mem_of_find?_eq_some hfound
  have hpath : node.path = path := by simpa using List.find?_some hfound
  refine ⟨hmem, ?_⟩
  rw [← hpath]
  exact List.mem_map_of_mem hmem

theorem exists_find? {kind? : Option FileKind} (h : path ≠ tree.path)
    (hmark : (path, kind?) ∈ marks tree.children) : ∃ node, tree.find? path = some node := by
  rw [← Option.isSome_iff_exists, find?_eq_below h, List.find?_isSome]
  rcases List.mem_map.mp hmark with ⟨node, hmem, hnode⟩
  refine ⟨node, hmem, ?_⟩
  rw [beq_iff_eq]
  exact congrArg Prod.fst hnode

end

/-!
## What a tree says of its files
-/

/-- Holds of files at different well formed paths below the root, none of which lies below another
one. -/
structure Separate (files : List File) : Prop where
  wellFormed : ∀ file ∈ files, Path.check file.path = .ok ()
  notRoot : ∀ file ∈ files, file.path ≠ Path.root
  distinct : (files.map File.path).Nodup
  exclusive : ∀ file ∈ files, ∀ other ∈ files, ¬Path.IsAbove file.path other.path

/-- Holds if a tree shows some files, the folders above them, and nothing else, all in order. -/
structure Mirrors (files : List File) (tree : TreeNode) : Prop where
  located : ∀ node ∈ tree.nodes, ∀ child ∈ node.children,
    child.path = Path.join node.path child.name
  filled : ∀ node ∈ tree.nodes, ∀ child ∈ node.children,
    child.isFolder = true → child.children ≠ []
  ordered : ∀ node ∈ tree.nodes, node.children.Pairwise Precedes
  listed : tree.filePaths.Perm (files.map File.path)
  sorted : tree.filePaths = (files.map File.path).mergeSort Path.le
  counted : tree.fileCount = files.length
  file_found : ∀ file ∈ files,
    tree.find? file.path = some (.file (Path.name file.path) file.path file.kind)
  folder_found : ∀ path,
    (path = Path.root ∨ ∃ file ∈ files, path ≠ "" ∧ Path.IsAbove path file.path) →
    ∃ name children, tree.find? path = some (.folder name path children)
  not_found : ∀ path, path ≠ Path.root → (∀ file ∈ files, path ≠ file.path) →
    (∀ file ∈ files, path ≠ "" → ¬Path.IsAbove path file.path) → tree.find? path = none

section
variable {files : List File} {path : String}

theorem Separate.placesOf_eq (h : Separate files) : placesOf files = files.map File.path :=
  Bundle.Addressed.placesOf_eq ⟨h.wellFormed, h.notRoot, h.distinct⟩

theorem Separate.nodup_placesOf (h : Separate files) : (placesOf files).Nodup := by
  rw [h.placesOf_eq]
  exact h.distinct

/-- Every folder of a tree is shaped: the root as a folder without a name, the others below their
paths. -/
theorem exists_shaped_of_mem {files : List File} (h : (placesOf files).Nodup) {node : TreeNode}
    (hmem : node ∈ (ofFiles files).nodes) :
    ∃ parent, Shaped parent node.children ∧
      ∀ name, Path.join node.path name = parent ++ "/" ++ name := by
  rw [nodes_eq, List.mem_cons] at hmem
  rcases hmem with rfl | hbelow
  · refine ⟨"", shaped_ofFiles h, ?_⟩
    intro name
    rw [String.empty_append]
    exact if_pos rfl
  · rcases (shaped_ofFiles h).of_mem hbelow with ⟨_, hroot, hshaped⟩
    refine ⟨node.path, hshaped, ?_⟩
    intro name
    exact if_neg hroot

theorem Separate.mem_marks_iff (h : Separate files) {kind? : Option FileKind} :
    (path, kind?) ∈ marks (ofFiles files).children ↔
      (∃ file ∈ files, path = file.path ∧ kind? = some file.kind) ∨
        ∃ file ∈ files, path ≠ "" ∧ Path.IsAbove path file.path ∧ kind? = none := by
  rw [mem_marks_ofFiles h.nodup_placesOf, ← exists_or]
  apply exists_congr
  intro file
  rw [← and_or_left]
  apply and_congr_right
  intro hmem
  exact marks_segments_iff (h.wellFormed file hmem) (h.notRoot file hmem)

theorem Separate.file_found (h : Separate files) {file : File} (hmem : file ∈ files) :
    (ofFiles files).find? file.path =
      some (.file (Path.name file.path) file.path file.kind) := by
  have hroot : file.path ≠ (ofFiles files).path := h.notRoot file hmem
  rcases exists_find? hroot (h.mem_marks_iff.mpr (.inl ⟨file, hmem, rfl, rfl⟩)) with ⟨node, hnode⟩
  rcases mark_of_find? hroot hnode with ⟨hbelow, hmark⟩
  have hkind : node.fileKind? = some file.kind := by
    rcases h.mem_marks_iff.mp hmark with
      ⟨other, hother, hpath, hkind⟩ | ⟨other, hother, _, habove, _⟩
    · rw [List.inj_on_of_nodup_map h.distinct hmem hother hpath]
      exact hkind
    · exact absurd habove (h.exclusive file hmem other hother)
  have hpath : node.path = file.path := by simpa using List.find?_some hnode
  have hname := ((shaped_ofFiles h.nodup_placesOf).of_mem hbelow).1
  rw [hnode]
  cases node with
  | folder _ _ _ => cases hkind
  | file name path kind =>
      cases hkind
      have hnamed : Path.name path = name := hname
      have hlocated : path = file.path := hpath
      rw [← hnamed, hlocated]

theorem Separate.folder_found (h : Separate files) {file : File} (hmem : file ∈ files)
    (hempty : path ≠ "") (habove : Path.IsAbove path file.path) :
    ∃ name children, (ofFiles files).find? path = some (.folder name path children) := by
  have hroot : path ≠ (ofFiles files).path :=
    (Path.segments_of_isAbove (h.wellFormed file hmem) habove hempty).2.1
  rcases exists_find? hroot (h.mem_marks_iff.mpr (.inr ⟨file, hmem, hempty, habove, rfl⟩)) with
    ⟨node, hnode⟩
  rcases mark_of_find? hroot hnode with ⟨_, hmark⟩
  have hkind : node.fileKind? = none := by
    rcases h.mem_marks_iff.mp hmark with ⟨other, hother, hpath, _⟩ | ⟨_, _, _, _, hnone⟩
    · rw [hpath] at habove
      exact absurd habove (h.exclusive other hother file hmem)
    · exact hnone
  have hpath : node.path = path := by simpa using List.find?_some hnode
  cases node with
  | file _ _ _ => cases hkind
  | folder name _ children =>
      cases hpath
      exact ⟨name, children, hnode⟩

theorem Separate.not_found (h : Separate files) (hroot : path ≠ Path.root)
    (hfile : ∀ file ∈ files, path ≠ file.path)
    (hfolder : ∀ file ∈ files, path ≠ "" → ¬Path.IsAbove path file.path) :
    (ofFiles files).find? path = none := by
  rw [Option.eq_none_iff_forall_ne_some]
  intro node hnode
  have hmark := (mark_of_find? hroot hnode).2
  rcases h.mem_marks_iff.mp hmark with ⟨file, hmem, hpath, _⟩ | ⟨file, hmem, hempty, habove, _⟩
  · exact hfile file hmem hpath
  · exact hfolder file hmem hempty habove

end

/-- The tree of separate files shows them, the folders above them, and nothing else. -/
theorem mirrors_ofFiles {files : List File} (h : Separate files) :
    Mirrors files (ofFiles files) := by
  have hplaces := h.nodup_placesOf
  have hperm : (ofFiles files).filePaths.Perm (files.map File.path) := by
    rw [← h.placesOf_eq]
    exact perm_filePaths_ofFiles files
  constructor
  · intro node hmem child hchild
    rcases exists_shaped_of_mem hplaces hmem with ⟨parent, hshaped, hjoin⟩
    rw [hjoin]
    exact ((shaped_iff.mp hshaped).2 child hchild).2.1
  · intro node hmem child hchild
    rcases exists_shaped_of_mem hplaces hmem with ⟨parent, hshaped, _⟩
    exact ((shaped_iff.mp hshaped).2 child hchild).2.2.1
  · intro node hmem
    rcases exists_shaped_of_mem hplaces hmem with ⟨parent, hshaped, _⟩
    exact (shaped_iff.mp hshaped).1
  · exact hperm
  · rw [filePaths_ofFiles hplaces, h.placesOf_eq]
  · rw [fileCount, hperm.length_eq, List.length_map]
  · exact fun file hmem => h.file_found hmem
  · rintro path (rfl | ⟨file, hmem, hempty, habove⟩)
    · exact ⟨_, _, find?_path⟩
    · exact h.folder_found hmem hempty habove
  · exact fun path hroot hfile hfolder => h.not_found hroot hfile hfolder

def nestedFiles : List File :=
  [File.ofPath "/b.ftl" "", File.ofPath "/conf/env/a_shared.yml" "",
    File.ofPath "/conf.d/.gitkeep" "", File.ofPath "/stencil.yml" "",
    File.ofPath "/conf/env.yml" "", File.ofPath "/B/x/y/z.ftl" ""]

theorem separate_nestedFiles : Separate nestedFiles := by
  have hstorable : Bundle.Storable nestedFiles := by
    apply Bundle.Acceptable.storable
    refine ⟨?_, by decide, "demo", rfl⟩
    simp [File.AllDerived, nestedFiles, File.derived_ofPath]
  exact ⟨hstorable.wellFormed, hstorable.notRoot, hstorable.distinct, hstorable.exclusive⟩

theorem mirrors_ofFiles_nested : Separate nestedFiles ∧ Mirrors nestedFiles (ofFiles nestedFiles) :=
  ⟨separate_nestedFiles, mirrors_ofFiles separate_nestedFiles⟩

end TreeNode
end StencilDesk
