import StencilDesk.Bundle.Tree
import StencilDesk.Proofs.Bundle.Paths

/-!
# What a tree lists

A tree lists the files that it was built from, each once and under the path that its segments spell.
That is the path of the file, if it is well formed and not the root. No folder is there twice, so a
file that is added finds one place.
-/

namespace StencilDesk
namespace Path

/-!
## Paths and their segments
-/

def descend (parent : String) (names : List String) : String :=
  names.foldl (fun path name => path ++ "/" ++ name) parent

theorem toList_descend (parent : String) (names : List String) :
    (descend parent names).toList =
      parent.toList ++ names.flatMap fun name => '/' :: name.toList := by
  induction names generalizing parent with
  | nil => simp [descend]
  | cons name rest ih =>
      rw [descend, List.foldl_cons, ← descend, ih]
      simp

theorem flatMap_separator {pieces : List (List Char)} (h : pieces ≠ []) :
    (pieces.flatMap fun piece => '/' :: piece) = '/' :: Text.joinWith '/' pieces := by
  induction pieces with
  | nil => exact absurd rfl h
  | cons piece rest ih =>
      cases rest with
      | nil => simp [Text.joinWith]
      | cons next others =>
          rw [List.flatMap_cons, ih (List.cons_ne_nil _ _)]
          rfl

theorem segments_of_proper {path : String} {rest : List Char} (hpath : path.toList = '/' :: rest)
    (h : ∀ piece ∈ Text.splitOn '/' rest, ProperPiece piece) :
    segments path = (Text.splitOn '/' rest).map String.ofList := by
  have hkept : (Text.splitOn '/' rest).filter (fun piece => !piece.isEmpty) =
      Text.splitOn '/' rest := by
    rw [List.filter_eq_self]
    intro piece hmem
    simpa using (h piece hmem).1
  unfold segments pieces
  rw [hpath, Text.splitOn_separator, List.filter_cons_of_neg (by simp), hkept]

theorem descend_segments {path : String} (h : check path = .ok ()) (hroot : path ≠ root) :
    segments path ≠ [] ∧ descend "" (segments path) = path := by
  rcases (check_eq_ok_iff.mp h).resolve_left hroot with ⟨rest, hpath, hproper⟩
  have hsegments := segments_of_proper hpath hproper
  have hsome := Text.splitOn_ne_nil '/' rest
  constructor
  · rw [hsegments]
    simpa using hsome
  · apply String.toList_inj.mp
    rw [toList_descend, hsegments, List.flatMap_map, hpath]
    simp only [String.toList_ofList]
    rw [flatMap_separator hsome, Text.joinWith_splitOn]
    rfl

end Path

namespace TreeNode

/-!
## The files of a tree
-/

mutual

def leaves : TreeNode → List String
  | file _ path _ => [path]
  | folder _ _ children => leavesOfAll children

def leavesOfAll : List TreeNode → List String
  | [] => []
  | node :: rest => leaves node ++ leavesOfAll rest

end

mutual

theorem paths_rows : ∀ (depth : Nat) (node : TreeNode),
    (((rows depth node).map Prod.snd).filter fun node => !node.isFolder).map path = leaves node
  | _, file _ _ _ => rfl
  | depth, folder _ _ children => by
      rw [rows, leaves, List.map_cons, List.filter_cons_of_neg (by simp [isFolder])]
      exact paths_rowsOfAll (depth + 1) children

theorem paths_rowsOfAll : ∀ (depth : Nat) (nodes : List TreeNode),
    (((rowsOfAll depth nodes).map Prod.snd).filter fun node => !node.isFolder).map path =
      leavesOfAll nodes
  | _, [] => rfl
  | depth, node :: rest => by
      rw [rowsOfAll, leavesOfAll, List.map_append, List.filter_append, List.map_append,
        paths_rows depth node, paths_rowsOfAll depth rest]

end

theorem filePaths_folder (name path : String) (children : List TreeNode) :
    (folder name path children).filePaths = leavesOfAll children := by
  unfold filePaths nodes
  rw [rows, List.map_cons, List.drop_one, List.tail_cons]
  exact paths_rowsOfAll 1 children

theorem leavesOfAll_eq_flatMap (nodes : List TreeNode) :
    leavesOfAll nodes = nodes.flatMap leaves := by
  induction nodes with
  | nil => rfl
  | cons node rest ih => rw [leavesOfAll, List.flatMap_cons, ih]

theorem leavesOfAll_append (nodes others : List TreeNode) :
    leavesOfAll (nodes ++ others) = leavesOfAll nodes ++ leavesOfAll others := by
  simp only [leavesOfAll_eq_flatMap, List.flatMap_append]

theorem perm_leavesOfAll {nodes others : List TreeNode} (h : nodes.Perm others) :
    (leavesOfAll nodes).Perm (leavesOfAll others) := by
  rw [leavesOfAll_eq_flatMap, leavesOfAll_eq_flatMap]
  exact h.flatMap_right leaves

/-!
## Folders of one name
-/

/-- Holds of nodes that are not both folders of one name. -/
def Apart (a b : TreeNode) : Prop :=
  a.isFolder = true → b.isFolder = true → a.name ≠ b.name

/-- Holds of siblings if no two of them are folders of one name, nor are any two further below. -/
inductive Unambiguous : List TreeNode → Prop where
  | of_apart {nodes : List TreeNode} (apart : nodes.Pairwise Apart)
      (below : ∀ node ∈ nodes, Unambiguous node.children) : Unambiguous nodes

theorem Apart.symm {a b : TreeNode} (h : Apart a b) : Apart b a := by
  intro hb ha hsame
  exact h ha hb hsame.symm

theorem unambiguous_nil : Unambiguous [] := by
  apply Unambiguous.of_apart List.Pairwise.nil
  intro node hmem
  cases hmem

theorem isFolderNamed_iff {node : TreeNode} {name : String} :
    node.isFolderNamed name = true ↔ node.isFolder = true ∧ node.name = name := by
  unfold isFolderNamed
  rw [Bool.and_eq_true, beq_iff_eq]

theorem perm_insertNode (node : TreeNode) (nodes : List TreeNode) :
    (insertNode node nodes).Perm (node :: nodes) := by
  induction nodes with
  | nil => exact List.Perm.refl _
  | cons first rest ih =>
      unfold insertNode
      split
      · exact (ih.cons first).trans (List.Perm.swap node first rest)
      · exact List.Perm.refl _

theorem Unambiguous.insertNode {node : TreeNode} {nodes : List TreeNode} (h : Unambiguous nodes)
    (hnode : Unambiguous node.children) (hapart : ∀ other ∈ nodes, Apart node other) :
    Unambiguous (insertNode node nodes) := by
  cases h with
  | of_apart apart below =>
      have hperm := perm_insertNode node nodes
      constructor
      · rw [hperm.pairwise_iff Apart.symm]
        exact List.pairwise_cons.mpr ⟨hapart, apart⟩
      · intro other hmem
        rcases List.mem_cons.mp (hperm.mem_iff.mp hmem) with hsame | hold
        · rw [hsame]
          exact hnode
        · exact below other hold

theorem Unambiguous.mapChildren {f : List TreeNode → List TreeNode} {nodes : List TreeNode}
    (h : Unambiguous nodes) (hf : ∀ children, Unambiguous children → Unambiguous (f children))
    (name : String) :
    Unambiguous (nodes.map fun node =>
      if node.isFolderNamed name then node.mapChildren f else node) := by
  cases h with
  | of_apart apart below =>
      have hsame : ∀ node : TreeNode,
          (if node.isFolderNamed name then node.mapChildren f else node).isFolder = node.isFolder ∧
            (if node.isFolderNamed name then node.mapChildren f else node).name = node.name := by
        intro node
        split
        · cases node with
          | file _ _ _ => exact ⟨rfl, rfl⟩
          | folder _ _ _ => exact ⟨rfl, rfl⟩
        · exact ⟨rfl, rfl⟩
      constructor
      · rw [List.pairwise_map]
        apply apart.imp
        intro a b hab
        unfold Apart
        rw [(hsame a).1, (hsame a).2, (hsame b).1, (hsame b).2]
        exact hab
      · intro other hmem
        rcases List.mem_map.mp hmem with ⟨node, hnode, hother⟩
        rw [← hother]
        split
        · cases node with
          | file _ _ _ => exact unambiguous_nil
          | folder _ _ children => exact hf children (below _ hnode)
        · exact below node hnode

theorem isFolderNamed_of_apart {node : TreeNode} {name path : String} {children : List TreeNode}
    (h : Apart node (folder name path children)) : node.isFolderNamed name = false := by
  rw [Bool.eq_false_iff]
  intro hnamed
  rcases isFolderNamed_iff.mp hnamed with ⟨hfolder, hname⟩
  exact h hfolder rfl hname

theorem mapChildren_of_none {f : List TreeNode → List TreeNode} {name : String}
    {nodes : List TreeNode} (h : ∀ node ∈ nodes, node.isFolderNamed name = false) :
    (nodes.map fun node => if node.isFolderNamed name then node.mapChildren f else node) =
      nodes := by
  conv => rhs; rw [← List.map_id nodes]
  apply List.map_congr_left
  intro node hmem
  rw [h node hmem]
  rfl

/-- The folder of a name stands alone, so a change below the folders of the name is one below it. -/
theorem exists_folderNamed {nodes : List TreeNode} (h : Unambiguous nodes) {name : String}
    (hthere : nodes.any (isFolderNamed name) = true) :
    ∃ before path children after, nodes = before ++ folder name path children :: after ∧
      Unambiguous children ∧
      ∀ f, (nodes.map fun node => if node.isFolderNamed name then node.mapChildren f else node) =
        before ++ folder name path (f children) :: after := by
  rcases List.any_eq_true.mp hthere with ⟨node, hmem, hnamed⟩
  rcases List.append_of_mem hmem with ⟨before, after, hsplit⟩
  rcases isFolderNamed_iff.mp hnamed with ⟨hfolder, hname⟩
  cases node with
  | file _ _ _ => cases hfolder
  | folder _ path children =>
      cases h with
      | of_apart apart below =>
          cases hname
          rw [hsplit, List.pairwise_append, List.pairwise_cons] at apart
          rcases apart with ⟨_, ⟨hafter, _⟩, hbefore⟩
          refine ⟨before, path, children, after, hsplit, below _ hmem, ?_⟩
          intro f
          rw [hsplit, List.map_append, List.map_cons, if_pos hnamed, mapChildren_of_none,
            mapChildren_of_none]
          · rfl
          · intro other hlater
            exact isFolderNamed_of_apart (hafter other hlater).symm
          · intro other hearlier
            exact isFolderNamed_of_apart (hbefore other hearlier _ List.mem_cons_self)

/-!
## Adding a file
-/

theorem Unambiguous.addFile (kind : FileKind) {names : List String} {parent : String}
    {nodes : List TreeNode} (h : Unambiguous nodes) :
    Unambiguous (addFile kind parent names nodes) := by
  induction names generalizing parent nodes with
  | nil => exact h
  | cons name rest ih =>
      cases rest with
      | nil =>
          have hleaf : Unambiguous (file name (parent ++ "/" ++ name) kind).children :=
            unambiguous_nil
          rw [TreeNode.addFile]
          apply h.insertNode hleaf
          intro other _ hfile
          cases hfile
      | cons next others =>
          let path := parent ++ "/" ++ name
          have hopened : Unambiguous
              (folder name path (TreeNode.addFile kind path (next :: others) [])).children :=
            ih unambiguous_nil
          rw [TreeNode.addFile]
          split
          · exact h.mapChildren (fun _ => ih) name
          · next hnone =>
              apply h.insertNode hopened
              intro other hmem _ hfolder hname
              apply hnone
              rw [List.any_eq_true]
              exact ⟨other, hmem, isFolderNamed_iff.mpr ⟨hfolder, hname.symm⟩⟩

theorem perm_leavesOfAll_addFile (kind : FileKind) {names : List String} (hnames : names ≠ [])
    {parent : String} {nodes : List TreeNode} (h : Unambiguous nodes) :
    (leavesOfAll (TreeNode.addFile kind parent names nodes)).Perm
      (Path.descend parent names :: leavesOfAll nodes) := by
  -- Along the names of the path; the folders on its way are opened, or there already.
  induction names generalizing parent nodes with
  | nil => exact absurd rfl hnames
  | cons name rest ih =>
      cases rest with
      | nil =>
          rw [TreeNode.addFile]
          exact perm_leavesOfAll (perm_insertNode _ nodes)
      | cons next others =>
          have hbelow : ∀ {children}, Unambiguous children →
              (leavesOfAll (TreeNode.addFile kind (parent ++ "/" ++ name) (next :: others)
                children)).Perm
                (Path.descend parent (name :: next :: others) :: leavesOfAll children) :=
            ih (List.cons_ne_nil _ _)
          rw [TreeNode.addFile]
          split
          · rcases exists_folderNamed h ‹_› with
              ⟨before, path, children, after, hsplit, hchildren, hmap⟩
            rw [hmap, hsplit, leavesOfAll_append, leavesOfAll_append, leavesOfAll, leaves,
              leavesOfAll, leaves]
            exact (((hbelow hchildren).append_right _).append_left _).trans List.perm_middle
          · apply (perm_leavesOfAll (perm_insertNode _ nodes)).trans
            rw [leavesOfAll, leaves]
            exact (hbelow unambiguous_nil).append_right _

/-!
## The tree of a list of files
-/

def ListsAs (path : String) (file : File) : Prop :=
  Path.segments file.path ≠ [] ∧ path = Path.descend "" (Path.segments file.path)

def placesOf (files : List File) : List String :=
  (files.filter fun file => !(Path.segments file.path).isEmpty).map fun file =>
    Path.descend "" (Path.segments file.path)

theorem perm_leavesOfAll_foldl (files : List File) {nodes : List TreeNode}
    (h : Unambiguous nodes) :
    (leavesOfAll (files.foldl
      (fun nodes file => addFile file.kind "" (Path.segments file.path) nodes) nodes)).Perm
      (placesOf files ++ leavesOfAll nodes) := by
  induction files generalizing nodes with
  | nil => exact List.Perm.refl _
  | cons file rest ih =>
      rw [List.foldl_cons]
      apply (ih (h.addFile file.kind)).trans
      unfold placesOf
      by_cases hnames : Path.segments file.path = []
      · rw [hnames, List.filter_cons_of_neg (by simp [hnames])]
        exact List.Perm.refl _
      · rw [List.filter_cons_of_pos (by simpa using hnames), List.map_cons]
        exact ((perm_leavesOfAll_addFile _ hnames h).append_left _).trans List.perm_middle

theorem perm_filePaths_ofFiles (files : List File) :
    (ofFiles files).filePaths.Perm (placesOf files) := by
  unfold ofFiles
  rw [filePaths_folder, ← List.append_nil (placesOf files)]
  exact perm_leavesOfAll_foldl files unambiguous_nil

/-- A tree lists its files, each under the path that its segments spell. -/
theorem mem_filePaths_ofFiles {files : List File} {path : String} :
    path ∈ (ofFiles files).filePaths ↔ ∃ file ∈ files, ListsAs path file := by
  rw [(perm_filePaths_ofFiles files).mem_iff]
  unfold placesOf ListsAs
  simp only [List.mem_map, List.mem_filter, Bool.not_eq_true', List.isEmpty_eq_false_iff, and_assoc]
  simp only [eq_comm]

theorem ofFiles_congr {files others : List File}
    (h : (files.map fun file => (file.path, file.kind)) =
      others.map fun file => (file.path, file.kind)) : ofFiles files = ofFiles others := by
  have hplaces : ∀ list : List File,
      list.foldl (fun nodes file => addFile file.kind "" (Path.segments file.path) nodes) [] =
        (list.map fun file => (file.path, file.kind)).foldl
          (fun nodes place => addFile place.2 "" (Path.segments place.1) nodes) [] := by
    intro list
    rw [List.foldl_map]
  unfold ofFiles
  rw [hplaces files, hplaces others, h]

theorem path_mem_filePaths {files : List File} {file : File} (hmem : file ∈ files)
    (hcheck : Path.check file.path = .ok ()) (hroot : file.path ≠ Path.root) :
    file.path ∈ (ofFiles files).filePaths := by
  rcases Path.descend_segments hcheck hroot with ⟨hsome, hsame⟩
  exact mem_filePaths_ofFiles.mpr ⟨file, hmem, hsome, hsame.symm⟩

end TreeNode
end StencilDesk
