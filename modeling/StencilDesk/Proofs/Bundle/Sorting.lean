import StencilDesk.Proofs.Bundle.Arrangement

/-!
# Trees as sorted trees

A tree is the same if its files are put behind each other as they come, and all its folders are
sorted in the end. The sort keeps the order of nodes that are alike, and so does a node that goes
behind those that are listed no later.
-/

namespace StencilDesk
namespace TreeNode

def appendFile (kind : FileKind) : String → List String → List TreeNode → List TreeNode
  | _, [], nodes => nodes
  | parent, [name], nodes => nodes ++ [file name (parent ++ "/" ++ name) kind]
  | parent, name :: next :: rest, nodes =>
      let path := parent ++ "/" ++ name
      if nodes.any (isFolderNamed name) then
        nodes.map (changeNamed name (appendFile kind path (next :: rest)))
      else nodes ++ [folder name path (appendFile kind path (next :: rest) [])]

mutual

def sorted : TreeNode → TreeNode
  | file name path kind => file name path kind
  | folder name path children => folder name path ((sortedAll children).mergeSort le)

def sortedAll : List TreeNode → List TreeNode
  | [] => []
  | node :: rest => sorted node :: sortedAll rest

end

/-- The tree of files that are added as they come. -/
def ofArrivals (files : List File) : TreeNode :=
  folder Path.root Path.root
    (files.foldl (fun nodes file => appendFile file.kind "" (Path.segments file.path) nodes) [])

/-!
## Sorting one more node
-/

section
variable {node : TreeNode}

def insertBefore (node : TreeNode) : List TreeNode → List TreeNode
  | [] => [node]
  | first :: rest =>
      if node.le first then node :: first :: rest else first :: insertBefore node rest

theorem insertBefore_append {before after : List TreeNode}
    (hbefore : ∀ other ∈ before, (!node.le other) = true)
    (hafter : ∀ other ∈ after, node.le other = true) :
    insertBefore node (before ++ after) = before ++ node :: after := by
  induction before with
  | nil =>
      cases after with
      | nil => rfl
      | cons first rest => exact if_pos (hafter first List.mem_cons_self)
  | cons first rest ih =>
      rw [List.forall_mem_cons] at hbefore
      rw [List.cons_append, insertBefore, if_neg (by simpa using hbefore.1), ih hbefore.2]
      rfl

theorem mergeSort_cons_eq (node : TreeNode) (nodes : List TreeNode) :
    (node :: nodes).mergeSort le = insertBefore node (nodes.mergeSort le) := by
  have htrans : ∀ a b c : TreeNode, a.le b = true → b.le c = true → a.le c = true :=
    fun _ _ _ => le_trans
  have htotal : ∀ a b : TreeNode, (a.le b || b.le a) = true := by
    intro a b
    rw [Bool.or_eq_true]
    exact le_total a b
  rcases List.mergeSort_cons htrans htotal node nodes with ⟨before, after, hfirst, hrest, hbefore⟩
  have hsorted := List.pairwise_mergeSort htrans htotal (node :: nodes)
  rw [hfirst, List.pairwise_append, List.pairwise_cons] at hsorted
  rw [hfirst, hrest, insertBefore_append hbefore hsorted.2.1.1]

theorem insertNode_insertBefore (first node : TreeNode) (nodes : List TreeNode) :
    insertNode node (insertBefore first nodes) = insertBefore first (insertNode node nodes) := by
  induction nodes with
  | nil => grind [insertNode, insertBefore]
  | cons next rest ih =>
      have hbehind : first.le next = true → next.le node = true → first.le node = true := le_trans
      have hbefore : first.le node = true → node.le next = true → first.le next = true := le_trans
      have htotal := le_total next node
      grind [insertNode, insertBefore]

theorem mergeSort_concat (nodes : List TreeNode) (node : TreeNode) :
    (nodes ++ [node]).mergeSort le = insertNode node (nodes.mergeSort le) := by
  induction nodes with
  | nil => simp [insertNode]
  | cons first rest ih =>
      rw [List.cons_append, mergeSort_cons_eq, ih, mergeSort_cons_eq, insertNode_insertBefore]

end

/-!
## Sorting in the end
-/

theorem sortedAll_eq_map (nodes : List TreeNode) : sortedAll nodes = nodes.map sorted := by
  induction nodes with
  | nil => rfl
  | cons node rest ih => rw [sortedAll, ih, List.map_cons]

theorem mergeSort_sortedAll_nil : (sortedAll []).mergeSort le = [] := by
  rw [sortedAll, List.mergeSort_nil]

theorem isFolderNamed_sorted (name : String) (node : TreeNode) :
    node.sorted.isFolderNamed name = node.isFolderNamed name := by
  cases node <;> rfl

theorem sorted_changeNamed {name : String} {f g : List TreeNode → List TreeNode}
    (h : ∀ children, (sortedAll (f children)).mergeSort le = g ((sortedAll children).mergeSort le))
    (node : TreeNode) : (changeNamed name f node).sorted = changeNamed name g node.sorted := by
  rw [changeNamed, changeNamed, isFolderNamed_sorted]
  split
  · cases node with
    | file _ _ _ => rfl
    | folder _ _ children =>
        show folder _ _ _ = folder _ _ _
        rw [h]
  · rfl

theorem mergeSort_map_changeNamed (name : String) (f : List TreeNode → List TreeNode)
    (nodes : List TreeNode) :
    (nodes.map (changeNamed name f)).mergeSort le =
      (nodes.mergeSort le).map (changeNamed name f) := by
  symm
  apply List.map_mergeSort
  intro a _ b _
  exact (le_changeNamed a b).symm

/-- To sort after a file was added is to add it where it belongs. -/
theorem mergeSort_appendFile (kind : FileKind) (parent : String) (names : List String)
    (nodes : List TreeNode) :
    (sortedAll (appendFile kind parent names nodes)).mergeSort le =
      addFile kind parent names ((sortedAll nodes).mergeSort le) := by
  induction names generalizing parent nodes with
  | nil => rfl
  | cons name rest ih =>
      cases rest with
      | nil =>
          rw [appendFile, addFile, sortedAll_eq_map, List.map_append, ← sortedAll_eq_map,
            List.map_singleton, sorted, mergeSort_concat]
      | cons next others =>
          have hany : ((sortedAll nodes).mergeSort le).any (isFolderNamed name) =
              nodes.any (isFolderNamed name) := by
            rw [(List.mergeSort_perm _ _).any_eq, sortedAll_eq_map, List.any_map]
            congr 1
            funext node
            exact isFolderNamed_sorted name node
          rw [addFile_eq_changeFolder, changeFolder, hany, appendFile]
          split
          · rw [← mergeSort_map_changeNamed, sortedAll_eq_map, sortedAll_eq_map, List.map_map,
              List.map_map]
            congr 1
            apply List.map_congr_left
            intro node _
            exact sorted_changeNamed (ih _) node
          · have hopened := ih (parent ++ "/" ++ name) []
            rw [mergeSort_sortedAll_nil] at hopened
            rw [sortedAll_eq_map, List.map_append, ← sortedAll_eq_map, List.map_singleton, sorted,
              mergeSort_concat, hopened]

theorem mergeSort_foldl_appendFile (files : List File) (nodes : List TreeNode) :
    (sortedAll (files.foldl (fun nodes file =>
        appendFile file.kind "" (Path.segments file.path) nodes) nodes)).mergeSort le =
      files.foldl (fun nodes file => addFile file.kind "" (Path.segments file.path) nodes)
        ((sortedAll nodes).mergeSort le) := by
  induction files generalizing nodes with
  | nil => rfl
  | cons file rest ih => rw [List.foldl_cons, List.foldl_cons, ih, mergeSort_appendFile]

/-- A tree is that of its files as they come, sorted in the end. -/
theorem ofFiles_eq_sorted (files : List File) : ofFiles files = (ofArrivals files).sorted := by
  rw [ofArrivals, sorted, mergeSort_foldl_appendFile, mergeSort_sortedAll_nil]
  rfl

end TreeNode
end StencilDesk
