import StencilDesk.Navigation.Navigator
import StencilDesk.Proofs.Navigation.Lineages

/-!
# The rows of a navigator

A node has a row exactly if all folders that it lies in are expanded. So the row of its nearest
folder comes before its own one, with only deeper rows in between, and the row of the first child of
an expanded folder comes right behind that of the folder.
-/

namespace StencilDesk
namespace TreeNode

def Lineage.isShown (expanded : List String) (l : Lineage) : Bool :=
  l.above.all fun folder => expanded.contains folder.path

def Lineage.row (expanded : List String) (l : Lineage) : VisibleRow where
  path := l.node.path
  name := l.node.name
  depth := l.above.length
  isFolder := l.node.isFolder
  expanded := l.node.isFolder && expanded.contains l.node.path

def shownRows (expanded : List String) (list : List Lineage) : List VisibleRow :=
  (list.filter fun l => l.isShown expanded).map fun l => l.row expanded

section
variable {expanded : List String} {l : Lineage} {list others : List Lineage}

theorem isShown_iff : l.isShown expanded = true ↔ ∀ folder ∈ l.above, folder.path ∈ expanded := by
  simp [Lineage.isShown]

theorem shownRows_append :
    shownRows expanded (list ++ others) =
      shownRows expanded list ++ shownRows expanded others := by
  rw [shownRows, List.filter_append, List.map_append]
  rfl

theorem shownRows_cons_of_shown (h : l.isShown expanded = true) :
    shownRows expanded (l :: list) = l.row expanded :: shownRows expanded list := by
  rw [shownRows, List.filter_cons_of_pos h, List.map_cons]
  rfl

theorem shownRows_eq_nil (h : ∀ l ∈ list, l.isShown expanded = false) :
    shownRows expanded list = [] := by
  rw [shownRows, List.map_eq_nil_iff, List.filter_eq_nil_iff]
  intro l hmem
  rw [h l hmem]
  exact Bool.false_ne_true

theorem mem_shownRows_iff {row : VisibleRow} :
    row ∈ shownRows expanded list ↔
      ∃ l ∈ list, l.isShown expanded = true ∧ l.row expanded = row := by
  simp [shownRows, and_assoc]

theorem shownRows_split {before after : List VisibleRow} {row : VisibleRow}
    (h : shownRows expanded list = before ++ row :: after) :
    ∃ earlier l later, list = earlier ++ l :: later ∧ l.isShown expanded = true ∧
      l.row expanded = row ∧ before = shownRows expanded earlier ∧
      after = shownRows expanded later := by
  rcases List.map_eq_append_iff.mp h with ⟨first, rest, hfiltered, hbefore, hrest⟩
  rcases List.map_eq_cons_iff.mp hrest with ⟨l, last, rfl, hrow, hafter⟩
  rcases List.filter_eq_append_iff.mp hfiltered with ⟨start, behind, hsplit, hstart, hbehind⟩
  rcases List.filter_eq_cons_iff.mp hbehind with ⟨hidden, later, rfl, hhidden, hshown, hlater⟩
  refine ⟨start ++ hidden, l, later, ?_, hshown, hrow, ?_, ?_⟩
  · rw [hsplit, List.append_assoc]
  · have hnone : shownRows expanded hidden = [] :=
      shownRows_eq_nil fun other hmem => by simpa using hhidden other hmem
    rw [shownRows_append, hnone, List.append_nil, shownRows, hstart, hbefore]
  · rw [shownRows, hlater, hafter]

theorem hidden_of_mem_lineagesOfAll {above nodes : List TreeNode} {folder : TreeNode}
    (hfolder : folder ∈ above) (hclosed : folder.path ∉ expanded) :
    ∀ l ∈ lineagesOfAll above nodes, l.isShown expanded = false := by
  intro l hmem
  rw [Bool.eq_false_iff]
  intro hshown
  have hsuffix := suffix_of_mem_lineagesOfAll above nodes l hmem
  exact hclosed (isShown_iff.mp hshown folder (hsuffix.subset hfolder))

mutual

theorem visibleRows_eq : ∀ (above : List TreeNode) (node : TreeNode),
    (∀ folder ∈ above, folder.path ∈ expanded) →
    visibleRows expanded above.length node = shownRows expanded (lineages above node)
  | above, file name path kind, hopen => by
      rw [lineages, shownRows_cons_of_shown (isShown_iff.mpr hopen)]
      rfl
  | above, folder name path children, hopen => by
      rw [lineages, shownRows_cons_of_shown (isShown_iff.mpr hopen), visibleRows]
      by_cases hexpanded : path ∈ expanded
      · have hall : ∀ other ∈ folder name path children :: above, other.path ∈ expanded :=
          List.forall_mem_cons.mpr ⟨hexpanded, hopen⟩
        rw [if_pos (List.contains_iff_mem.mpr hexpanded), ← visibleRowsOfAll_eq _ children hall]
        simp [Lineage.row, TreeNode.path, TreeNode.name, isFolder, hexpanded]
      · have hclosed : (folder name path children).path ∉ expanded := hexpanded
        rw [if_neg (by simpa using hexpanded),
          shownRows_eq_nil (hidden_of_mem_lineagesOfAll List.mem_cons_self hclosed)]
        simp [Lineage.row, TreeNode.path, TreeNode.name, isFolder, hexpanded]

/-- The rows of nodes in expanded folders are those of all that is shown of them. -/
theorem visibleRowsOfAll_eq : ∀ (above nodes : List TreeNode),
    (∀ folder ∈ above, folder.path ∈ expanded) →
    visibleRowsOfAll expanded above.length nodes = shownRows expanded (lineagesOfAll above nodes)
  | above, [], _ => rfl
  | above, node :: rest, hopen => by
      rw [visibleRowsOfAll, lineagesOfAll, shownRows_append, visibleRows_eq above node hopen,
        visibleRowsOfAll_eq above rest hopen]

end

end

end TreeNode

namespace Navigator

open TreeNode

section
variable {n : Navigator} {before after : List VisibleRow} {row : VisibleRow} {path : String}

theorem rows_eq (n : Navigator) : n.rows = shownRows n.expanded n.tree.lineagesBelow := by
  apply visibleRowsOfAll_eq []
  intro folder hmem
  cases hmem

/-- Holds of the paths that a row can be seen of. -/
def Visible (n : Navigator) (path : String) : Prop :=
  ∃ row ∈ n.rows, row.path = path

theorem visible_iff : n.Visible path ↔
    ∃ l ∈ n.tree.lineagesBelow, l.isShown n.expanded = true ∧ l.node.path = path := by
  unfold Visible
  simp only [rows_eq, mem_shownRows_iff]
  constructor
  · rintro ⟨row, ⟨l, hmem, hshown, rfl⟩, hpath⟩
    exact ⟨l, hmem, hshown, hpath⟩
  · rintro ⟨l, hmem, hshown, hpath⟩
    exact ⟨_, ⟨l, hmem, hshown, rfl⟩, hpath⟩

theorem isSelectionVisible_iff :
    n.isSelectionVisible = true ↔ ∃ path, n.selected = some path ∧ n.Visible path := by
  unfold isSelectionVisible Visible
  simp only [Option.any_eq_true, List.any_eq_true, beq_iff_eq]

theorem nodup_rows (h : Regular n.tree) : (n.rows.map VisibleRow.path).Nodup := by
  have hsub : (n.rows.map VisibleRow.path).Sublist (n.tree.descendants.map TreeNode.path) := by
    rw [rows_eq, shownRows, ← map_node_lineagesBelow, List.map_map, List.map_map]
    exact List.filter_sublist.map _
  exact h.distinct.sublist hsub

theorem exists_node_of_row (hmem : row ∈ n.rows) :
    ∃ node ∈ n.tree.descendants, node.path = row.path ∧ node.isFolder = row.isFolder ∧
      row.expanded = (row.isFolder && n.isExpanded row.path) := by
  rw [rows_eq, mem_shownRows_iff] at hmem
  rcases hmem with ⟨l, hl, _, rfl⟩
  exact ⟨l.node, mem_descendants_of_lineage hl, rfl, rfl, rfl⟩

/-!
## Rows next to a row
-/

/-- Above a row that is not at the top stands the row of the folder that its node lies in. -/
theorem exists_row_above (h : Regular n.tree) (hrows : n.rows = before ++ row :: after)
    (hdepth : 0 < row.depth) :
    ∃ earlier upper between, before = earlier ++ upper :: between ∧
      upper.depth + 1 = row.depth ∧ (∀ other ∈ between, row.depth ≤ other.depth) ∧
      upper.path = Path.parent row.path ∧ upper.path ≠ Path.root ∧
      ∃ folder ∈ n.tree.descendants, folder.path = upper.path ∧
        ∃ child ∈ folder.children, child.path = row.path := by
  rw [rows_eq] at hrows
  rcases shownRows_split hrows with ⟨start, l, behind, hsplit, hshown, hrow, hbefore, hafter⟩
  have hmem : l ∈ n.tree.lineagesBelow := by
    rw [hsplit]
    exact List.mem_append_right _ List.mem_cons_self
  cases nests_of_lineagesOfAll [] n.tree.children hsplit with
  | top habove _ =>
      rw [← hrow, Lineage.row, habove] at hdepth
      cases hdepth
  | inside habove hchild hstart hbetween =>
      rename_i folder rest earlier between
      have hopen := isShown_iff.mp hshown
      rw [habove] at hopen
      have hupper : Lineage.isShown n.expanded ⟨rest, folder⟩ = true :=
        isShown_iff.mpr fun other hother => hopen other (List.mem_cons_of_mem _ hother)
      have hlineage : (⟨folder :: rest, l.node⟩ : Lineage) ∈ n.tree.lineagesBelow := by
        rw [← habove]
        exact hmem
      have hfolder := mem_descendants_of_lineage (inside_of_mem hlineage).1
      refine ⟨shownRows n.expanded earlier, Lineage.row n.expanded ⟨rest, folder⟩,
        shownRows n.expanded between, ?_, ?_, ?_, ?_, (h.shaped_of_mem hfolder).1, folder, hfolder,
        rfl, l.node, hchild, ?_⟩
      · rw [hbefore, hstart, shownRows_append, shownRows_cons_of_shown hupper]
      · rw [← hrow, Lineage.row, Lineage.row, habove, List.length_cons]
      · intro other hother
        rcases mem_shownRows_iff.mp hother with ⟨deeper, hdeeper, _, rfl⟩
        rw [← hrow]
        exact (hbetween deeper hdeeper).length_le
      · rw [← hrow]
        exact (h.parent_of_inside hlineage).symm
      · rw [← hrow]
        rfl

theorem parent_of_top_row (h : Regular n.tree) (hmem : row ∈ n.rows) (hdepth : row.depth = 0) :
    Path.parent row.path = Path.root := by
  rw [rows_eq, mem_shownRows_iff] at hmem
  rcases hmem with ⟨l, hl, _, rfl⟩
  have habove : l.above = [] := List.length_eq_zero_iff.mp hdepth
  have htop : ⟨[], l.node⟩ ∈ n.tree.lineagesBelow := by
    rw [← habove]
    exact hl
  exact h.parent_of_top htop

/-- Behind the row of an expanded folder comes that of its first child. -/
theorem exists_row_behind (h : Regular n.tree) (hrows : n.rows = before ++ row :: after)
    (hexpanded : row.expanded = true) :
    ∃ folder ∈ n.tree.descendants, folder.path = row.path ∧ ∃ child rest,
      folder.children = child :: rest ∧ ∃ next, after.head? = some next ∧
        next.path = child.path ∧ next.depth = row.depth + 1 := by
  rw [rows_eq] at hrows
  rcases shownRows_split hrows with ⟨start, l, behind, hsplit, hshown, hrow, _, hafter⟩
  have hmem : l.node ∈ n.tree.descendants := by
    apply mem_descendants_of_lineage
    rw [hsplit]
    exact List.mem_append_right _ List.mem_cons_self
  have hopen : l.node.isFolder = true ∧ l.node.path ∈ n.expanded := by
    rw [← hrow] at hexpanded
    simpa [Lineage.row] using hexpanded
  cases hchildren : l.node.children with
  | nil => exact absurd hchildren (h.shaped.children_ne_nil hmem hopen.1)
  | cons child rest =>
      rcases List.head?_eq_some_iff.mp (head?_of_lineagesOfAll [] n.tree.children hsplit hchildren)
        with ⟨later, hbehind⟩
      have hnext : Lineage.isShown n.expanded ⟨l.node :: l.above, child⟩ = true :=
        isShown_iff.mpr (List.forall_mem_cons.mpr ⟨hopen.2, isShown_iff.mp hshown⟩)
      rw [hbehind, shownRows_cons_of_shown hnext] at hafter
      refine ⟨l.node, hmem, ?_, child, rest, hchildren,
        Lineage.row n.expanded ⟨l.node :: l.above, child⟩, ?_, rfl, ?_⟩
      · rw [← hrow]
        rfl
      · rw [hafter]
        rfl
      · rw [← hrow]
        rfl

end

end Navigator
end StencilDesk
