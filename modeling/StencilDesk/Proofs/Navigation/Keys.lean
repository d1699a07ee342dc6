import StencilDesk.Proofs.Navigation.Selection

/-!
# The keys of a navigator

The rows are the nodes of the tree, from top to bottom, without those that lie in a folder that is
not expanded. Left goes to the folder that a node lies in and right to the first node in a folder,
although neither looks at the tree; up and down undo each other, and so does choosing a folder
twice.
-/

namespace StencilDesk
namespace Navigator

open TreeNode

section
variable {n m : Navigator} {before after : List VisibleRow} {row : VisibleRow} {path : String}

/-!
## Rows and nodes
-/

def Unfolded (n : Navigator) (node : TreeNode) : Prop :=
  ∀ folder ∈ n.tree.descendants, node ∈ folder.descendants → folder.path ∈ n.expanded

def rowAt (n : Navigator) (depth : Nat) (node : TreeNode) : VisibleRow where
  path := node.path
  name := node.name
  depth := depth
  isFolder := node.isFolder
  expanded := node.isFolder && n.isExpanded node.path

theorem isShown_iff_unfolded (h : Regular n.tree) {l : Lineage} (hmem : l ∈ n.tree.lineagesBelow) :
    l.isShown n.expanded = true ↔ n.Unfolded l.node := by
  rw [isShown_iff]
  constructor
  · intro hopen folder hbelow hin
    exact hopen folder ((h.mem_above_iff hmem).mpr ⟨hbelow, hin⟩)
  · intro hopen folder hfolder
    rcases (h.mem_above_iff hmem).mp hfolder with ⟨hbelow, hin⟩
    exact hopen folder hbelow hin

open Classical in
/-- The rows are those of the unfolded nodes, in the order of the tree and as deep as in it. -/
theorem rows_eq_unfolded (h : Regular n.tree) :
    n.rows = ((rowsOfAll 0 n.tree.children).filter fun place => n.Unfolded place.2).map
      fun place => n.rowAt place.1 place.2 := by
  have hplaces : n.tree.lineagesBelow.map (fun l => (l.above.length, l.node)) =
      rowsOfAll 0 n.tree.children := map_lineagesOfAll [] n.tree.children
  rw [rows_eq, shownRows, ← hplaces, List.filter_map, List.map_map]
  have hkept : n.tree.lineagesBelow.filter (fun l => l.isShown n.expanded) =
      n.tree.lineagesBelow.filter fun l => n.Unfolded l.node := by
    apply List.filter_congr
    intro l hmem
    rw [Bool.eq_iff_iff, isShown_iff_unfolded h hmem, decide_eq_true_iff]
  rw [hkept]
  rfl

/-!
## Up and down
-/

theorem select_selected {other : Option String} (h : n.selected = other) :
    { n with selected := other } = n := by
  rw [← h]

theorem Sound.moved_down (h : n.Sound) (hmoved : n.press .down = (.moved path, m)) :
    ∃ before row next after, n.rows = before ++ row :: next :: after ∧
      n.selected = some row.path ∧ m = { n with selected := some next.path } := by
  rcases h.press_cases .down with hnothing | ⟨before, row, after, hrows, hselected, hpress⟩
  · rw [hnothing] at hmoved
    cases hmoved
  · rw [hpress, pressAt] at hmoved
    cases after with
    | nil => cases hmoved
    | cons next rest =>
        exact ⟨before, row, next, rest, hrows, hselected, (congrArg Prod.snd hmoved).symm⟩

theorem Sound.moved_up (h : n.Sound) (hmoved : n.press .up = (.moved path, m)) :
    ∃ before previous row after, n.rows = before ++ previous :: row :: after ∧
      n.selected = some row.path ∧ m = { n with selected := some previous.path } := by
  rcases h.press_cases .up with hnothing | ⟨before, row, after, hrows, hselected, hpress⟩
  · rw [hnothing] at hmoved
    cases hmoved
  · rw [hpress, pressAt] at hmoved
    cases hreverse : before.reverse with
    | nil =>
        rw [hreverse] at hmoved
        cases hmoved
    | cons previous rest =>
        rw [hreverse] at hmoved
        refine ⟨rest.reverse, previous, row, after, ?_, hselected, (congrArg Prod.snd hmoved).symm⟩
        rw [hrows, List.reverse_eq_iff.mp hreverse, List.reverse_cons, List.append_assoc]
        rfl

theorem Sound.up_down (h : n.Sound) (hmoved : n.press .down = (.moved path, m)) :
    (m.press .up).2 = n := by
  have hsound := h.of_press hmoved
  rcases h.moved_down hmoved with ⟨before, row, next, after, hrows, hselected, rfl⟩
  have hsplit : { n with selected := some next.path }.rows =
      (before ++ [row]) ++ next :: after := by
    rw [List.append_assoc]
    exact hrows
  rw [hsound.press_eq hsplit rfl, pressAt, List.reverse_append]
  exact select_selected hselected

theorem Sound.down_up (h : n.Sound) (hmoved : n.press .up = (.moved path, m)) :
    (m.press .down).2 = n := by
  have hsound := h.of_press hmoved
  rcases h.moved_up hmoved with ⟨before, previous, row, after, hrows, hselected, rfl⟩
  have hsplit : { n with selected := some previous.path }.rows =
      before ++ previous :: row :: after := hrows
  rw [hsound.press_eq hsplit rfl, pressAt]
  exact select_selected hselected

/-!
## Left and right
-/

/-- Holds of a row before another one that is that of its folder, the nearest one less deep. -/
structure IsUpper (n : Navigator) (before : List VisibleRow) (row upper : VisibleRow) : Prop where
  nearest : ∃ earlier between, before = earlier ++ upper :: between ∧
    upper.depth + 1 = row.depth ∧ ∀ other ∈ between, other.depth + 1 ≠ row.depth
  parent : ∃ folder ∈ n.tree.descendants, folder.path = upper.path ∧
    ∃ child ∈ folder.children, child.path = row.path

theorem Sound.press_left (h : n.Sound) (hrows : n.rows = before ++ row :: after)
    (hselected : n.selected = some row.path) (hclosed : (row.isFolder && row.expanded) = false)
    (hdepth : 0 < row.depth) :
    ∃ upper, n.IsUpper before row upper ∧
      n.press .left = (.moved upper.path, { n with selected := some upper.path }) := by
  rcases exists_row_above h.regular hrows hdepth with
    ⟨earlier, upper, between, hbefore, hupper, hbetween, hpath, hroot, hparent⟩
  refine ⟨upper, ⟨⟨earlier, between, hbefore, hupper, ?_⟩, hparent⟩, ?_⟩
  · intro other hother
    exact Nat.ne_of_gt (Nat.lt_succ_of_le (hbetween other hother))
  · rw [h.press_eq hrows hselected, pressAt, hclosed, ← hpath, if_neg hroot]
    rfl

theorem Sound.press_right (h : n.Sound) (hrows : n.rows = before ++ row :: after)
    (hselected : n.selected = some row.path) (hfolder : row.isFolder = true)
    (hexpanded : row.expanded = true) :
    ∃ folder ∈ n.tree.descendants, folder.path = row.path ∧ ∃ child rest,
      folder.children = child :: rest ∧
        n.press .right = (.moved child.path, { n with selected := some child.path }) := by
  rcases exists_row_behind h.regular hrows hexpanded with
    ⟨folder, hmem, hpath, child, rest, hchildren, next, hnext, hchild, hdepth⟩
  refine ⟨folder, hmem, hpath, child, rest, hchildren, ?_⟩
  have hdeeper : (some next).filter (fun other => row.depth < other.depth) = some next := by
    rw [Option.filter_some, hdepth, decide_eq_true (Nat.lt_succ_self row.depth)]
    rfl
  rw [h.press_eq hrows hselected, pressAt, hfolder, hexpanded, hnext, hdeeper, ← hchild]
  rfl

/-!
## Choosing a folder
-/

/-- Holds of navigators over one tree that select one path and expand the same folders, whatever
the order in which these were expanded. -/
structure Alike (n m : Navigator) : Prop where
  tree : n.tree = m.tree
  selected : n.selected = m.selected
  expanded : ∀ path, path ∈ n.expanded ↔ path ∈ m.expanded

theorem Sound.press_enter (h : n.Sound) (hselected : n.selected = some path)
    (hfolder : HasFolder n.tree path) :
    (n.press .enter).2 = if path ∈ n.expanded then n.collapse path else n.expand path := by
  rcases h.exists_split hselected with ⟨before, row, after, hrows, rfl⟩
  rcases hfolder with ⟨folder, hmem, hkind, hpath⟩
  rcases exists_node_of_row (mem_rows_of_split hrows) with ⟨node, hnode, hsame, hrowKind, hexpanded⟩
  have heq : node = folder := h.regular.eq_of_path_eq hnode hmem (hsame.trans hpath.symm)
  rw [← hrowKind, heq, hkind, Bool.true_and, isExpanded] at hexpanded
  rw [h.press_eq hrows hselected, pressAt, ← hrowKind, heq, hkind, hexpanded]
  by_cases hin : row.path ∈ n.expanded
  · rw [if_pos hin, List.contains_iff_mem.mpr hin]
    rfl
  · rw [if_neg hin, Bool.eq_false_iff.mpr (mt List.contains_iff_mem.mp hin)]
    rfl

theorem Sound.enter_enter (h : n.Sound) (hselected : n.selected = some path)
    (hfolder : HasFolder n.tree path) : Alike ((n.press .enter).2.press .enter).2 n := by
  have hfirst := h.press_enter hselected hfolder
  have hsound := h.press .enter
  by_cases hin : path ∈ n.expanded
  · rw [if_pos hin] at hfirst
    rw [hfirst] at hsound
    have hnot : path ∉ (n.collapse path).expanded := fun hmem => (mem_collapse_iff.mp hmem).2 rfl
    rw [hfirst, hsound.press_enter hselected hfolder, if_neg hnot]
    refine ⟨rfl, rfl, ?_⟩
    intro other
    rw [mem_expand_iff, mem_collapse_iff]
    by_cases hsame : other = path
    · simp [hsame, hin]
    · simp [hsame]
  · rw [if_neg hin] at hfirst
    rw [hfirst] at hsound
    have hmem : path ∈ (n.expand path).expanded := mem_expand_iff.mpr (.inl rfl)
    rw [hfirst, hsound.press_enter hselected hfolder, if_pos hmem]
    refine ⟨rfl, rfl, ?_⟩
    intro other
    rw [mem_collapse_iff, mem_expand_iff]
    by_cases hsame : other = path
    · simp [hsame, hin]
    · simp [hsame]

theorem Alike.rows_eq (h : Alike n m) : n.rows = m.rows := by
  have hcontains : ∀ path, n.expanded.contains path = m.expanded.contains path := by
    intro path
    rw [Bool.eq_iff_iff, List.contains_iff_mem, List.contains_iff_mem]
    exact h.expanded path
  rw [Navigator.rows_eq, Navigator.rows_eq, h.tree]
  simp only [shownRows, Lineage.isShown, Lineage.row, hcontains]

/-!
## What every key does
-/

theorem Pressed.keeps {outcome : NavigationOutcome} (h : Pressed n row outcome m) :
    m.selected = n.selected ∨ m.expanded = n.expanded := by
  cases h with
  | unchanged => exact .inl rfl
  | openFile => exact .inl rfl
  | moved _ => exact .inr rfl
  | expanded _ => exact .inl rfl
  | collapsed => exact .inl rfl

theorem Sound.keeps (h : n.Sound) (key : NavigationKey) :
    (n.press key).2.selected = n.selected ∨ (n.press key).2.expanded = n.expanded := by
  rcases h.press_cases key with hnothing | ⟨before, row, after, hrows, hselected, _⟩
  · rw [hnothing]
    exact .inl rfl
  · exact (h.pressed hrows hselected key).keeps

end

open Classical in
structure FollowsTree (n : Navigator) : Prop where
  rows : n.rows = ((rowsOfAll 0 n.tree.children).filter fun place => n.Unfolded place.2).map
    fun place => n.rowAt place.1 place.2
  down_then_up : ∀ path m, n.press .down = (.moved path, m) → (m.press .up).2 = n
  up_then_down : ∀ path m, n.press .up = (.moved path, m) → (m.press .down).2 = n
  left : ∀ before row after, n.rows = before ++ row :: after → n.selected = some row.path →
    (row.isFolder && row.expanded) = false → 0 < row.depth →
    ∃ upper, n.IsUpper before row upper ∧
      n.press .left = (.moved upper.path, { n with selected := some upper.path })
  right : ∀ row ∈ n.rows, n.selected = some row.path → row.isFolder = true →
    row.expanded = true →
    ∃ folder ∈ n.tree.descendants, folder.path = row.path ∧ ∃ child rest,
      folder.children = child :: rest ∧
        n.press .right = (.moved child.path, { n with selected := some child.path })
  enter_twice : ∀ path, n.selected = some path → HasFolder n.tree path →
    Alike ((n.press .enter).2.press .enter).2 n ∧
      ((n.press .enter).2.press .enter).2.rows = n.rows
  one_change : ∀ key,
    (n.press key).2.selected = n.selected ∨ (n.press key).2.expanded = n.expanded

/-- However it was reached, a navigator follows its tree. -/
theorem followsTree_of_reachable {n : Navigator} (h : n.Reachable) : n.FollowsTree where
  rows := rows_eq_unfolded h.sound.regular
  down_then_up := fun _ _ => h.sound.up_down
  up_then_down := fun _ _ => h.sound.down_up
  left := fun _ _ _ => h.sound.press_left
  right := by
    intro row hmem hselected hfolder hexpanded
    rcases List.append_of_mem hmem with ⟨before, after, hrows⟩
    exact h.sound.press_right hrows hselected hfolder hexpanded
  enter_twice := by
    intro path hselected hfolder
    have hlike := h.sound.enter_enter hselected hfolder
    exact ⟨hlike, hlike.rows_eq⟩
  one_change := h.sound.keeps

theorem followsTree_raised : raised.Reachable ∧ raised.FollowsTree :=
  ⟨reachable_raised, followsTree_of_reachable reachable_raised⟩

end Navigator
end StencilDesk
