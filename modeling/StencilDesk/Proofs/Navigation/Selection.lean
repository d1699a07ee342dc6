import StencilDesk.Proofs.Navigation.Rows

/-!
# The selection of a navigator

Keys, revealed paths and rebuilt trees leave a navigator sound: only folders of its tree are
expanded, and it selects a row that can be seen, if there is any. So revealing shows every node of
the tree, and a rebuilt tree moves the selection only where its row is gone.
-/

namespace StencilDesk
namespace TreeNode

theorem isFolder_of_mem_descendants {node other : TreeNode} (h : other ∈ node.descendants) :
    node.isFolder = true := by
  cases node with
  | file _ _ _ => cases h
  | folder _ _ _ => rfl

section
variable {tree node : TreeNode} {path : String}

theorem exists_of_find? (h : tree.find? path = some node) :
    node ∈ tree.nodes ∧ node.path = path :=
  ⟨List.mem_of_find?_eq_some h, by simpa using List.find?_some h⟩

theorem Regular.exists_below (h : Regular tree) (hroot : path ≠ Path.root)
    (hmem : node ∈ tree.nodes) (hpath : node.path = path) : node ∈ tree.descendants := by
  rw [nodes_eq, List.mem_cons] at hmem
  rcases hmem with rfl | hbelow
  · exact absurd (hpath.symm.trans h.rooted) hroot
  · exact hbelow

theorem Regular.find?_path (h : Regular tree) (hmem : node ∈ tree.descendants) :
    tree.find? node.path = some node := by
  have hnode := mem_nodes_of_descendant hmem
  cases hfound : tree.find? node.path with
  | none =>
      have hnot := List.find?_eq_none.mp hfound node hnode
      exact absurd (beq_self_eq_true node.path) hnot
  | some other =>
      rcases exists_of_find? hfound with ⟨hother, hpath⟩
      have hbelow := h.exists_below (h.shaped_of_mem hmem).1 hother hpath
      rw [h.eq_of_path_eq hbelow hmem hpath]

def HasFolder (tree : TreeNode) (path : String) : Prop :=
  ∃ folder ∈ tree.descendants, folder.isFolder = true ∧ folder.path = path

theorem Regular.hasFolder_iff (h : Regular tree) :
    HasFolder tree path ↔ path ≠ Path.root ∧ Navigator.isFolderIn tree path = true := by
  unfold Navigator.isFolderIn
  constructor
  · rintro ⟨folder, hmem, hfolder, rfl⟩
    rw [h.find?_path hmem]
    exact ⟨(h.shaped_of_mem hmem).1, hfolder⟩
  · rintro ⟨hroot, hin⟩
    rcases (Option.any_eq_true _ _).mp hin with ⟨folder, hfound, hfolder⟩
    rcases exists_of_find? hfound with ⟨hmem, hpath⟩
    exact ⟨folder, h.exists_below hroot hmem hpath, hfolder, hpath⟩

end

end TreeNode

namespace Navigator

open TreeNode

section
variable {n : Navigator} {before after : List VisibleRow} {row : VisibleRow} {path other : String}

/-!
## What stays visible
-/

theorem mem_expand_iff : other ∈ (n.expand path).expanded ↔ other = path ∨ other ∈ n.expanded :=
  List.mem_insert_iff

theorem mem_collapse_iff :
    other ∈ (n.collapse path).expanded ↔ other ∈ n.expanded ∧ other ≠ path := by
  simp [collapse]

theorem tree_foldl_expand (paths : List String) (n : Navigator) :
    (paths.foldl expand n).tree = n.tree := by
  induction paths generalizing n with
  | nil => rfl
  | cons first rest ih => exact ih (n.expand first)

theorem mem_foldl_expand_iff {paths : List String} {n : Navigator} :
    other ∈ (paths.foldl expand n).expanded ↔ other ∈ paths ∨ other ∈ n.expanded := by
  induction paths generalizing n with
  | nil => simp
  | cons first rest ih =>
      rw [List.foldl_cons, ih, mem_expand_iff, List.mem_cons, or_left_comm, or_assoc]

theorem Visible.mono {m : Navigator} (h : n.Visible path) (htree : m.tree = n.tree)
    (hsub : ∀ other ∈ n.expanded, other ∈ m.expanded) : m.Visible path := by
  rcases visible_iff.mp h with ⟨l, hmem, hshown, hpath⟩
  rw [visible_iff, htree]
  refine ⟨l, hmem, isShown_iff.mpr ?_, hpath⟩
  intro folder hfolder
  exact hsub folder.path (isShown_iff.mp hshown folder hfolder)

theorem Visible.collapse (h : n.Visible path) (hregular : Regular n.tree) :
    (n.collapse path).Visible path := by
  rcases visible_iff.mp h with ⟨l, hmem, hshown, hpath⟩
  rw [visible_iff]
  refine ⟨l, hmem, isShown_iff.mpr ?_, hpath⟩
  intro folder hfolder
  rw [mem_collapse_iff]
  refine ⟨isShown_iff.mp hshown folder hfolder, ?_⟩
  intro hsame
  rcases in_of_mem_above hmem hfolder with ⟨hbelow, hin⟩
  have hlength := ((hregular.shaped_of_mem hbelow).2.isAbove hin).length_lt
  rw [hsame, hpath] at hlength
  exact Nat.lt_irrefl _ hlength

theorem visible_of_mem (h : row ∈ n.rows) : n.Visible row.path :=
  ⟨row, h, rfl⟩

theorem mem_rows_of_split (h : n.rows = before ++ row :: after) : row ∈ n.rows := by
  rw [h]
  exact List.mem_append_right _ List.mem_cons_self

/-!
## Soundness
-/

/-- Holds of a navigator over a regular tree that expands nothing but folders, and selects a row
that can be seen, or nothing if there is no row. -/
structure Sound (n : Navigator) : Prop where
  regular : Regular n.tree
  folders : ∀ path ∈ n.expanded, HasFolder n.tree path
  selection : (n.selected = none ∧ n.rows = []) ∨ ∃ path, n.selected = some path ∧ n.Visible path

theorem Sound.visible (h : n.Sound) (hselected : n.selected = some path) : n.Visible path := by
  rcases h.selection with ⟨hnone, _⟩ | ⟨other, hother, hvisible⟩
  · rw [hselected] at hnone
    cases hnone
  · rw [hselected, Option.some.injEq] at hother
    rw [hother]
    exact hvisible

theorem Sound.rows_eq_nil (h : n.Sound) (hselected : n.selected = none) : n.rows = [] := by
  rcases h.selection with ⟨_, hrows⟩ | ⟨path, hpath, _⟩
  · exact hrows
  · rw [hselected] at hpath
    cases hpath

theorem Sound.exists_split (h : n.Sound) (hselected : n.selected = some path) :
    ∃ before row after, n.rows = before ++ row :: after ∧ row.path = path := by
  rcases h.visible hselected with ⟨row, hmem, hpath⟩
  rcases List.append_of_mem hmem with ⟨before, after, hrows⟩
  exact ⟨before, row, after, hrows, hpath⟩

theorem selection_of_head? (hselected : n.selected = n.rows.head?.map VisibleRow.path) :
    (n.selected = none ∧ n.rows = []) ∨ ∃ path, n.selected = some path ∧ n.Visible path := by
  cases hrows : n.rows with
  | nil => exact .inl ⟨by rw [hselected, hrows]; rfl, rfl⟩
  | cons first rest =>
      refine .inr ⟨first.path, by rw [hselected, hrows]; rfl, visible_of_mem ?_⟩
      rw [hrows]
      exact List.mem_cons_self

theorem head?_rows_nothing_expanded (tree : TreeNode) :
    (ofTree tree).rows.head?.map VisibleRow.path = tree.children.head?.map TreeNode.path := by
  unfold rows ofTree
  cases tree.children with
  | nil => rfl
  | cons first rest =>
      cases first with
      | file _ _ _ => rfl
      | folder _ _ _ => rfl

theorem sound_ofTree {tree : TreeNode} (h : Regular tree) : (ofTree tree).Sound where
  regular := h
  folders := by
    intro path hmem
    cases hmem
  selection := selection_of_head? (head?_rows_nothing_expanded tree).symm

/-!
## Keys
-/

inductive Pressed (n : Navigator) (row : VisibleRow) : NavigationOutcome → Navigator → Prop where
  | unchanged : Pressed n row .unchanged n
  | openFile : Pressed n row (.openFile row.path) n
  | moved {other : VisibleRow} (hmem : other ∈ n.rows) :
      Pressed n row (.moved other.path) { n with selected := some other.path }
  | expanded (hfolder : row.isFolder = true) :
      Pressed n row (.expanded row.path) (n.expand row.path)
  | collapsed : Pressed n row (.collapsed row.path) (n.collapse row.path)

theorem pressed_selectRow {other? : Option VisibleRow} (h : ∀ other ∈ other?, other ∈ n.rows) :
    Pressed n row (n.selectRow other?).1 (n.selectRow other?).2 := by
  cases other? with
  | none => exact .unchanged
  | some other => exact .moved (h other rfl)

theorem pressFrom_split (key : NavigationKey) {seen : List VisibleRow}
    (hnot : ∀ other ∈ before, other.path ≠ row.path) :
    n.pressFrom row.path key seen (before ++ row :: after) =
      n.pressAt (before.reverse ++ seen) row after key := by
  induction before generalizing seen with
  | nil =>
      rw [List.nil_append, pressFrom, if_pos rfl]
      rfl
  | cons first rest ih =>
      rw [List.cons_append, pressFrom, if_neg (hnot first List.mem_cons_self),
        ih fun other hmem => hnot other (List.mem_cons_of_mem first hmem), List.reverse_cons,
        List.append_assoc]
      rfl

theorem Sound.press_eq (h : n.Sound) (hrows : n.rows = before ++ row :: after)
    (hselected : n.selected = some row.path) (key : NavigationKey) :
    n.press key = n.pressAt before.reverse row after key := by
  have hnodup := nodup_rows h.regular
  rw [hrows, List.map_append, List.map_cons, List.nodup_append] at hnodup
  have hnot : ∀ other ∈ before, other.path ≠ row.path := fun other hmem =>
    hnodup.2.2 _ (List.mem_map_of_mem hmem) _ List.mem_cons_self
  rw [press, hselected]
  simp only [hrows]
  rw [pressFrom_split key hnot, List.append_nil]

/-- Without a selection there are no rows, and no key does anything; else it is pressed at a row. -/
theorem Sound.press_cases (h : n.Sound) (key : NavigationKey) :
    n.press key = (.unchanged, n) ∨ ∃ before row after, n.rows = before ++ row :: after ∧
      n.selected = some row.path ∧ n.press key = n.pressAt before.reverse row after key := by
  rcases h.selection with ⟨hnone, hrows⟩ | ⟨path, hselected, row, hmem, rfl⟩
  · left
    rw [press, hnone]
    simp only [hrows]
    rfl
  · rcases List.append_of_mem hmem with ⟨before, after, hrows⟩
    exact .inr ⟨before, row, after, hrows, hselected, h.press_eq hrows hselected key⟩

theorem exists_row_of_parent (h : Regular n.tree) (hrows : n.rows = before ++ row :: after)
    (hparent : Path.parent row.path ≠ Path.root) :
    ∃ upper ∈ n.rows, upper.path = Path.parent row.path := by
  rcases Nat.eq_zero_or_pos row.depth with htop | hdepth
  · exact absurd (parent_of_top_row h (mem_rows_of_split hrows) htop) hparent
  · rcases exists_row_above h hrows hdepth with ⟨earlier, upper, between, rfl, _, _, hpath, _⟩
    refine ⟨upper, ?_, hpath⟩
    rw [hrows]
    simp

theorem Sound.pressed (h : n.Sound) (hrows : n.rows = before ++ row :: after)
    (hselected : n.selected = some row.path) (key : NavigationKey) :
    Pressed n row (n.press key).1 (n.press key).2 := by
  have hafter : ∀ other ∈ after.head?, other ∈ n.rows := by
    intro other hmem
    rw [hrows]
    exact List.mem_append_right _ (List.mem_cons_of_mem row (List.mem_of_mem_head? hmem))
  have hbefore : ∀ other ∈ before.reverse.head?, other ∈ n.rows := by
    intro other hmem
    rw [hrows]
    exact List.mem_append_left _ (List.mem_reverse.mp (List.mem_of_mem_head? hmem))
  rw [h.press_eq hrows hselected key]
  cases key with
  | down => exact pressed_selectRow hafter
  | up => exact pressed_selectRow hbefore
  | right =>
      rw [pressAt]
      split
      · rename_i hclosed
        exact .expanded (Bool.and_eq_true_iff.mp hclosed).1
      · split
        · apply pressed_selectRow
          intro other hmem
          exact hafter other (Option.mem_filter_iff.mp hmem).1
        · exact .unchanged
  | left =>
      rw [pressAt]
      split
      · exact .collapsed
      · split
        · exact .unchanged
        · rename_i hparent
          rcases exists_row_of_parent h.regular hrows hparent with ⟨upper, hupper, hpath⟩
          rw [← hpath]
          exact .moved hupper
  | enter =>
      rw [pressAt]
      split
      · exact .openFile
      · rename_i hfolder
        split
        · exact .collapsed
        · exact .expanded (by simpa using hfolder)

theorem Sound.of_pressed (h : n.Sound) (hmem : row ∈ n.rows)
    (hselected : n.selected = some row.path) {outcome : NavigationOutcome} {m : Navigator}
    (hpressed : Pressed n row outcome m) : m.Sound := by
  have hvisible := visible_of_mem hmem
  cases hpressed with
  | unchanged => exact h
  | openFile => exact h
  | moved hother => exact ⟨h.regular, h.folders, .inr ⟨_, rfl, visible_of_mem hother⟩⟩
  | expanded hfolder =>
      refine ⟨h.regular, ?_, .inr ⟨row.path, hselected, ?_⟩⟩
      · intro path hpath
        rcases mem_expand_iff.mp hpath with rfl | hold
        · rcases exists_node_of_row hmem with ⟨node, hnode, hsame, hkind, _⟩
          exact ⟨node, hnode, hkind.trans hfolder, hsame⟩
        · exact h.folders path hold
      · exact hvisible.mono rfl fun other hother => mem_expand_iff.mpr (.inr hother)
  | collapsed =>
      refine ⟨h.regular, ?_, .inr ⟨row.path, hselected, hvisible.collapse h.regular⟩⟩
      intro path hpath
      exact h.folders path (mem_collapse_iff.mp hpath).1

theorem Sound.press (h : n.Sound) (key : NavigationKey) : (n.press key).2.Sound := by
  rcases h.press_cases key with hnothing | ⟨before, row, after, hrows, hselected, _⟩
  · rw [hnothing]
    exact h
  · exact h.of_pressed (mem_rows_of_split hrows) hselected (h.pressed hrows hselected key)

theorem Sound.of_press {m : Navigator} (h : n.Sound) {key : NavigationKey}
    {outcome : NavigationOutcome} (hpress : n.press key = (outcome, m)) : m.Sound := by
  have hsound := h.press key
  rw [hpress] at hsound
  exact hsound

/-!
## Revealing
-/

theorem revealed_iff : (n.reveal path).1 = true ↔
    path ≠ Path.root ∧ ∃ node ∈ n.tree.nodes, node.path = path := by
  have hfound : (∃ node ∈ n.tree.nodes, node.path = path) ↔ (n.tree.find? path).isSome = true := by
    rw [TreeNode.find?, List.find?_isSome]
    simp only [beq_iff_eq]
  have hrevealed : (n.reveal path).1 = !((n.tree.find? path).isNone || path == Path.root) := by
    rw [reveal]
    cases (n.tree.find? path).isNone || path == Path.root with
    | false => rfl
    | true => rfl
  rw [hfound, hrevealed, Bool.not_or, Bool.and_eq_true, Option.not_isNone, and_comm]
  simp only [Bool.not_eq_true', beq_eq_false_iff_ne]

theorem reveal_of_refused (h : (n.reveal path).1 = false) : (n.reveal path).2 = n := by
  unfold reveal at h ⊢
  split
  · rfl
  · rename_i hfine
    rw [if_neg hfine] at h
    cases h

/-- What revealing a path expands are the folders above its node. -/
theorem reveal_eq (h : (n.reveal path).1 = true) : (n.reveal path).2 =
    { (Bundle.ancestors path.toList.length path).foldl expand n with selected := some path } := by
  unfold reveal at h ⊢
  split
  · rename_i hrefused
    rw [if_pos hrefused] at h
    cases h
  · rfl

theorem mem_expanded_reveal_iff (hregular : Regular n.tree) {node : TreeNode}
    {above : List TreeNode} (hmem : ⟨above, node⟩ ∈ n.tree.lineagesBelow)
    (h : (n.reveal node.path).1 = true) :
    other ∈ (n.reveal node.path).2.expanded ↔
      (∃ folder ∈ above, folder.path = other) ∨ other ∈ n.expanded := by
  rw [reveal_eq h]
  change other ∈ (List.foldl expand n _).expanded ↔ _
  rw [mem_foldl_expand_iff, hregular.ancestors_eq hmem (hregular.length_above_le hmem),
    List.mem_map]

theorem tree_reveal : (n.reveal path).2.tree = n.tree := by
  cases h : (n.reveal path).1 with
  | false => rw [reveal_of_refused h]
  | true =>
      rw [reveal_eq h]
      exact tree_foldl_expand _ n

theorem Sound.exists_lineage_of_revealed (h : n.Sound) (hrevealed : (n.reveal path).1 = true) :
    ∃ above node, ⟨above, node⟩ ∈ n.tree.lineagesBelow ∧ node.path = path := by
  rcases revealed_iff.mp hrevealed with ⟨hroot, node, hmem, hpath⟩
  rcases exists_lineage (h.regular.exists_below hroot hmem hpath) with ⟨above, hlineage⟩
  exact ⟨above, node, hlineage, hpath⟩

theorem Sound.visible_reveal (h : n.Sound) (hrevealed : (n.reveal path).1 = true) :
    (n.reveal path).2.selected = some path ∧ (n.reveal path).2.Visible path := by
  rcases h.exists_lineage_of_revealed hrevealed with ⟨above, node, hmem, rfl⟩
  constructor
  · rw [reveal_eq hrevealed]
  · rw [visible_iff, tree_reveal]
    refine ⟨_, hmem, isShown_iff.mpr ?_, rfl⟩
    intro folder hfolder
    rw [mem_expanded_reveal_iff h.regular hmem hrevealed]
    exact .inl ⟨folder, hfolder, rfl⟩

theorem Sound.reveal (h : n.Sound) (path : String) : (n.reveal path).2.Sound := by
  cases hrevealed : (n.reveal path).1 with
  | false =>
      rw [reveal_of_refused hrevealed]
      exact h
  | true =>
      refine ⟨?_, ?_, .inr ⟨path, h.visible_reveal hrevealed⟩⟩
      · rw [tree_reveal]
        exact h.regular
      · rcases h.exists_lineage_of_revealed hrevealed with ⟨above, node, hmem, rfl⟩
        intro other hother
        rw [tree_reveal]
        rcases (mem_expanded_reveal_iff h.regular hmem hrevealed).mp hother with
          ⟨folder, hfolder, hsame⟩ | hold
        · rcases in_of_mem_above hmem hfolder with ⟨hbelow, hin⟩
          exact ⟨folder, hbelow, isFolder_of_mem_descendants hin, hsame⟩
        · exact h.folders other hold

/-!
## Rebuilt trees
-/

section
variable {tree : TreeNode}

theorem tree_setTree (n : Navigator) (tree : TreeNode) : (n.setTree tree).tree = tree := by
  rw [setTree]
  split
  · rfl
  · rfl

theorem expanded_setTree (n : Navigator) (tree : TreeNode) :
    (n.setTree tree).expanded = n.expanded.filter (isFolderIn tree) := by
  rw [setTree]
  split
  · rfl
  · rfl

theorem rows_setTree (n : Navigator) (tree : TreeNode) :
    (n.setTree tree).rows =
      { n with tree, expanded := n.expanded.filter (isFolderIn tree) }.rows := by
  rw [setTree]
  split
  · rfl
  · rfl

theorem Sound.mem_expanded_setTree_iff (h : n.Sound) (hregular : Regular tree) :
    path ∈ (n.setTree tree).expanded ↔ path ∈ n.expanded ∧ HasFolder tree path := by
  rw [expanded_setTree, List.mem_filter, hregular.hasFolder_iff]
  apply and_congr_right
  intro hmem
  rcases h.folders path hmem with ⟨folder, hbelow, _, rfl⟩
  exact (and_iff_right (h.regular.shaped_of_mem hbelow).1).symm

/-- The selection stays if its row does, and goes to the first row if not. -/
theorem selected_setTree (n : Navigator) (tree : TreeNode) :
    (∃ path, n.selected = some path ∧ (n.setTree tree).Visible path ∧
      (n.setTree tree).selected = some path) ∨
    ((∀ path, n.selected = some path → ¬(n.setTree tree).Visible path) ∧
      (n.setTree tree).selected = (n.setTree tree).rows.head?.map VisibleRow.path) := by
  have hvisible : ∀ path, (n.setTree tree).Visible path ↔
      { n with tree, expanded := n.expanded.filter (isFolderIn tree) }.Visible path := by
    intro path
    unfold Visible
    rw [rows_setTree]
  simp only [hvisible, rows_setTree]
  rw [setTree]
  split
  · rename_i hkept
    rcases isSelectionVisible_iff.mp hkept with ⟨path, hpath, hrow⟩
    exact .inl ⟨path, hpath, hrow, hpath⟩
  · rename_i hgone
    refine .inr ⟨?_, rfl⟩
    intro path hpath hrow
    exact hgone (isSelectionVisible_iff.mpr ⟨path, hpath, hrow⟩)

theorem Sound.setTree (h : n.Sound) (hregular : Regular tree) : (n.setTree tree).Sound where
  regular := by
    rw [tree_setTree]
    exact hregular
  folders := by
    intro path hmem
    rw [tree_setTree]
    exact ((h.mem_expanded_setTree_iff hregular).mp hmem).2
  selection := by
    rcases selected_setTree n tree with ⟨path, _, hvisible, hselected⟩ | ⟨_, hfirst⟩
    · exact .inr ⟨path, hselected, hvisible⟩
    · exact selection_of_head? hfirst

theorem Sound.selected_setTree_iff (h : n.Sound) (hregular : Regular tree)
    (hselected : n.selected = some path) :
    (n.setTree tree).selected = some path ↔ (n.setTree tree).Visible path := by
  constructor
  · exact (h.setTree hregular).visible
  · intro hvisible
    rcases selected_setTree n tree with ⟨other, hother, _, hkept⟩ | ⟨hgone, _⟩
    · rw [← hselected, hother]
      exact hkept
    · exact absurd hvisible (hgone path hselected)

theorem selected_setTree_of_gone
    (h : ∀ path, n.selected = some path → ¬(n.setTree tree).Visible path) :
    (n.setTree tree).selected = (n.setTree tree).rows.head?.map VisibleRow.path := by
  rcases selected_setTree n tree with ⟨path, hpath, hvisible, _⟩ | ⟨_, hfirst⟩
  · exact absurd hvisible (h path hpath)
  · exact hfirst

theorem Sound.setTree_self (h : n.Sound) : n.setTree n.tree = n := by
  have hkept : n.expanded.filter (isFolderIn n.tree) = n.expanded := by
    apply List.filter_eq_self.mpr
    intro path hmem
    exact (h.regular.hasFolder_iff.mp (h.folders path hmem)).2
  rw [Navigator.setTree]
  simp only [hkept]
  split
  · rfl
  · rename_i hgone
    rcases h.selection with ⟨hnone, hrows⟩ | hvisible
    · simp only [hrows, List.head?_nil, Option.map_none, ← hnone]
    · exact absurd (isSelectionVisible_iff.mpr hvisible) hgone

end

end

/-!
## Navigators that are reached
-/

/-- The navigators over trees of separate files that keys, revealed paths and rebuilt trees lead
to. -/
inductive Reachable : Navigator → Prop where
  | start {files : List File} (hfiles : Separate files) : Reachable (ofTree (ofFiles files))
  | key {n : Navigator} (h : Reachable n) (key : NavigationKey) : Reachable (n.press key).2
  | reveal {n : Navigator} (h : Reachable n) (path : String) : Reachable (n.reveal path).2
  | rebuilt {n : Navigator} (h : Reachable n) {files : List File} (hfiles : Separate files) :
      Reachable (n.setTree (ofFiles files))

theorem Reachable.sound {n : Navigator} (h : n.Reachable) : n.Sound := by
  induction h with
  | start hfiles => exact sound_ofTree hfiles.regular
  | key _ key ih => exact ih.press key
  | reveal _ path ih => exact ih.reveal path
  | rebuilt _ hfiles ih => exact ih.setTree hfiles.regular

/-- Holds of a navigator that does not lose its selection. -/
structure Steady (n : Navigator) : Prop where
  none_iff : n.selected = none ↔ n.rows = []
  once : ∀ path, n.selected = some path → n.rows.countP (fun row => row.path == path) = 1
  folders : ∀ path ∈ n.expanded, HasFolder n.tree path
  revealed : ∀ path, (n.reveal path).1 = true ↔
    path ≠ Path.root ∧ ∃ node ∈ n.tree.nodes, node.path = path
  shown : ∀ path, (n.reveal path).1 = true →
    (n.reveal path).2.selected = some path ∧ (n.reveal path).2.Visible path
  refused : ∀ path, (n.reveal path).1 = false → (n.reveal path).2 = n
  replaced : ∀ files, Separate files → (n.setTree (ofFiles files)).tree = ofFiles files
  still_expanded : ∀ files, Separate files → ∀ path,
    path ∈ (n.setTree (ofFiles files)).expanded ↔
      path ∈ n.expanded ∧ HasFolder (ofFiles files) path
  still_selected : ∀ files, Separate files → ∀ path, n.selected = some path →
    ((n.setTree (ofFiles files)).selected = some path ↔ (n.setTree (ofFiles files)).Visible path)
  first_selected : ∀ files, Separate files →
    (∀ path, n.selected = some path → ¬(n.setTree (ofFiles files)).Visible path) →
    (n.setTree (ofFiles files)).selected =
      (n.setTree (ofFiles files)).rows.head?.map VisibleRow.path
  same : n.setTree n.tree = n

theorem Sound.none_iff {n : Navigator} (h : n.Sound) : n.selected = none ↔ n.rows = [] := by
  constructor
  · exact h.rows_eq_nil
  · intro hrows
    rcases h.selection with ⟨hnone, _⟩ | ⟨_, _, row, hmem, _⟩
    · exact hnone
    · rw [hrows] at hmem
      cases hmem

theorem Sound.countP_eq_one {n : Navigator} (h : n.Sound) {path : String}
    (hselected : n.selected = some path) :
    n.rows.countP (fun row => row.path == path) = 1 := by
  rcases h.visible hselected with ⟨row, hmem, hpath⟩
  have hcount := List.count_eq_one_of_mem (nodup_rows h.regular) (List.mem_map_of_mem hmem)
  rw [hpath, List.count_eq_countP, List.countP_map] at hcount
  exact hcount

/-- No key, no revealed path and no rebuilt tree leaves a selection that cannot be seen. -/
theorem steady_of_reachable {n : Navigator} (h : n.Reachable) : n.Steady where
  none_iff := h.sound.none_iff
  once := fun _ => h.sound.countP_eq_one
  folders := h.sound.folders
  revealed := fun _ => revealed_iff
  shown := fun _ => h.sound.visible_reveal
  refused := fun _ => reveal_of_refused
  replaced := fun files _ => tree_setTree n (ofFiles files)
  still_expanded := fun _ hfiles _ => h.sound.mem_expanded_setTree_iff hfiles.regular
  still_selected := fun _ hfiles _ => h.sound.selected_setTree_iff hfiles.regular
  first_selected := fun _ _ => selected_setTree_of_gone
  same := h.sound.setTree_self

def raised : Navigator :=
  (((ofTree (ofFiles nestedFiles)).reveal "/B/x/y/z.ftl").2.press .up).2

theorem reachable_raised : raised.Reachable :=
  .key (.reveal (.start separate_nestedFiles) _) .up

theorem steady_raised : raised.Reachable ∧ raised.Steady :=
  ⟨reachable_raised, steady_of_reachable reachable_raised⟩

end Navigator
end StencilDesk
