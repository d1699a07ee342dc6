import StencilDesk.Proofs.Bundle.Segments

/-!
# The shape of a tree

In the tree of files at different places every node lies where its name says, no folder is empty,
and siblings are in strict order. One more file keeps this.
-/

namespace StencilDesk
namespace TreeNode

def Precedes (a b : TreeNode) : Prop :=
  a.isFolder = true ∧ b.isFolder = false ∨ a.isFolder = b.isFolder ∧ a.name < b.name

/-- Holds of nodes of which one is as good as the other among their siblings. -/
def Alike (a b : TreeNode) : Prop :=
  a.isFolder = b.isFolder ∧ a.name = b.name

/-- What holds of the siblings below a path, and of all that is below them. -/
inductive Shaped : String → List TreeNode → Prop where
  | of_nodes {parent : String} {nodes : List TreeNode} (ordered : nodes.Pairwise Precedes)
      (named : ∀ node ∈ nodes, Path.IsSegment node.name)
      (located : ∀ node ∈ nodes, node.path = parent ++ "/" ++ node.name)
      (filled : ∀ node ∈ nodes, node.isFolder = true → node.children ≠ [])
      (below : ∀ node ∈ nodes, Shaped node.path node.children) : Shaped parent nodes

/-!
## The order of siblings
-/

section
variable {a b c : TreeNode} {nodes : List TreeNode}

theorem le_eq_true_iff : a.le b = true ↔ Precedes a b ∨ Alike a b := by
  have hle : a.name ≤ b.name ↔ a.name < b.name ∨ a.name = b.name := Std.le_iff_lt_or_eq
  unfold le Precedes Alike
  cases a.isFolder <;> cases b.isFolder <;> simp [hle]

theorem precedes_or_alike (a b : TreeNode) : Precedes a b ∨ Alike a b ∨ Precedes b a := by
  by_cases hkind : a.isFolder = b.isFolder
  · rcases Std.lt_trichotomy a.name b.name with hlt | hsame | hlt
    · exact .inl (.inr ⟨hkind, hlt⟩)
    · exact .inr (.inl ⟨hkind, hsame⟩)
    · exact .inr (.inr (.inr ⟨hkind.symm, hlt⟩))
  · cases ha : a.isFolder with
    | true =>
        have hb : b.isFolder = false := by simpa [ha] using hkind
        exact .inl (.inl ⟨ha, hb⟩)
    | false =>
        have hb : b.isFolder = true := by simpa [ha] using hkind
        exact .inr (.inr (.inl ⟨hb, ha⟩))

theorem Precedes.trans (h : Precedes a b) (hbc : Precedes b c) : Precedes a c := by
  have hnames : a.name < b.name → b.name < c.name → a.name < c.name := String.lt_trans
  unfold Precedes at *
  grind

theorem Precedes.irrefl (h : Precedes a a) : False := by
  have hname : ¬a.name < a.name := String.lt_irrefl _
  unfold Precedes at h
  grind

theorem Precedes.apart (h : Precedes a b) : Apart a b := by
  intro ha hb hsame
  rcases h with ⟨_, hfile⟩ | ⟨_, hlt⟩
  · rw [hb] at hfile
    cases hfile
  · rw [hsame] at hlt
    exact String.lt_irrefl _ hlt

theorem pairwise_insertNode {node : TreeNode} (h : nodes.Pairwise Precedes)
    (hnew : ∀ other ∈ nodes, ¬Alike other node) : (insertNode node nodes).Pairwise Precedes := by
  induction nodes with
  | nil => exact List.pairwise_singleton _ _
  | cons first rest ih =>
      rw [List.forall_mem_cons] at hnew
      rcases List.pairwise_cons.mp h with ⟨hfirst, hrest⟩
      rw [insertNode]
      split
      · next hle =>
          have hprecedes := (le_eq_true_iff.mp hle).resolve_right hnew.1
          apply List.pairwise_cons.mpr ⟨?_, ih hrest hnew.2⟩
          intro other hmem
          rcases List.mem_cons.mp ((perm_insertNode node rest).mem_iff.mp hmem) with rfl | hold
          · exact hprecedes
          · exact hfirst other hold
      · next hle =>
          rw [le_eq_true_iff, not_or] at hle
          have hprecedes := ((precedes_or_alike first node).resolve_left hle.1).resolve_left hle.2
          apply List.pairwise_cons.mpr ⟨?_, h⟩
          intro other hmem
          rcases List.mem_cons.mp hmem with rfl | hold
          · exact hprecedes
          · exact hprecedes.trans (hfirst other hold)

end

/-!
## Adding a file
-/

section
variable {parent : String} {nodes : List TreeNode}

theorem shaped_nil (parent : String) : Shaped parent [] := by
  constructor
  · exact List.Pairwise.nil
  all_goals
    intro node hmem
    cases hmem

theorem Shaped.unambiguous (h : Shaped parent nodes) : Unambiguous nodes := by
  induction h with
  | of_nodes ordered _ _ _ _ ih => exact .of_apart (ordered.imp Precedes.apart) ih

theorem shaped_iff : Shaped parent nodes ↔ nodes.Pairwise Precedes ∧
    ∀ node ∈ nodes, Path.IsSegment node.name ∧ node.path = parent ++ "/" ++ node.name ∧
      (node.isFolder = true → node.children ≠ []) ∧ Shaped node.path node.children := by
  constructor
  · intro h
    cases h with
    | of_nodes ordered named located filled below =>
        refine ⟨ordered, ?_⟩
        intro node hmem
        exact ⟨named node hmem, located node hmem, filled node hmem, below node hmem⟩
  · intro h
    rcases h with ⟨ordered, hfits⟩
    constructor
    · exact ordered
    · exact fun node hmem => (hfits node hmem).1
    · exact fun node hmem => (hfits node hmem).2.1
    · exact fun node hmem => (hfits node hmem).2.2.1
    · exact fun node hmem => (hfits node hmem).2.2.2

theorem Shaped.insertNode (h : Shaped parent nodes) {node : TreeNode}
    (hname : Path.IsSegment node.name) (hpath : node.path = parent ++ "/" ++ node.name)
    (hfilled : node.isFolder = true → node.children ≠ [])
    (hbelow : Shaped node.path node.children) (hnew : ∀ other ∈ nodes, ¬Alike other node) :
    Shaped parent (insertNode node nodes) := by
  rcases shaped_iff.mp h with ⟨ordered, hfits⟩
  apply shaped_iff.mpr
  refine ⟨pairwise_insertNode ordered hnew, ?_⟩
  intro other hother
  rcases List.mem_cons.mp ((perm_insertNode node nodes).mem_iff.mp hother) with hsame | hold
  · rw [hsame]
    exact ⟨hname, hpath, hfilled, hbelow⟩
  · exact hfits other hold

def changeNamed (name : String) (f : List TreeNode → List TreeNode) (node : TreeNode) : TreeNode :=
  if node.isFolderNamed name then node.mapChildren f else node

theorem changeNamed_cases (name : String) (f : List TreeNode → List TreeNode) (node : TreeNode) :
    changeNamed name f node = node ∨
      ∃ path children, node = folder name path children ∧
        changeNamed name f node = folder name path (f children) := by
  rw [changeNamed]
  by_cases hnamed : node.isFolderNamed name = true
  · rcases isFolderNamed_iff.mp hnamed with ⟨hfolder, hname⟩
    cases node with
    | file _ _ _ => cases hfolder
    | folder _ path children =>
        cases hname
        exact .inr ⟨path, children, rfl, if_pos hnamed⟩
  · exact .inl (if_neg hnamed)

@[simp] theorem isFolder_changeNamed (name : String) (f : List TreeNode → List TreeNode)
    (node : TreeNode) : (changeNamed name f node).isFolder = node.isFolder := by
  rcases changeNamed_cases name f node with hsame | ⟨path, children, hnode, hchanged⟩
  · rw [hsame]
  · rw [hchanged, hnode]
    rfl

@[simp] theorem name_changeNamed (name : String) (f : List TreeNode → List TreeNode)
    (node : TreeNode) : (changeNamed name f node).name = node.name := by
  rcases changeNamed_cases name f node with hsame | ⟨path, children, hnode, hchanged⟩
  · rw [hsame]
  · rw [hchanged, hnode]
    rfl

theorem Shaped.changeNamed {f : List TreeNode → List TreeNode} {name : String}
    (h : Shaped parent nodes)
    (hf : ∀ children, folder name (parent ++ "/" ++ name) children ∈ nodes →
      Shaped (parent ++ "/" ++ name) children →
      f children ≠ [] ∧ Shaped (parent ++ "/" ++ name) (f children)) :
    Shaped parent (nodes.map (changeNamed name f)) := by
  rcases shaped_iff.mp h with ⟨ordered, hfits⟩
  apply shaped_iff.mpr
  constructor
  · rw [List.pairwise_map]
    apply ordered.imp
    intro a b hab
    rw [Precedes, isFolder_changeNamed, isFolder_changeNamed, name_changeNamed, name_changeNamed]
    exact hab
  · intro other hother
    rcases List.mem_map.mp hother with ⟨node, hmem, hchange⟩
    have hnode := hfits node hmem
    rcases changeNamed_cases name f node with hsame | ⟨path, children, hfolder, hchanged⟩
    · rw [← hchange, hsame]
      exact hnode
    · rw [hfolder] at hmem hnode
      rcases hnode with ⟨hname, hpath, _, hbelow⟩
      have hplace : path = parent ++ "/" ++ name := hpath
      rw [hplace] at hmem
      rw [TreeNode.path, hplace] at hbelow
      rcases hf children hmem hbelow with ⟨hsome, hshaped⟩
      rw [← hchange, hchanged, hplace]
      exact ⟨hname, rfl, fun _ => hsome, hshaped⟩

theorem addFile_ne_nil (kind : FileKind) (parent : String) {names : List String}
    (hnames : names ≠ []) {nodes : List TreeNode} (h : Unambiguous nodes) :
    TreeNode.addFile kind parent names nodes ≠ [] := by
  intro hnone
  have hperm : (leavesOfAll (TreeNode.addFile kind parent names nodes)).Perm _ :=
    perm_leavesOfAll_addFile kind hnames h
  rw [hnone] at hperm
  cases List.nil_perm.mp hperm

theorem mem_leavesOfAll_of_mem {node : TreeNode} (hnode : node ∈ nodes) {path : String}
    (h : path ∈ node.leaves) : path ∈ leavesOfAll nodes := by
  rw [leavesOfAll_eq_flatMap, List.mem_flatMap]
  exact ⟨node, hnode, h⟩

theorem Shaped.addFile (kind : FileKind) {names : List String} (hnames : names ≠ [])
    (hsegments : ∀ name ∈ names, Path.IsSegment name) (h : Shaped parent nodes)
    (hnew : Path.descend parent names ∉ leavesOfAll nodes) :
    Shaped parent (addFile kind parent names nodes) := by
  induction names generalizing parent nodes with
  | nil => exact absurd rfl hnames
  | cons name rest ih =>
      rw [List.forall_mem_cons] at hsegments
      cases rest with
      | nil =>
          have hname : Path.IsSegment (file name (parent ++ "/" ++ name) kind).name :=
            hsegments.1
          rw [TreeNode.addFile]
          apply h.insertNode hname rfl
          · intro hfolder
            cases hfolder
          · exact shaped_nil _
          · -- A file of this name would be the one that is added.
            rintro other hmem ⟨hkind, hname⟩
            cases h with
            | of_nodes _ _ located _ _ =>
                cases other with
                | folder _ _ _ => cases hkind
                | file otherName path _ =>
                    apply hnew
                    apply mem_leavesOfAll_of_mem hmem
                    have hpath : path = parent ++ "/" ++ otherName := located _ hmem
                    cases hname
                    rw [hpath]
                    exact List.mem_singleton_self _
      | cons next others =>
          let path := parent ++ "/" ++ name
          have hrest : next :: others ≠ [] := List.cons_ne_nil _ _
          have hname : Path.IsSegment (folder name path
              (TreeNode.addFile kind path (next :: others) [])).name := hsegments.1
          rw [TreeNode.addFile]
          split
          · apply h.changeNamed
            intro children hmem hchildren
            refine ⟨addFile_ne_nil kind _ hrest hchildren.unambiguous, ?_⟩
            apply ih hrest hsegments.2 hchildren
            intro hthere
            exact hnew (mem_leavesOfAll_of_mem hmem hthere)
          · next hnone =>
              apply h.insertNode hname rfl
              · exact fun _ => addFile_ne_nil kind _ hrest unambiguous_nil
              · apply ih hrest hsegments.2 (shaped_nil _)
                intro hthere
                cases hthere
              · rintro other hmem ⟨hkind, hname⟩
                apply hnone
                rw [List.any_eq_true]
                exact ⟨other, hmem, isFolderNamed_iff.mpr ⟨hkind, hname⟩⟩

end

/-!
## The tree of a list of files
-/

theorem children_ofFiles_concat (files : List File) (file : File) :
    (ofFiles (files ++ [file])).children =
      addFile file.kind "" (Path.segments file.path) (ofFiles files).children := by
  show List.foldl _ [] (files ++ [file]) = _
  rw [List.foldl_append]
  rfl

theorem placesOf_concat (files : List File) {file : File} (h : Path.segments file.path ≠ []) :
    placesOf (files ++ [file]) =
      placesOf files ++ [Path.descend "" (Path.segments file.path)] := by
  rw [placesOf, List.filter_append, List.filter_cons_of_pos (by simpa using h), List.map_append]
  rfl

theorem placesOf_concat_of_nil (files : List File) {file : File}
    (h : Path.segments file.path = []) : placesOf (files ++ [file]) = placesOf files := by
  rw [placesOf, List.filter_append, List.filter_cons_of_neg (by simp [h]), List.filter_nil,
    List.append_nil]
  rfl

/-- The tree of files at different places has its shape, whatever their order. -/
theorem shaped_ofFiles {files : List File} (h : (placesOf files).Nodup) :
    Shaped "" (ofFiles files).children := by
  induction files using List.reverseRecOn with
  | nil => exact shaped_nil ""
  | append_singleton files file ih =>
      rw [children_ofFiles_concat]
      by_cases hnames : Path.segments file.path = []
      · rw [placesOf_concat_of_nil files hnames] at h
        rw [hnames]
        exact ih h
      · rw [placesOf_concat files hnames, List.nodup_append] at h
        apply Shaped.addFile file.kind hnames (fun _ => Path.isSegment_of_mem_segments) (ih h.1)
        intro hthere
        have hlisted : Path.descend "" (Path.segments file.path) ∈ placesOf files := by
          rw [← (perm_filePaths_ofFiles files).mem_iff, ofFiles, filePaths_folder]
          exact hthere
        exact h.2.2 _ hlisted _ (List.mem_singleton_self _) rfl

/-!
## All nodes of a tree
-/

mutual

theorem snd_rows : ∀ (depth : Nat) (node : TreeNode),
    (rows depth node).map Prod.snd = node.nodes
  | _, file _ _ _ => rfl
  | depth, folder _ _ children => by
      rw [rows, List.map_cons, snd_rowsOfAll (depth + 1) children, nodes, rows, List.map_cons,
        snd_rowsOfAll 1 children]

theorem snd_rowsOfAll : ∀ (depth : Nat) (nodes : List TreeNode),
    (rowsOfAll depth nodes).map Prod.snd = nodes.flatMap TreeNode.nodes
  | _, [] => rfl
  | depth, node :: rest => by
      rw [rowsOfAll, List.map_append, List.flatMap_cons, snd_rows depth node,
        snd_rowsOfAll depth rest]

end

theorem nodes_eq (node : TreeNode) :
    node.nodes = node :: node.children.flatMap TreeNode.nodes := by
  cases node with
  | file _ _ _ => rfl
  | folder name path children =>
      rw [nodes, rows, List.map_cons, snd_rowsOfAll 1 children]
      rfl

theorem Shaped.of_mem {parent : String} {nodes : List TreeNode} (h : Shaped parent nodes)
    {node : TreeNode} (hmem : node ∈ nodes.flatMap TreeNode.nodes) :
    Path.name node.path = node.name ∧ node.path ≠ Path.root ∧ Shaped node.path node.children := by
  induction h with
  | of_nodes _ named located _ below ih =>
      rcases List.mem_flatMap.mp hmem with ⟨top, htop, hnode⟩
      rw [nodes_eq, List.mem_cons] at hnode
      rcases hnode with rfl | hdeeper
      · rcases named node htop with ⟨hsome, hslash⟩
        have hname : Path.name node.path = node.name := by
          rw [located node htop]
          exact Path.name_slash hslash
        refine ⟨hname, ?_, below node htop⟩
        intro hroot
        rw [hroot] at hname
        exact hsome hname.symm
      · exact ih top htop hdeeper

end TreeNode
end StencilDesk
