import StencilDesk.Proofs.Bundle.Mirror

/-!
# Folders above the nodes of a tree

Every node of a tree comes with the folders that it lies in. From top to bottom, a folder comes
before what lies in it, its first child right behind it, and nothing that lies elsewhere comes in
between. In the tree of separate files no two nodes have one path, and the paths of the folders that
a node lies in are those above its own path.
-/

namespace StencilDesk
namespace Path

theorem parent_slash {path name : String} (h : IsSegment name) :
    parent (path ++ "/" ++ name) = if path = "" then root else path := by
  have htext : (path ++ "/" ++ name).toList = path.toList ++ '/' :: name.toList := by
    rw [String.toList_append, String.toList_append, List.append_assoc]
    rfl
  have hempty : path.toList = [] ↔ path = "" := by
    rw [← String.toList_empty, String.toList_inj]
  rw [parent_of_lastSlash htext h.2, String.ofList_toList]
  simp only [hempty]

theorem isAbove_slash (path name : String) : IsAbove path (path ++ "/" ++ name) := by
  unfold IsAbove
  rw [String.toList_append, String.toList_append]
  exact List.prefix_append _ _

end Path

namespace TreeNode

def descendants (node : TreeNode) : List TreeNode :=
  node.children.flatMap nodes

/-- A node, and the folders that it lies in, the nearest one first. -/
structure Lineage where
  above : List TreeNode
  node : TreeNode

mutual

def lineages (above : List TreeNode) : TreeNode → List Lineage
  | file name path kind => [⟨above, file name path kind⟩]
  | folder name path children =>
      ⟨above, folder name path children⟩ ::
        lineagesOfAll (folder name path children :: above) children

def lineagesOfAll (above : List TreeNode) : List TreeNode → List Lineage
  | [] => []
  | node :: rest => lineages above node ++ lineagesOfAll above rest

end

def lineagesBelow (tree : TreeNode) : List Lineage :=
  lineagesOfAll [] tree.children

/-!
## Lineages from top to bottom
-/

section
variable {above : List TreeNode} {node : TreeNode} {nodes : List TreeNode} {l : Lineage}
  {before after : List Lineage}

theorem mem_nodes_self (node : TreeNode) : node ∈ node.nodes := by
  rw [nodes_eq]
  exact List.mem_cons_self

theorem mem_nodes_of_descendant {other : TreeNode} (h : other ∈ node.descendants) :
    other ∈ node.nodes := by
  rw [nodes_eq]
  exact List.mem_cons_of_mem node h

mutual

theorem mem_nodes_trans : ∀ (tree : TreeNode) {node other : TreeNode},
    node ∈ tree.nodes → other ∈ node.nodes → other ∈ tree.nodes
  | file _ _ _, node, other, hnode, hother => by
      rw [nodes_eq, children, List.flatMap_nil, List.mem_singleton] at hnode
      rw [← hnode]
      exact hother
  | folder name path children, node, other, hnode, hother => by
      rw [nodes_eq, List.mem_cons] at hnode
      rcases hnode with rfl | hdeeper
      · exact hother
      · exact mem_nodes_of_descendant (mem_flatMap_nodes_trans children hdeeper hother)

theorem mem_flatMap_nodes_trans : ∀ (nodes : List TreeNode) {node other : TreeNode},
    node ∈ nodes.flatMap TreeNode.nodes → other ∈ node.nodes →
      other ∈ nodes.flatMap TreeNode.nodes
  | [], _, _, hnode, _ => by cases hnode
  | first :: rest, node, other, hnode, hother => by
      rw [List.flatMap_cons, List.mem_append] at hnode ⊢
      rcases hnode with hfirst | hrest
      · exact .inl (mem_nodes_trans first hfirst hother)
      · exact .inr (mem_flatMap_nodes_trans rest hrest hother)

end

theorem mem_descendants_of_child {child : TreeNode} (h : child ∈ node.children) :
    child ∈ node.descendants :=
  List.mem_flatMap.mpr ⟨child, h, child.mem_nodes_self⟩

theorem lineages_eq (above : List TreeNode) (node : TreeNode) :
    lineages above node = ⟨above, node⟩ :: lineagesOfAll (node :: above) node.children := by
  cases node with
  | file _ _ _ => rfl
  | folder _ _ _ => rfl

mutual

theorem map_lineages : ∀ (above : List TreeNode) (node : TreeNode),
    (lineages above node).map (fun l => (l.above.length, l.node)) = rows above.length node
  | above, file _ _ _ => rfl
  | above, folder name path children => by
      rw [lineages, rows, List.map_cons, map_lineagesOfAll, List.length_cons]

theorem map_lineagesOfAll : ∀ (above nodes : List TreeNode),
    (lineagesOfAll above nodes).map (fun l => (l.above.length, l.node)) =
      rowsOfAll above.length nodes
  | above, [] => rfl
  | above, node :: rest => by
      rw [lineagesOfAll, rowsOfAll, List.map_append, map_lineages above node,
        map_lineagesOfAll above rest]

end

theorem map_node_lineagesOfAll (above nodes : List TreeNode) :
    (lineagesOfAll above nodes).map Lineage.node = nodes.flatMap TreeNode.nodes := by
  rw [← snd_rowsOfAll above.length, ← map_lineagesOfAll, List.map_map]
  rfl

mutual

theorem suffix_of_mem_lineages : ∀ (above : List TreeNode) (node : TreeNode),
    ∀ l ∈ lineages above node, above <:+ l.above
  | above, file _ _ _ => by
      intro l hmem
      rw [List.mem_singleton.mp hmem]
  | above, folder name path children => by
      intro l hmem
      rcases List.mem_cons.mp hmem with rfl | hbelow
      · exact List.suffix_refl above
      · have hsuffix := suffix_of_mem_lineagesOfAll _ children l hbelow
        exact (List.suffix_cons _ above).trans hsuffix

theorem suffix_of_mem_lineagesOfAll : ∀ (above nodes : List TreeNode),
    ∀ l ∈ lineagesOfAll above nodes, above <:+ l.above
  | above, [] => by
      intro l hmem
      cases hmem
  | above, node :: rest => by
      intro l hmem
      rcases List.mem_append.mp hmem with hfirst | hrest
      · exact suffix_of_mem_lineages above node l hfirst
      · exact suffix_of_mem_lineagesOfAll above rest l hrest

end

/-- Holds of a lineage and those before it: it is one of the given nodes, or its nearest folder
comes before it with nothing in between that lies elsewhere. -/
inductive Nests (above nodes : List TreeNode) (before : List Lineage) (l : Lineage) : Prop where
  | top (habove : l.above = above) (hnode : l.node ∈ nodes)
  | inside {folder : TreeNode} {rest : List TreeNode} {earlier between : List Lineage}
      (habove : l.above = folder :: rest) (hchild : l.node ∈ folder.children)
      (hbefore : before = earlier ++ ⟨rest, folder⟩ :: between)
      (hbetween : ∀ other ∈ between, l.above <:+ other.above)

theorem Nests.prepend {nodes others : List TreeNode} (h : Nests above nodes before l)
    (hsub : ∀ node ∈ nodes, node ∈ others) (more : List Lineage) :
    Nests above others (more ++ before) l := by
  cases h with
  | top habove hnode => exact .top habove (hsub _ hnode)
  | inside habove hchild hbefore hbetween =>
      rename_i folder rest earlier between
      have hsplit : more ++ before = (more ++ earlier) ++ ⟨rest, folder⟩ :: between := by
        rw [hbefore, List.append_assoc]
      exact .inside habove hchild hsplit hbetween

mutual

theorem nests_of_lineages : ∀ (above : List TreeNode) (node : TreeNode)
    {before after : List Lineage} {l : Lineage},
    lineages above node = before ++ l :: after → Nests above [node] before l
  | above, node, [], after, l, h => by
      rw [lineages_eq, List.nil_append, List.cons.injEq] at h
      rw [← h.1]
      exact .top rfl (List.mem_singleton_self node)
  | above, file _ _ _, _ :: before, after, l, h => by
      rw [lineages, List.cons_append, List.cons.injEq] at h
      exact absurd h.2.symm (by simp)
  | above, folder name path children, first :: before, after, l, h => by
      rw [lineages, List.cons_append, List.cons.injEq] at h
      rcases h with ⟨hfirst, hrest⟩
      rw [← hfirst]
      cases nests_of_lineagesOfAll _ children hrest with
      | top habove hnode =>
          have hsplit : ∀ other ∈ before, other ∈ before ++ l :: after := fun other =>
            List.mem_append_left _
          have hfolder : ⟨above, folder name path children⟩ :: before =
              [] ++ ⟨above, folder name path children⟩ :: before := rfl
          refine .inside habove hnode hfolder ?_
          intro other hmem
          rw [habove]
          apply suffix_of_mem_lineagesOfAll _ children
          rw [hrest]
          exact hsplit other hmem
      | inside habove hchild hbefore hbetween =>
          rw [hbefore]
          exact .inside habove hchild (List.cons_append ..).symm hbetween

theorem nests_of_lineagesOfAll : ∀ (above nodes : List TreeNode) {before after : List Lineage}
    {l : Lineage}, lineagesOfAll above nodes = before ++ l :: after → Nests above nodes before l
  | above, [], before, after, l, h => absurd h (by simp [lineagesOfAll])
  | above, node :: rest, before, after, l, h => by
      rw [lineagesOfAll] at h
      rcases List.append_eq_append_iff.mp h with ⟨more, hbefore, hrest⟩ | ⟨more, hfirst, hmore⟩
      · rw [hbefore]
        apply (nests_of_lineagesOfAll above rest hrest).prepend
        exact fun other => List.mem_cons_of_mem node
      · cases more with
        | nil =>
            rw [List.append_nil] at hfirst
            rw [← List.nil_append (l :: after)] at hmore
            have hnests := nests_of_lineagesOfAll above rest hmore.symm
            rw [← hfirst, ← List.append_nil (lineages above node)]
            exact hnests.prepend (fun other => List.mem_cons_of_mem node) _
        | cons first others =>
            rw [List.cons_append, List.cons.injEq] at hmore
            rw [← hmore.1] at hfirst
            exact (nests_of_lineages above node hfirst).prepend (by simp) []

end

mutual

theorem head?_of_lineages : ∀ (above : List TreeNode) (node : TreeNode)
    {before after : List Lineage} {l : Lineage} {child : TreeNode} {rest : List TreeNode},
    lineages above node = before ++ l :: after → l.node.children = child :: rest →
    after.head? = some ⟨l.node :: l.above, child⟩
  | above, node, [], after, l, child, rest, h, hchildren => by
      rw [lineages_eq, List.nil_append, List.cons.injEq] at h
      rcases h with ⟨rfl, rfl⟩
      rw [hchildren, lineagesOfAll, lineages_eq]
      rfl
  | above, file _ _ _, _ :: before, after, l, _, _, h, _ => by
      rw [lineages, List.cons_append, List.cons.injEq] at h
      exact absurd h.2.symm (by simp)
  | above, folder name path children, _ :: before, after, l, _, _, h, hchildren => by
      rw [lineages, List.cons_append, List.cons.injEq] at h
      exact head?_of_lineagesOfAll _ children h.2 hchildren

theorem head?_of_lineagesOfAll : ∀ (above nodes : List TreeNode)
    {before after : List Lineage} {l : Lineage} {child : TreeNode} {rest : List TreeNode},
    lineagesOfAll above nodes = before ++ l :: after → l.node.children = child :: rest →
    after.head? = some ⟨l.node :: l.above, child⟩
  | above, [], before, after, l, _, _, h, _ => absurd h (by simp [lineagesOfAll])
  | above, node :: others, before, after, l, child, rest, h, hchildren => by
      rw [lineagesOfAll] at h
      rcases List.append_eq_append_iff.mp h with ⟨more, hbefore, hrest⟩ | ⟨more, hfirst, hmore⟩
      · exact head?_of_lineagesOfAll above others hrest hchildren
      · cases more with
        | nil =>
            rw [← List.nil_append (l :: after)] at hmore
            exact head?_of_lineagesOfAll above others hmore.symm hchildren
        | cons first behind =>
            rw [List.cons_append, List.cons.injEq] at hmore
            rw [← hmore.1] at hfirst
            rw [hmore.2, List.head?_append, head?_of_lineages above node hfirst hchildren]
            rfl

end

end

/-!
## Paths
-/

/-- Holds of a tree whose nodes are shaped and have paths of their own. -/
structure Regular (tree : TreeNode) : Prop where
  rooted : tree.path = Path.root
  shaped : Shaped "" tree.children
  distinct : (tree.descendants.map path).Nodup

section
variable {parent : String} {nodes : List TreeNode} {node : TreeNode}

theorem Shaped.isAbove (h : Shaped parent nodes) (hmem : node ∈ nodes.flatMap TreeNode.nodes) :
    Path.IsAbove parent node.path := by
  induction h with
  | @of_nodes parent _ _ _ located _ _ ih =>
      rcases List.mem_flatMap.mp hmem with ⟨top, htop, hnode⟩
      have habove := Path.isAbove_slash parent top.name
      rw [← located top htop] at habove
      rw [nodes_eq, List.mem_cons] at hnode
      rcases hnode with rfl | hdeeper
      · exact habove
      · exact habove.trans (ih top htop hdeeper)

theorem Shaped.children_ne_nil (h : Shaped parent nodes)
    (hmem : node ∈ nodes.flatMap TreeNode.nodes) (hfolder : node.isFolder = true) :
    node.children ≠ [] := by
  induction h with
  | of_nodes _ _ _ filled _ ih =>
      rcases List.mem_flatMap.mp hmem with ⟨top, htop, hnode⟩
      rw [nodes_eq, List.mem_cons] at hnode
      rcases hnode with rfl | hdeeper
      · exact filled node htop hfolder
      · exact ih top htop hdeeper

theorem prefix_of_mem_nodes {top : TreeNode} (h : Shaped top.path top.children)
    (hmem : node ∈ top.nodes) :
    (top.path.toList ++ ['/']) <+: (node.path.toList ++ ['/']) := by
  rw [nodes_eq, List.mem_cons] at hmem
  rcases hmem with rfl | hdeeper
  · exact List.prefix_refl _
  · have habove : (top.path.toList ++ ['/']) <+: node.path.toList := h.isAbove hdeeper
    exact habove.trans (List.prefix_append _ _)

theorem name_eq_of_prefix {name other : String} (hname : Path.IsSegment name)
    (hother : Path.IsSegment other) {text : List Char}
    (h : ((parent ++ "/" ++ name).toList ++ ['/']) <+: text)
    (h' : ((parent ++ "/" ++ other).toList ++ ['/']) <+: text) : name = other := by
  rcases h with ⟨rest, htext⟩
  rcases h' with ⟨more, hmore⟩
  rw [← hmore] at htext
  simp only [String.toList_append, List.append_assoc, List.append_cancel_left_eq] at htext
  exact String.toList_inj.mp (Text.eq_of_append_separator hname.2 hother.2 htext)

/-- No two nodes have one path, unless one is a file and one a folder. -/
theorem Shaped.nodup_paths (h : Shaped parent nodes)
    (hkind : ∀ a ∈ nodes.flatMap TreeNode.nodes, ∀ b ∈ nodes.flatMap TreeNode.nodes,
      a.path = b.path → a.isFolder = b.isFolder) :
    ((nodes.flatMap TreeNode.nodes).map path).Nodup := by
  induction h with
  | @of_nodes parent nodes ordered named located _ below ih =>
      have hnodes : ∀ node ∈ nodes, ∀ other ∈ node.nodes, other ∈ nodes.flatMap TreeNode.nodes :=
        fun node hnode other hother => List.mem_flatMap.mpr ⟨node, hnode, hother⟩
      rw [List.map_flatMap, List.nodup_flatMap]
      constructor
      · intro node hnode
        rw [nodes_eq, List.map_cons, List.nodup_cons]
        constructor
        · intro hsame
          rcases List.mem_map.mp hsame with ⟨other, hother, hpath⟩
          have hlength := ((below node hnode).isAbove hother).length_lt
          rw [hpath] at hlength
          exact Nat.lt_irrefl _ hlength
        · apply ih node hnode
          intro a ha b hb
          exact hkind a (hnodes node hnode a (mem_nodes_of_descendant ha)) b
            (hnodes node hnode b (mem_nodes_of_descendant hb))
      · apply ordered.imp_of_mem
        intro a b ha hb hab
        apply List.disjoint_left.mpr
        intro path hpath hother
        rcases List.mem_map.mp hpath with ⟨node, hnode, hsame⟩
        rcases List.mem_map.mp hother with ⟨other, hmem, hsameOther⟩
        have hfrom := prefix_of_mem_nodes (below a ha) hnode
        have hfromOther := prefix_of_mem_nodes (below b hb) hmem
        rw [located a ha, hsame] at hfrom
        rw [located b hb, hsameOther] at hfromOther
        have hname := name_eq_of_prefix (named a ha) (named b hb) hfrom hfromOther
        have halike : a.isFolder = b.isFolder := by
          apply hkind a (hnodes a ha a a.mem_nodes_self) b (hnodes b hb b b.mem_nodes_self)
          rw [located a ha, located b hb, hname]
        rcases hab with ⟨hfolder, hfile⟩ | ⟨_, hlt⟩
        · rw [hfolder, hfile] at halike
          cases halike
        · rw [hname] at hlt
          exact String.lt_irrefl _ hlt

end

theorem Separate.isFolder_eq {files : List File} (h : Separate files) {a b : TreeNode}
    (ha : a ∈ (ofFiles files).descendants) (hb : b ∈ (ofFiles files).descendants)
    (hpath : a.path = b.path) : a.isFolder = b.isFolder := by
  have hmarks : ∀ node ∈ (ofFiles files).descendants,
      (node.isFolder = false ∧ ∃ file ∈ files, node.path = file.path) ∨
        (node.isFolder = true ∧ ∃ file ∈ files, Path.IsAbove node.path file.path) := by
    intro node hnode
    have hmark : (node.path, node.fileKind?) ∈ marks (ofFiles files).children :=
      List.mem_map_of_mem hnode
    rcases h.mem_marks_iff.mp hmark with
      ⟨file, hfile, hsame, hkind⟩ | ⟨file, hfile, _, habove, hkind⟩
    · cases node with
      | file _ _ _ => exact .inl ⟨rfl, file, hfile, hsame⟩
      | folder _ _ _ => cases hkind
    · cases node with
      | file _ _ _ => cases hkind
      | folder _ _ _ => exact .inr ⟨rfl, file, hfile, habove⟩
  rcases hmarks a ha with ⟨hkind, file, hfile, hsame⟩ | ⟨hkind, file, hfile, habove⟩
  · rcases hmarks b hb with ⟨hother, _⟩ | ⟨_, other, hother, hbelow⟩
    · rw [hkind, hother]
    · rw [← hpath, hsame] at hbelow
      exact absurd hbelow (h.exclusive file hfile other hother)
  · rcases hmarks b hb with ⟨_, other, hother, hsame⟩ | ⟨hother, _⟩
    · rw [hpath, hsame] at habove
      exact absurd habove (h.exclusive other hother file hfile)
    · rw [hkind, hother]

theorem Separate.regular {files : List File} (h : Separate files) : Regular (ofFiles files) where
  rooted := rfl
  shaped := shaped_ofFiles h.nodup_placesOf
  distinct := (shaped_ofFiles h.nodup_placesOf).nodup_paths fun _ ha _ hb => h.isFolder_eq ha hb

/-!
## Lineages and paths
-/

section
variable {tree node folder : TreeNode} {above rest : List TreeNode} {l : Lineage}

theorem map_node_lineagesBelow (tree : TreeNode) :
    tree.lineagesBelow.map Lineage.node = tree.descendants :=
  map_node_lineagesOfAll [] tree.children

theorem mem_descendants_of_lineage (h : l ∈ tree.lineagesBelow) : l.node ∈ tree.descendants := by
  rw [← map_node_lineagesBelow]
  exact List.mem_map_of_mem h

theorem exists_lineage (h : node ∈ tree.descendants) :
    ∃ above, ⟨above, node⟩ ∈ tree.lineagesBelow := by
  rw [← map_node_lineagesBelow] at h
  rcases List.mem_map.mp h with ⟨l, hmem, rfl⟩
  exact ⟨l.above, hmem⟩

theorem inside_of_mem (h : ⟨folder :: rest, node⟩ ∈ tree.lineagesBelow) :
    ⟨rest, folder⟩ ∈ tree.lineagesBelow ∧ node ∈ folder.children := by
  rcases List.append_of_mem h with ⟨before, after, hsplit⟩
  cases nests_of_lineagesOfAll [] tree.children hsplit with
  | top habove _ => cases habove
  | inside habove hchild hbefore _ =>
      cases habove
      refine ⟨?_, hchild⟩
      rw [hsplit, hbefore]
      simp

theorem top_of_mem (h : ⟨[], node⟩ ∈ tree.lineagesBelow) : node ∈ tree.children := by
  rcases List.append_of_mem h with ⟨before, after, hsplit⟩
  cases nests_of_lineagesOfAll [] tree.children hsplit with
  | top _ hnode => exact hnode
  | inside habove _ _ _ => cases habove

theorem Regular.shaped_of_mem (h : Regular tree) (hmem : node ∈ tree.descendants) :
    node.path ≠ Path.root ∧ Shaped node.path node.children :=
  (h.shaped.of_mem hmem).2

theorem Regular.ne_empty (h : Regular tree) (hmem : node ∈ tree.descendants) :
    node.path ≠ "" := by
  intro hempty
  have hlength := (h.shaped.isAbove hmem).length_lt
  rw [hempty] at hlength
  exact Nat.not_lt_zero _ hlength

theorem Regular.eq_of_path_eq (h : Regular tree) {other : TreeNode}
    (hmem : node ∈ tree.descendants) (hother : other ∈ tree.descendants)
    (hpath : node.path = other.path) : node = other :=
  List.inj_on_of_nodup_map h.distinct hmem hother hpath

/-- The folder that a path spells is the nearest one that its node lies in. -/
theorem Regular.parent_of_inside (h : Regular tree)
    (hmem : ⟨folder :: rest, node⟩ ∈ tree.lineagesBelow) : Path.parent node.path = folder.path := by
  rcases inside_of_mem hmem with ⟨hfolder, hchild⟩
  have hbelow : folder ∈ tree.descendants := mem_descendants_of_lineage hfolder
  rcases (shaped_iff.mp (h.shaped_of_mem hbelow).2).2 node hchild with ⟨hname, hpath, _⟩
  rw [hpath, Path.parent_slash hname, if_neg (h.ne_empty hbelow)]

theorem Regular.parent_of_top (h : Regular tree) (hmem : ⟨[], node⟩ ∈ tree.lineagesBelow) :
    Path.parent node.path = Path.root := by
  rcases (shaped_iff.mp h.shaped).2 node (top_of_mem hmem) with ⟨hname, hpath, _⟩
  rw [hpath, Path.parent_slash hname, if_pos rfl]

theorem Regular.ancestors_eq (h : Regular tree) {fuel : Nat}
    (hmem : ⟨above, node⟩ ∈ tree.lineagesBelow) (hfuel : above.length ≤ fuel) :
    Bundle.ancestors fuel node.path = above.map path := by
  induction above generalizing node fuel with
  | nil =>
      cases fuel with
      | zero => rfl
      | succ fuel => rw [Bundle.ancestors, h.parent_of_top hmem]; rfl
  | cons folder rest ih =>
      cases fuel with
      | zero => cases hfuel
      | succ fuel =>
          have hfolder := (inside_of_mem hmem).1
          have hnotRoot := (h.shaped_of_mem (mem_descendants_of_lineage hfolder)).1
          rw [Bundle.ancestors, h.parent_of_inside hmem, if_neg hnotRoot, List.map_cons,
            ih hfolder (Nat.le_of_succ_le_succ hfuel)]

theorem Regular.length_above_le (h : Regular tree) (hmem : ⟨above, node⟩ ∈ tree.lineagesBelow) :
    above.length ≤ node.path.toList.length := by
  induction above generalizing node with
  | nil => exact Nat.zero_le _
  | cons folder rest ih =>
      rcases inside_of_mem hmem with ⟨hfolder, hchild⟩
      have hshorter : folder.path.toList.length < node.path.toList.length := by
        have hbelow := mem_descendants_of_lineage hfolder
        exact ((h.shaped_of_mem hbelow).2.isAbove (mem_descendants_of_child hchild)).length_lt
      exact Nat.succ_le_of_lt (Nat.lt_of_le_of_lt (ih hfolder) hshorter)

theorem in_of_mem_above (hmem : ⟨above, node⟩ ∈ tree.lineagesBelow) (hfolder : folder ∈ above) :
    folder ∈ tree.descendants ∧ node ∈ folder.descendants := by
  induction above generalizing node with
  | nil => cases hfolder
  | cons nearest rest ih =>
      rcases inside_of_mem hmem with ⟨hnearest, hchild⟩
      rcases List.mem_cons.mp hfolder with rfl | hrest
      · exact ⟨mem_descendants_of_lineage hnearest, mem_descendants_of_child hchild⟩
      · rcases ih hnearest hrest with ⟨hbelow, hdeeper⟩
        refine ⟨hbelow, mem_flatMap_nodes_trans folder.children hdeeper ?_⟩
        exact mem_nodes_of_descendant (mem_descendants_of_child hchild)

/-- The folders of a lineage are all those that its node lies in. -/
theorem Regular.mem_above_iff (h : Regular tree) (hmem : ⟨above, node⟩ ∈ tree.lineagesBelow) :
    folder ∈ above ↔ folder ∈ tree.descendants ∧ node ∈ folder.descendants := by
  constructor
  · exact in_of_mem_above hmem
  · rintro ⟨hbelow, hin⟩
    rcases h.shaped_of_mem hbelow with ⟨hnotRoot, hshaped⟩
    have hlisted : folder.path ∈ Bundle.ancestors node.path.toList.length node.path :=
      Bundle.mem_ancestors_iff.mpr ⟨h.ne_empty hbelow, hnotRoot, hshaped.isAbove hin⟩
    rw [h.ancestors_eq hmem (h.length_above_le hmem)] at hlisted
    rcases List.mem_map.mp hlisted with ⟨other, hother, hpath⟩
    rw [← h.eq_of_path_eq (in_of_mem_above hmem hother).1 hbelow hpath]
    exact hother

end

end TreeNode
end StencilDesk
