import StencilDesk.Proofs.Bundle.Shape

/-!
# Trees do not depend on the order of the files

Adding one file and then another gives what adding them the other way round gives, whatever is
there already: a folder that both need is opened by the first one, and siblings find their places
one by one. So a tree is the same for every order of its files, even if a path is there twice, or
names a file and a folder.
-/

namespace StencilDesk
namespace TreeNode

/-!
## Siblings
-/

section
variable {a b c : TreeNode}

theorem le_total (a b : TreeNode) : a.le b = true ∨ b.le a = true := by
  rw [le_eq_true_iff, le_eq_true_iff]
  rcases precedes_or_alike a b with h | h | h
  · exact .inl (.inl h)
  · exact .inl (.inr h)
  · exact .inr (.inl h)

theorem le_trans (hab : a.le b = true) (hbc : b.le c = true) : a.le c = true := by
  rw [le_eq_true_iff] at *
  rcases hab with hab | ⟨hkind, hname⟩
  · rcases hbc with hbc | ⟨hkind, hname⟩
    · exact .inl (hab.trans hbc)
    · left
      rw [Precedes, ← hkind, ← hname]
      exact hab
  · rw [Precedes, Alike, hkind, hname]
    exact hbc

theorem alike_of_le (hab : a.le b = true) (hba : b.le a = true) : Alike a b := by
  rcases le_eq_true_iff.mp hab with hab | halike
  · rcases le_eq_true_iff.mp hba with hba | ⟨hkind, hname⟩
    · exact (hab.trans hba).irrefl.elim
    · exact ⟨hkind.symm, hname.symm⟩
  · exact halike

theorem insertNode_comm (h : Alike a b → a = b) (nodes : List TreeNode) :
    insertNode a (insertNode b nodes) = insertNode b (insertNode a nodes) := by
  -- Up to the first sibling that is listed behind one of the two, both go on.
  have htotal := le_total a b
  have hsame : a.le b = true → b.le a = true → a = b := fun hab hba => h (alike_of_le hab hba)
  induction nodes with
  | nil => grind [insertNode]
  | cons first rest ih =>
      have hthroughB : first.le b = true → b.le a = true → first.le a = true := le_trans
      have hthroughA : first.le a = true → a.le b = true → first.le b = true := le_trans
      grind [insertNode]

end

/-!
## Changes below one folder
-/

/-- Changes what is below the folder of some name, opening it if it is not there. -/
def changeFolder (name path : String) (f : List TreeNode → List TreeNode)
    (nodes : List TreeNode) : List TreeNode :=
  if nodes.any (isFolderNamed name) then nodes.map (changeNamed name f)
  else insertNode (folder name path (f [])) nodes

section
variable {name other path otherPath : String} {f g : List TreeNode → List TreeNode}
  {node : TreeNode} {nodes : List TreeNode}

theorem addFile_eq_changeFolder (kind : FileKind) (parent name next : String)
    (rest : List String) :
    addFile kind parent (name :: next :: rest) =
      changeFolder name (parent ++ "/" ++ name)
        (addFile kind (parent ++ "/" ++ name) (next :: rest)) := rfl

@[simp] theorem isFolderNamed_changeNamed :
    (changeNamed name f node).isFolderNamed other = node.isFolderNamed other := by
  rw [isFolderNamed, isFolder_changeNamed, name_changeNamed]
  rfl

@[simp] theorem le_changeNamed (a b : TreeNode) :
    (changeNamed name f a).le (changeNamed name f b) = a.le b := by
  simp only [le, isFolder_changeNamed, name_changeNamed]

theorem changeNamed_of_false (h : node.isFolderNamed name = false) :
    changeNamed name f node = node := by
  rw [changeNamed, h]
  rfl

theorem changeNamed_changeNamed :
    changeNamed name f (changeNamed name g node) = changeNamed name (f ∘ g) node := by
  rw [changeNamed, isFolderNamed_changeNamed, changeNamed, changeNamed]
  split
  · cases node <;> rfl
  · rfl

theorem changeNamed_comm (h : name ≠ other) :
    changeNamed name f (changeNamed other g node) =
      changeNamed other g (changeNamed name f node) := by
  by_cases hnamed : node.isFolderNamed name = true
  · have hother : node.isFolderNamed other = false := by
      rw [Bool.eq_false_iff]
      intro hboth
      exact h ((isFolderNamed_iff.mp hnamed).2.symm.trans (isFolderNamed_iff.mp hboth).2)
    have hchanged : (changeNamed name f node).isFolderNamed other = false := by
      rw [isFolderNamed_changeNamed, hother]
    rw [changeNamed_of_false hother, changeNamed_of_false hchanged]
  · rw [Bool.not_eq_true] at hnamed
    have hchanged : (changeNamed other g node).isFolderNamed name = false := by
      rw [isFolderNamed_changeNamed, hnamed]
    rw [changeNamed_of_false hnamed, changeNamed_of_false hchanged]

theorem map_changeNamed_insertNode :
    (insertNode node nodes).map (changeNamed name f) =
      insertNode (changeNamed name f node) (nodes.map (changeNamed name f)) := by
  induction nodes with
  | nil => rfl
  | cons first rest ih =>
      rw [insertNode, List.map_cons, insertNode, le_changeNamed]
      split
      · rw [List.map_cons, ih]
      · rfl

theorem any_isFolderNamed_map :
    (nodes.map (changeNamed name f)).any (isFolderNamed other) =
      nodes.any (isFolderNamed other) := by
  rw [List.any_map]
  congr 1
  funext node
  exact isFolderNamed_changeNamed

theorem any_isFolderNamed_insertNode :
    (insertNode node nodes).any (isFolderNamed other) =
      (node.isFolderNamed other || nodes.any (isFolderNamed other)) := by
  rw [(perm_insertNode node nodes).any_eq, List.any_cons]

theorem changeFolder_of_any (h : nodes.any (isFolderNamed name) = true) :
    changeFolder name path f nodes = nodes.map (changeNamed name f) := if_pos h

theorem changeFolder_of_none (h : ¬nodes.any (isFolderNamed name) = true) :
    changeFolder name path f nodes = insertNode (folder name path (f [])) nodes := if_neg h

theorem changeFolder_changeFolder :
    changeFolder name path f (changeFolder name path g nodes) =
      changeFolder name path (f ∘ g) nodes := by
  by_cases hthere : nodes.any (isFolderNamed name) = true
  · rw [changeFolder_of_any hthere, changeFolder_of_any hthere,
      changeFolder_of_any (any_isFolderNamed_map.trans hthere), List.map_map]
    apply List.map_congr_left
    intro node _
    exact changeNamed_changeNamed
  · have hopened : (folder name path (g [])).isFolderNamed name = true :=
      isFolderNamed_iff.mpr ⟨rfl, rfl⟩
    have hkept : nodes.map (changeNamed name f) = nodes := by
      apply mapChildren_of_none
      simpa using hthere
    rw [changeFolder_of_none hthere, changeFolder_of_none hthere, changeFolder_of_any,
      map_changeNamed_insertNode, hkept, changeNamed, if_pos hopened]
    · rfl
    · rw [any_isFolderNamed_insertNode, hopened, Bool.true_or]

theorem changeFolder_insertNode (hnamed : node.isFolderNamed name = false) :
    changeFolder name path f (insertNode node nodes) =
      insertNode node (changeFolder name path f nodes) := by
  unfold changeFolder
  rw [any_isFolderNamed_insertNode, hnamed, Bool.false_or]
  split
  · rw [map_changeNamed_insertNode, changeNamed_of_false hnamed]
  · apply insertNode_comm
    rintro ⟨hkind, hname⟩
    -- An alike node would be a folder of this name.
    have hthere : node.isFolderNamed name = true := isFolderNamed_iff.mpr ⟨hkind.symm, hname.symm⟩
    rw [hthere] at hnamed
    cases hnamed

theorem changeFolder_map (h : name ≠ other) :
    changeFolder name path f (nodes.map (changeNamed other g)) =
      (changeFolder name path f nodes).map (changeNamed other g) := by
  have hkept : (folder name path (f [])).isFolderNamed other = false := by
    rw [Bool.eq_false_iff]
    intro hnamed
    exact h (isFolderNamed_iff.mp hnamed).2
  unfold changeFolder
  rw [any_isFolderNamed_map]
  split
  · rw [List.map_map, List.map_map]
    apply List.map_congr_left
    intro node _
    exact changeNamed_comm h
  · rw [map_changeNamed_insertNode, changeNamed_of_false hkept]

theorem changeFolder_comm (h : name ≠ other) :
    changeFolder name path f (changeFolder other otherPath g nodes) =
      changeFolder other otherPath g (changeFolder name path f nodes) := by
  have hopened : (folder other otherPath (g [])).isFolderNamed name = false := by
    rw [Bool.eq_false_iff]
    intro hnamed
    exact h (isFolderNamed_iff.mp hnamed).2.symm
  have hthere : (changeFolder name path f nodes).any (isFolderNamed other) =
      nodes.any (isFolderNamed other) := by
    have hother : (folder name path (f [])).isFolderNamed other = false := by
      rw [Bool.eq_false_iff]
      intro hnamed
      exact h (isFolderNamed_iff.mp hnamed).2
    unfold changeFolder
    split
    · exact any_isFolderNamed_map
    · rw [any_isFolderNamed_insertNode, hother, Bool.false_or]
  by_cases hany : nodes.any (isFolderNamed other) = true
  · rw [changeFolder_of_any hany, changeFolder_of_any (hthere.trans hany)]
    exact changeFolder_map h
  · have hnone : ¬(changeFolder name path f nodes).any (isFolderNamed other) = true := by
      rw [hthere]
      exact hany
    rw [changeFolder_of_none hany, changeFolder_of_none hnone]
    exact changeFolder_insertNode hopened

end

/-!
## Files in any order
-/

theorem addFile_comm {kind otherKind : FileKind} {names others : List String} (parent : String)
    (nodes : List TreeNode)
    (h : ∀ name, names.getLast? = some name → others.getLast? = some name → kind = otherKind) :
    addFile kind parent names (addFile otherKind parent others nodes) =
      addFile otherKind parent others (addFile kind parent names nodes) := by
  -- Along the first names; as long as both paths go down the same folders.
  induction names generalizing parent others nodes with
  | nil => rfl
  | cons name rest ih =>
      cases others with
      | nil => rfl
      | cons otherName more =>
          cases rest with
          | nil =>
              cases more with
              | nil =>
                  apply insertNode_comm
                  rintro ⟨_, hname⟩
                  have hsame : name = otherName := hname
                  rw [h name rfl (congrArg some hsame.symm), hsame]
              | cons next deeper =>
                  rw [addFile_eq_changeFolder]
                  exact (changeFolder_insertNode rfl).symm
          | cons next deeper =>
              cases more with
              | nil =>
                  rw [addFile_eq_changeFolder]
                  exact changeFolder_insertNode rfl
              | cons otherNext otherDeeper =>
                  rw [addFile_eq_changeFolder, addFile_eq_changeFolder]
                  by_cases hname : name = otherName
                  · rw [hname, changeFolder_changeFolder, changeFolder_changeFolder]
                    congr 1
                    funext children
                    apply ih
                    intro last hlast hotherLast
                    apply h last
                    · rw [List.getLast?_cons_cons]
                      exact hlast
                    · rw [List.getLast?_cons_cons]
                      exact hotherLast
                  · exact changeFolder_comm hname

theorem kind_eq_of_getLast? {file other : File} (hfile : file.Derived) (hother : other.Derived)
    (hcheck : Path.check file.path = .ok ()) (hcheckOther : Path.check other.path = .ok ())
    {name : String} (h : (Path.segments file.path).getLast? = some name)
    (hsame : (Path.segments other.path).getLast? = some name) : file.kind = other.kind := by
  have hnamed : ∀ {path : String}, Path.check path = .ok () →
      (Path.segments path).getLast? = some name → Path.name path = name := by
    intro path hpath hlast
    have hroot : path ≠ Path.root := by
      rintro rfl
      cases hlast
    rw [Path.getLast?_segments hpath hroot] at hlast
    exact Option.some.inj hlast
  rw [hfile.kind_eq, hother.kind_eq, hfile.name_eq, hother.name_eq, hnamed hcheck h,
    hnamed hcheckOther hsame]

/-- A tree does not depend on the order of its files. -/
theorem ofFiles_perm {files others : List File} (hderived : File.AllDerived files)
    (hcheck : ∀ file ∈ files, Path.check file.path = .ok ()) (h : files.Perm others) :
    ofFiles files = ofFiles others := by
  unfold ofFiles
  congr 1
  apply h.foldl_eq'
  intro file hfile other hother nodes
  apply addFile_comm
  intro name hname hotherName
  exact kind_eq_of_getLast? (hderived other hother) (hderived file hfile) (hcheck other hother)
    (hcheck file hfile) hname hotherName

def sharedFiles : List File :=
  [File.ofPath "/a/b" "x", File.ofPath "/a" "", File.ofPath "/a/b" "y", File.ofPath "/c/a" "",
    File.ofPath "/" ""]

theorem ofFiles_perm_reversed :
    File.AllDerived sharedFiles ∧
      (∀ file ∈ sharedFiles, Path.check file.path = .ok ()) ∧
      sharedFiles.Perm sharedFiles.reverse ∧
      ofFiles sharedFiles = ofFiles sharedFiles.reverse := by
  have hderived : File.AllDerived sharedFiles := by
    simp [File.AllDerived, sharedFiles, File.derived_ofPath]
  have hcheck : ∀ file ∈ sharedFiles, Path.check file.path = .ok () := by
    decide
  have hperm := (List.reverse_perm sharedFiles).symm
  exact ⟨hderived, hcheck, hperm, ofFiles_perm hderived hcheck hperm⟩

end TreeNode
end StencilDesk
