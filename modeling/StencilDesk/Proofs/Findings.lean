import Mathlib.Data.List.Perm.Lattice
import StencilDesk.Finding

/-!
# Counting findings

Counts add up, and do not depend on the order in which findings are listed. So the counts of a board
are the sum over any list of paths without repetition that leaves out no path with findings.
-/

namespace StencilDesk

namespace FindingCounts

instance : Add FindingCounts where
  add a b :=
    { total := a.total + b.total, errors := a.errors + b.errors
      warnings := a.warnings + b.warnings, infos := a.infos + b.infos }

instance : Zero FindingCounts where
  zero := {}

theorem ofList_append (a b : List Finding) : ofList (a ++ b) = ofList a + ofList b := by
  show ofList (a ++ b) = FindingCounts.mk _ _ _ _
  simp only [ofList, countOf, List.length_append, List.countP_append]

theorem ofList_flatMap {α : Type} (f : α → List Finding) (list : List α) :
    ofList (list.flatMap f) = (list.map fun a => ofList (f a)).sum := by
  induction list with
  | nil => rfl
  | cons a rest ih => rw [List.flatMap_cons, ofList_append, ih, List.map_cons, List.sum_cons]

theorem ofList_perm {a b : List Finding} (h : a.Perm b) : ofList a = ofList b := by
  simp only [ofList, countOf, h.length_eq, h.countP_eq]

end FindingCounts

/-!
## The findings of a board
-/

theorem flatMap_filter_of_nil {α β : Type} (f : α → List β) (keep : α → Bool) (list : List α)
    (h : ∀ a ∈ list, keep a = false → f a = []) :
    (list.filter keep).flatMap f = list.flatMap f := by
  induction list with
  | nil => rfl
  | cons a rest ih =>
      have hrest := ih fun b hmem => h b (List.mem_cons_of_mem _ hmem)
      cases hkeep : keep a with
      | true => rw [List.filter_cons_of_pos hkeep, List.flatMap_cons, List.flatMap_cons, hrest]
      | false =>
          rw [List.filter_cons_of_neg (by simp [hkeep]), List.flatMap_cons, hrest,
            h a List.mem_cons_self hkeep]
          rfl

theorem filter_flatMap_of_nodup {α β : Type} [DecidableEq α] {f : α → List β} {key : β → α}
    (hkey : ∀ a, ∀ b ∈ f a, key b = a) {keys : List α} (hnodup : keys.Nodup) (a : α) :
    (keys.flatMap f).filter (fun b => key b == a) = if a ∈ keys then f a else [] := by
  induction keys with
  | nil => rfl
  | cons first rest ih =>
      rw [List.nodup_cons] at hnodup
      rw [List.flatMap_cons, List.filter_append, ih hnodup.2]
      by_cases hfirst : a = first
      · have hall : ∀ b ∈ f a, (key b == a) = true := by
          intro b hb
          rw [hkey a b hb, BEq.rfl]
        rw [← hfirst, List.filter_eq_self.mpr hall, if_neg (hfirst ▸ hnodup.1),
          if_pos List.mem_cons_self, List.append_nil]
      · have hnone : ∀ b ∈ f first, ¬(key b == a) = true := by
          intro b hb
          rw [hkey first b hb, beq_iff_eq]
          exact Ne.symm hfirst
        rw [List.filter_eq_nil_iff.mpr hnone, List.nil_append]
        simp only [List.mem_cons, hfirst, false_or]

namespace PathMap

variable {α : Type}

theorem nodup_paths (map : PathMap α) : map.paths.Nodup := by
  rw [paths, List.Nodup, List.pairwise_map]
  apply map.ascending.imp
  intro a b hlt hsame
  rw [hsame] at hlt
  exact String.lt_irrefl b.1 hlt

theorem get?_of_mem_entries {map : PathMap α} {entry : String × α} (h : entry ∈ map.entries) :
    map.get? entry.1 = some entry.2 := by
  have hnodup := map.nodup_paths
  unfold paths at hnodup
  unfold get?
  generalize map.entries = entries at h hnodup
  induction entries with
  | nil => cases h
  | cons first rest ih =>
      rw [List.map_cons, List.nodup_cons] at hnodup
      rcases hnodup with ⟨hfirst, hrest⟩
      rw [List.find?_cons]
      rcases List.mem_cons.mp h with hsame | hmem
      · rw [hsame]
        simp
      · have hdiffers : (first.1 == entry.1) = false := by
          rw [beq_eq_false_iff_ne]
          intro hsame
          apply hfirst
          rw [hsame]
          exact List.mem_map_of_mem hmem
        rw [hdiffers]
        exact ih hmem hrest

theorem mem_paths_of_get? {map : PathMap α} {path : String} {value : α}
    (h : map.get? path = some value) : path ∈ map.paths := by
  rcases Option.map_eq_some_iff.mp h with ⟨entry, hfound, _⟩
  have hsame : entry.1 = path := by simpa using List.find?_some hfound
  rw [← hsame]
  exact List.mem_map_of_mem (List.mem_of_find?_eq_some hfound)

end PathMap

namespace FindingBoard

theorem all_eq_flatMap (board : FindingBoard) : board.all = board.paths.flatMap board.findings := by
  unfold all paths PathMap.values PathMap.paths
  rw [List.flatMap_map, ← List.flatMap_def]
  apply List.flatMap_congr
  intro entry hmem
  unfold findings
  rw [PathMap.get?_of_mem_entries hmem]
  rfl

theorem mem_paths_of_findings {board : FindingBoard} {path : String}
    (h : board.findings path ≠ []) : path ∈ board.paths := by
  cases hfound : board.byPath.get? path with
  | none =>
      exfalso
      apply h
      rw [findings, hfound]
      rfl
  | some list => exact PathMap.mem_paths_of_get? hfound

/-- A list of paths without repetition lists all findings, if all others have none. -/
theorem all_perm_flatMap (board : FindingBoard) {paths : List String} (hnodup : paths.Nodup)
    (hothers : ∀ path, path ∉ paths → board.findings path = []) :
    board.all.Perm (paths.flatMap board.findings) := by
  let keep : String → Bool := fun path => !(board.findings path).isEmpty
  have hdrop : ∀ list : List String, ∀ path ∈ list, keep path = false →
      board.findings path = [] := by
    intro list path _ hkeep
    simpa [keep] using hkeep
  have hboard : board.paths.Nodup := board.byPath.nodup_paths
  have hperm : (board.paths.filter keep).Perm (paths.filter keep) := by
    rw [List.perm_ext_iff_of_nodup (hboard.filter _) (hnodup.filter _)]
    intro path
    rw [List.mem_filter, List.mem_filter]
    apply and_congr_left
    intro hkeep
    have hsome : board.findings path ≠ [] := by simpa [keep] using hkeep
    exact ⟨fun _ => Classical.byContradiction fun hout => hsome (hothers path hout),
      fun _ => mem_paths_of_findings hsome⟩
  rw [all_eq_flatMap, ← flatMap_filter_of_nil board.findings keep board.paths (hdrop _),
    ← flatMap_filter_of_nil board.findings keep paths (hdrop _)]
  exact hperm.flatMap_right _

def NamesFiles (board : FindingBoard) : Prop :=
  ∀ path, ∀ finding ∈ board.findings path, finding.file = path

theorem NamesFiles.filter_all {board : FindingBoard} (h : board.NamesFiles) (path : String) :
    board.all.filter (fun finding => finding.file == path) = board.findings path := by
  have hboard : board.paths.Nodup := board.byPath.nodup_paths
  rw [all_eq_flatMap, filter_flatMap_of_nodup h hboard]
  split
  · rfl
  · rename_i hout
    exact (Classical.byContradiction fun hsome => hout (mem_paths_of_findings hsome)).symm

theorem counts_eq_sum (board : FindingBoard) {paths : List String} (hnodup : paths.Nodup)
    (hothers : ∀ path, path ∉ paths → board.findings path = []) :
    board.counts = (paths.map fun path => FindingCounts.ofList (board.findings path)).sum := by
  unfold counts
  rw [FindingCounts.ofList_perm (board.all_perm_flatMap hnodup hothers),
    FindingCounts.ofList_flatMap]

theorem counts_congr {a b : FindingBoard} (h : ∀ path, a.findings path = b.findings path) :
    a.counts = b.counts := by
  have hothers : ∀ path, path ∉ a.paths → b.findings path = [] := by
    intro path hmem
    rw [← h path]
    exact Classical.byContradiction fun hsome => hmem (mem_paths_of_findings hsome)
  have hnodup : a.paths.Nodup := a.byPath.nodup_paths
  unfold counts
  rw [all_eq_flatMap a, FindingCounts.ofList_perm (b.all_perm_flatMap hnodup hothers),
    List.flatMap_congr fun path _ => h path]

end FindingBoard

end StencilDesk
