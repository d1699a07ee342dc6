import StencilDesk.Proofs.Session.Run
import StencilDesk.Proofs.Session.Tabs

/-!
# Coherence of a session

The tabs, the active tab and the findings of a session fit its files: every tab shows a file, the
active path is that of a tab, and the board holds what a check of the open files gives. Some steps
of an operation break a part of this, so that the parts are kept apart: what does not depend on the
files, and what does.
-/

namespace StencilDesk

def Tab.Derived (tab : Tab) : Prop :=
  tab.name = Path.name tab.path ∧ tab.kind = FileKind.ofName tab.name

namespace Session

/-- What a session keeps whatever its files are. -/
structure Tidy (s : Session) : Prop where
  tabsDerived : ∀ tab ∈ s.tabs, tab.Derived
  distinct : s.openPaths.Nodup
  activeOpen : ∀ path, s.active = some path → path ∈ s.openPaths
  activeNone : s.active = none → s.openPaths = []
  closedClean : ∀ path, path ∉ s.openPaths → s.findings path = []

/-- A session whose tabs and findings fit its files. -/
structure Coherent (s : Session) : Prop extends Tidy s where
  filesDerived : File.AllDerived s.files
  backed : ∀ path ∈ s.openPaths, File.existsAt s.files path = true
  checked : ∀ path ∈ s.openPaths, s.findings path = s.fileFindings path

theorem derived_ofFile {s : Session} {path : String} {file : File}
    (hfiles : File.AllDerived s.files)
    (h : s.file? path = some file) : (Tab.ofFile file).Derived := by
  have hderived := hfiles file (File.of_find?_eq_some h).1
  exact ⟨hderived.name_eq, hderived.kind_eq⟩

/-!
## What other changes leave alone
-/

theorem Tidy.of_eq {s t : Session} (h : s.Tidy) (htabs : ∀ tab ∈ t.tabs, tab.Derived)
    (hpaths : t.openPaths = s.openPaths) (hactive : t.active = s.active)
    (hboard : t.board = s.board) : t.Tidy where
  tabsDerived := htabs
  distinct := by
    rw [hpaths]
    exact h.distinct
  activeOpen := by
    intro path hpath
    rw [hactive] at hpath
    rw [hpaths]
    exact h.activeOpen path hpath
  activeNone := by
    intro hnone
    rw [hactive] at hnone
    rw [hpaths]
    exact h.activeNone hnone
  closedClean := by
    intro path hclosed
    rw [hpaths] at hclosed
    unfold findings
    rw [hboard]
    exact h.closedClean path hclosed

theorem Coherent.frame {s t : Session} (h : s.Coherent) {path : String}
    (hopen : path ∈ s.openPaths) (hfile : t.file? path = s.file? path)
    (hexpected : t.expected = s.expected) (hfindings : t.findings path = s.findings path) :
    File.existsAt t.files path = true ∧ t.findings path = t.fileFindings path := by
  constructor
  · rw [File.existsAt_eq_isSome, show File.find? t.files path = s.file? path from hfile]
    exact (File.existsAt_eq_isSome s.files path).symm.trans (h.backed path hopen)
  · rw [hfindings, h.checked path hopen]
    unfold fileFindings
    rw [hfile, hexpected]

/-!
## Closing tabs
-/

theorem Tidy.removeTab {s : Session} (h : s.Tidy) (path : String) : (s.removeTab path).Tidy where
  tabsDerived := fun tab hmem => h.tabsDerived tab (List.mem_of_mem_eraseP hmem)
  distinct := by
    rw [openPaths_removeTab path h.distinct]
    exact h.distinct.filter _
  activeOpen := by
    intro active hactive
    rw [mem_openPaths_removeTab h.distinct]
    unfold Session.removeTab at hactive
    by_cases hsame : s.active = some path
    · simp only [if_pos hsame] at hactive
      rw [eraseP_eq_filter h.distinct] at hactive
      rcases Option.map_eq_some_iff.mp hactive with ⟨tab, hhead, htab⟩
      rcases List.mem_filter.mp (List.mem_of_head? hhead) with ⟨hmem, hother⟩
      rw [← htab]
      exact ⟨List.mem_map_of_mem hmem, by simpa using hother⟩
    · simp only [if_neg hsame] at hactive
      refine ⟨h.activeOpen active hactive, ?_⟩
      intro hpath
      rw [hpath] at hactive
      exact hsame hactive
  activeNone := by
    intro hactive
    unfold Session.removeTab at hactive
    by_cases hsame : s.active = some path
    · simp only [if_pos hsame, Option.map_eq_none_iff, List.head?_eq_none_iff] at hactive
      unfold openPaths Session.removeTab
      rw [hactive]
      rfl
    · simp only [if_neg hsame] at hactive
      rw [openPaths_removeTab path h.distinct, h.activeNone hactive]
      rfl
  closedClean := by
    intro other hclosed
    rw [mem_openPaths_removeTab h.distinct, not_and, not_not] at hclosed
    by_cases hsame : other = path
    · rw [hsame]
      exact FindingBoard.findings_remove_self s.board path
    · have hother : other ∉ s.openPaths := fun hmem => hsame (hclosed hmem)
      calc (s.removeTab path).findings other
          = s.findings other := FindingBoard.findings_remove_of_ne s.board hsame
        _ = [] := h.closedClean other hother

theorem Tidy.closeAll {s : Session} (h : s.Tidy) (paths : List String) :
    (s.closeAll paths).Tidy := by
  induction paths generalizing s with
  | nil => exact h
  | cons path rest ih => exact ih (h.removeTab path)

theorem mem_openPaths_closeAll {s : Session} (h : s.Tidy) (paths : List String) {path : String} :
    path ∈ (s.closeAll paths).openPaths ↔ path ∈ s.openPaths ∧ path ∉ paths := by
  induction paths generalizing s with
  | nil => simp [closeAll]
  | cons first rest ih =>
      have hrest := ih (h.removeTab first)
      rw [closeAll, List.foldl_cons, ← closeAll, hrest, mem_openPaths_removeTab h.distinct,
        List.mem_cons, not_or, and_assoc]

theorem Coherent.removeTab {s : Session} (h : s.Coherent) (path : String) :
    (s.removeTab path).Coherent where
  toTidy := h.toTidy.removeTab path
  filesDerived := h.filesDerived
  backed := by
    intro other hopen
    rw [mem_openPaths_removeTab h.distinct] at hopen
    exact h.backed other hopen.1
  checked := by
    intro other hopen
    rw [mem_openPaths_removeTab h.distinct] at hopen
    calc (s.removeTab path).findings other
        = s.findings other := FindingBoard.findings_remove_of_ne s.board hopen.2
      _ = s.fileFindings other := h.checked other hopen.1

theorem Coherent.close {s : Session} (h : s.Coherent) (path : String) (confirmed : Bool) :
    (s.close path confirmed).2.Coherent := by
  unfold Session.close
  split
  · exact h
  · split
    · exact h
    · exact h.removeTab path

/-!
## Checking
-/

/-- A check of all open files makes a tidy session coherent whose tabs show files. -/
theorem Tidy.lintTabs {s : Session} (h : s.Tidy) (hfiles : File.AllDerived s.files)
    (hbacked : ∀ path ∈ s.openPaths, File.existsAt s.files path = true) :
    s.lintTabs.Coherent := by
  have hfindings : ∀ path, s.lintTabs.findings path =
      if path ∈ s.openPaths then s.fileFindings path else s.findings path :=
    findings_foldl_lint s s.openPaths
  rcases lintTabs_eq s with ⟨board, hlint⟩
  rw [hlint] at hfindings ⊢
  exact
    { tabsDerived := h.tabsDerived
      distinct := h.distinct
      activeOpen := h.activeOpen
      activeNone := h.activeNone
      closedClean := by
        intro path hclosed
        have hkept := hfindings path
        rw [if_neg (show path ∉ s.openPaths from hclosed)] at hkept
        exact hkept.trans (h.closedClean path hclosed)
      filesDerived := hfiles
      backed := hbacked
      checked := by
        intro path hopen
        have hnew := hfindings path
        rw [if_pos (show path ∈ s.openPaths from hopen)] at hnew
        exact hnew }

theorem Tidy.lint {s : Session} {path : String} (h : s.Tidy)
    (hfiles : File.AllDerived s.files) (hopen : path ∈ s.openPaths)
    (hexists : File.existsAt s.files path = true)
    (hothers : ∀ other ∈ s.openPaths, other ≠ path →
      File.existsAt s.files other = true ∧ s.findings other = s.fileFindings other) :
    (s.lint path).Coherent := by
  have hself := findings_lint_self s path
  have hother : ∀ other, other ≠ path → (s.lint path).findings other = s.findings other :=
    fun other hne => findings_lint_of_ne s hne
  rcases lint_eq s path with ⟨board, hlint⟩
  rw [hlint] at hself hother ⊢
  exact
    { tabsDerived := h.tabsDerived
      distinct := h.distinct
      activeOpen := h.activeOpen
      activeNone := h.activeNone
      closedClean := by
        intro other hclosed
        have hne : other ≠ path := fun hsame => hclosed (hsame ▸ hopen)
        rw [hother other hne]
        exact h.closedClean other hclosed
      filesDerived := hfiles
      backed := by
        intro other hmem
        by_cases hsame : other = path
        · rw [hsame]
          exact hexists
        · exact (hothers other hmem hsame).1
      checked := by
        intro other hmem
        by_cases hsame : other = path
        · rw [hsame, hself]
          rfl
        · rw [hother other hsame, (hothers other hmem hsame).2]
          rfl }

theorem Coherent.expect {s : Session} (h : s.Coherent) (expected : List String) :
    (s.expect expected).Coherent :=
  (h.toTidy.of_eq (t := { s with expected }) h.tabsDerived rfl rfl rfl).lintTabs
    h.filesDerived h.backed

end Session
end StencilDesk
