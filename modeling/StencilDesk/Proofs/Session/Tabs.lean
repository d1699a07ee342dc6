import Mathlib.Data.List.Nodup
import StencilDesk.Session.Operations

/-!
# Tabs and their paths

While no two tabs share a path, replacing a tab and closing a tab act on the list of paths as a map
and as a filter.
-/

namespace StencilDesk
namespace Session

/-!
## Replacing a tab
-/

theorem replaceTab_of_not_mem {path : String} {f : Tab → Tab} {tabs : List Tab}
    (h : path ∉ tabs.map Tab.path) : replaceTab path f tabs = tabs := by
  induction tabs with
  | nil => rfl
  | cons tab rest ih =>
      rw [List.map_cons, List.mem_cons, not_or] at h
      rcases h with ⟨htab, hrest⟩
      unfold replaceTab
      rw [if_neg (Ne.symm htab), ih hrest]

theorem replaceTab_eq_map {path : String} {f : Tab → Tab} {tabs : List Tab}
    (h : (tabs.map Tab.path).Nodup) :
    replaceTab path f tabs = tabs.map fun tab => if tab.path = path then f tab else tab := by
  induction tabs with
  | nil => rfl
  | cons tab rest ih =>
      rw [List.map_cons, List.nodup_cons] at h
      rcases h with ⟨hfirst, hrest⟩
      unfold replaceTab
      rw [List.map_cons, ← ih hrest]
      by_cases hsame : tab.path = path
      · rw [hsame] at hfirst
        rw [if_pos hsame, if_pos hsame, replaceTab_of_not_mem hfirst]
      · rw [if_neg hsame, if_neg hsame]

theorem paths_replaceTab_of_eq {path : String} {f : Tab → Tab} {tabs : List Tab}
    (hf : ∀ tab, (f tab).path = tab.path) :
    (replaceTab path f tabs).map Tab.path = tabs.map Tab.path := by
  induction tabs with
  | nil => rfl
  | cons tab rest ih =>
      unfold replaceTab
      split
      · rw [List.map_cons, List.map_cons, hf]
      · rw [List.map_cons, List.map_cons, ih]

theorem mem_replaceTab {path : String} {f : Tab → Tab} {tabs : List Tab} {tab : Tab}
    (h : tab ∈ replaceTab path f tabs) :
    tab ∈ tabs ∨ ∃ old ∈ tabs, old.path = path ∧ tab = f old := by
  induction tabs with
  | nil => cases h
  | cons first rest ih =>
      unfold replaceTab at h
      split at h
      · rename_i hsame
        rcases List.mem_cons.mp h with hhead | hrest
        · exact .inr ⟨first, List.mem_cons_self, hsame, hhead⟩
        · exact .inl (List.mem_cons_of_mem _ hrest)
      · rcases List.mem_cons.mp h with hhead | hrest
        · exact .inl (hhead ▸ List.mem_cons_self)
        · rcases ih hrest with hold | ⟨old, hold, hpath, htab⟩
          · exact .inl (List.mem_cons_of_mem _ hold)
          · exact .inr ⟨old, List.mem_cons_of_mem _ hold, hpath, htab⟩

def movedPath (path new other : String) : String :=
  if other = path then new else other

theorem movedPath_self (path other : String) : movedPath path path other = other := by
  unfold movedPath
  split
  · rename_i hsame
    exact hsame.symm
  · rfl

theorem paths_replaceTab_movedTab {path new : String} {tabs : List Tab}
    (h : (tabs.map Tab.path).Nodup) :
    (replaceTab path (movedTab new) tabs).map Tab.path =
      (tabs.map Tab.path).map (movedPath path new) := by
  rw [replaceTab_eq_map h, List.map_map, List.map_map]
  apply List.map_congr_left
  intro tab _
  simp only [Function.comp_apply, movedPath]
  split <;> rfl

theorem movedPath_mem_iff {path new other : String} {paths : List String}
    (hopen : path ∈ paths) :
    other ∈ paths.map (movedPath path new) ↔ other = new ∨ other ∈ paths ∧ other ≠ path := by
  rw [List.mem_map]
  constructor
  · rintro ⟨before, hmem, hmoved⟩
    unfold movedPath at hmoved
    split at hmoved
    · exact .inl hmoved.symm
    · rename_i hother
      rw [← hmoved]
      exact .inr ⟨hmem, hother⟩
  · rintro (hnewPath | ⟨hmem, hother⟩)
    · exact ⟨path, hopen, by rw [hnewPath, movedPath, if_pos rfl]⟩
    · exact ⟨other, hmem, by rw [movedPath, if_neg hother]⟩

theorem movedPath_inj {path new a b : String} {paths : List String} (hnew : new ∉ paths)
    (ha : a ∈ paths) (hb : b ∈ paths) (hab : movedPath path new a = movedPath path new b) :
    a = b := by
  unfold movedPath at hab
  split at hab <;> split at hab
  · rename_i hapath hbpath
    rw [hapath, hbpath]
  · exact absurd (hab ▸ hb) hnew
  · exact absurd (hab ▸ ha) hnew
  · exact hab

theorem nodup_map_movedPath {path new : String} {paths : List String} (h : paths.Nodup)
    (hnew : new ∉ paths) : (paths.map (movedPath path new)).Nodup :=
  h.map_on fun _ ha _ hb hab => movedPath_inj hnew ha hb hab

/-!
## Closing tabs
-/

theorem eraseP_eq_filter {path : String} {tabs : List Tab} (h : (tabs.map Tab.path).Nodup) :
    (tabs.eraseP fun tab => tab.path == path) = tabs.filter fun tab => tab.path != path := by
  induction tabs with
  | nil => rfl
  | cons tab rest ih =>
      rw [List.map_cons, List.nodup_cons] at h
      rcases h with ⟨hfirst, hrest⟩
      by_cases hsame : tab.path = path
      · have hkept : (rest.filter fun tab => tab.path != path) = rest := by
          rw [List.filter_eq_self]
          intro other hother
          rw [bne_iff_ne]
          intro hpath
          apply hfirst
          rw [hsame, ← hpath]
          exact List.mem_map_of_mem hother
        rw [List.eraseP_cons_of_pos (by simp [hsame]), List.filter_cons_of_neg (by simp [hsame]),
          hkept]
      · rw [List.eraseP_cons_of_neg (by simp [hsame]), List.filter_cons_of_pos (by simp [hsame]),
          ih hrest]

theorem openPaths_removeTab {s : Session} (path : String) (h : s.openPaths.Nodup) :
    (s.removeTab path).openPaths = s.openPaths.filter fun other => other != path := by
  unfold openPaths removeTab
  rw [eraseP_eq_filter h, List.filter_map]
  rfl

theorem mem_openPaths_removeTab {s : Session} {path other : String} (h : s.openPaths.Nodup) :
    other ∈ (s.removeTab path).openPaths ↔ other ∈ s.openPaths ∧ other ≠ path := by
  rw [openPaths_removeTab path h, List.mem_filter, bne_iff_ne]

end Session
end StencilDesk
