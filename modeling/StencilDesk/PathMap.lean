/-!
# Maps by path

A finite map from paths to values, kept in ascending order of the paths. The order of paths is
that of their characters.
-/

namespace StencilDesk

structure PathMap (α : Type) where
  entries : List (String × α)
  ascending : entries.Pairwise fun a b => a.1 < b.1

namespace PathMap

variable {α : Type}

def empty : PathMap α := ⟨[], List.Pairwise.nil⟩

instance : Inhabited (PathMap α) := ⟨empty⟩

/-- Puts a value into an ascending list of entries, in place of the one at the same path. -/
def insertInto (path : String) (value : α) : List (String × α) → List (String × α)
  | [] => [(path, value)]
  | entry :: rest =>
      if path < entry.1 then (path, value) :: entry :: rest
      else if path = entry.1 then (path, value) :: rest
      else entry :: insertInto path value rest

theorem mem_insertInto {path : String} {value : α} {list : List (String × α)} {e : String × α}
    (h : e ∈ insertInto path value list) : e = (path, value) ∨ e ∈ list := by
  induction list with
  | nil => simpa [insertInto] using h
  | cons entry rest ih =>
      unfold insertInto at h
      split at h
      · simpa using h
      · split at h
        · rcases List.mem_cons.mp h with h | h
          · exact .inl h
          · exact .inr (List.mem_cons_of_mem _ h)
        · rcases List.mem_cons.mp h with h | h
          · exact .inr (h ▸ List.mem_cons_self)
          · rcases ih h with h | h
            · exact .inl h
            · exact .inr (List.mem_cons_of_mem _ h)

theorem ascending_insertInto (path : String) (value : α) {list : List (String × α)}
    (h : list.Pairwise fun a b => a.1 < b.1) :
    (insertInto path value list).Pairwise fun a b => a.1 < b.1 := by
  induction list with
  | nil => simp [insertInto]
  | cons entry rest ih =>
      have ⟨first, later⟩ := List.pairwise_cons.mp h
      unfold insertInto
      split
      · rename_i below
        refine List.pairwise_cons.mpr ⟨fun e he => ?_, h⟩
        rcases List.mem_cons.mp he with rfl | he
        · exact below
        · exact String.lt_trans below (first e he)
      · split
        · rename_i same
          exact List.pairwise_cons.mpr ⟨fun e he => same ▸ first e he, later⟩
        · rename_i notBelow notSame
          refine List.pairwise_cons.mpr ⟨fun e he => ?_, ih later⟩
          rcases mem_insertInto he with rfl | he
          · exact Std.lt_of_le_of_ne (Std.not_lt.mp notBelow) (Ne.symm notSame)
          · exact first e he

def insert (map : PathMap α) (path : String) (value : α) : PathMap α :=
  ⟨insertInto path value map.entries, ascending_insertInto path value map.ascending⟩

def erase (map : PathMap α) (path : String) : PathMap α :=
  ⟨map.entries.filter fun entry => entry.1 != path, map.ascending.filter _⟩

def get? (map : PathMap α) (path : String) : Option α :=
  (map.entries.find? fun entry => entry.1 == path).map Prod.snd

def paths (map : PathMap α) : List String :=
  map.entries.map Prod.fst

def values (map : PathMap α) : List α :=
  map.entries.map Prod.snd

/-- The map of a list of entries; of several at one path the last one counts. -/
def ofList (entries : List (String × α)) : PathMap α :=
  entries.foldl (fun map entry => map.insert entry.1 entry.2) empty

/-! ## Looking up -/

theorem find?_insertInto_self (path : String) (value : α) (list : List (String × α)) :
    (insertInto path value list).find? (fun entry => entry.1 == path) = some (path, value) := by
  induction list with
  | nil => simp [insertInto]
  | cons entry rest ih =>
      unfold insertInto
      split
      · simp
      · split
        · simp
        · rename_i notSame
          have differs : (entry.1 == path) = false := by simp [Ne.symm notSame]
          rw [List.find?_cons, differs]
          exact ih

theorem find?_insertInto_of_ne {path other : String} (value : α) (list : List (String × α))
    (h : other ≠ path) :
    (insertInto path value list).find? (fun entry => entry.1 == other) =
      list.find? (fun entry => entry.1 == other) := by
  have differs : (path == other) = false := by simp [Ne.symm h]
  induction list with
  | nil => simp [insertInto, differs]
  | cons entry rest ih =>
      unfold insertInto
      split
      · rw [List.find?_cons, differs]
      · split
        · rename_i same
          have entryDiffers : (entry.1 == other) = false := by rw [← same]; exact differs
          rw [List.find?_cons, differs, List.find?_cons, entryDiffers]
        · rw [List.find?_cons, List.find?_cons, ih]

@[simp] theorem get?_insert_self (map : PathMap α) (path : String) (value : α) :
    (map.insert path value).get? path = some value := by
  simp [get?, insert, find?_insertInto_self]

theorem get?_insert_of_ne (map : PathMap α) {path other : String} (value : α) (h : other ≠ path) :
    (map.insert path value).get? other = map.get? other := by
  simp only [get?, insert, find?_insertInto_of_ne value map.entries h]

@[simp] theorem get?_erase_self (map : PathMap α) (path : String) :
    (map.erase path).get? path = none := by
  have none : (map.entries.filter fun entry => entry.1 != path).find?
      (fun entry => entry.1 == path) = none := by
    simp [List.find?_eq_none]
  simp [get?, erase, none]

theorem get?_erase_of_ne (map : PathMap α) {path other : String} (h : other ≠ path) :
    (map.erase path).get? other = map.get? other := by
  have filtered : ∀ entries : List (String × α),
      (entries.filter fun entry => entry.1 != path).find? (fun entry => entry.1 == other) =
        entries.find? (fun entry => entry.1 == other) := by
    intro entries
    induction entries with
    | nil => rfl
    | cons entry rest ih =>
        by_cases same : entry.1 = path
        · have differs : (entry.1 == other) = false := by simp [same, Ne.symm h]
          rw [List.find?_cons, differs, List.filter_cons_of_neg (by simp [same])]
          exact ih
        · rw [List.filter_cons_of_pos (by simp [same]), List.find?_cons, List.find?_cons, ih]
  simp only [get?, erase, filtered]

end PathMap

end StencilDesk
