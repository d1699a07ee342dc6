import Mathlib.Data.List.Basic
import StencilDesk.Proofs.Yaml.Keys
import StencilDesk.Settings

/-!
# Reading settings

A block has settings if its keys are clear and its fields are legible: every key is text, tags left
aside, no field is given twice, and each field is text, or null if it is optional. Then the
settings have the fields that are found under keys without tags.
-/

namespace StencilDesk

namespace Settings

open Yaml (Value)

variable {entries : List (Value × Value)} {block value : Value} {settings : Settings}

def fieldKeys : List String := ["id", "name", "description", "version", "author"]

/-!
## Keys
-/

theorem map_of_mapM {α β : Type} {f : α → Option β} {list : List α} {results : List β}
    (h : list.mapM f = some results) : list.map f = results.map some := by
  induction list generalizing results with
  | nil =>
      cases h
      rfl
  | cons a rest ih =>
      rw [List.mapM_cons] at h
      rcases Option.bind_eq_some_iff.mp h with ⟨b, hfirst, h⟩
      rcases Option.bind_eq_some_iff.mp h with ⟨others, hrest, h⟩
      cases h
      rw [List.map_cons, List.map_cons, hfirst, ih hrest]

theorem exists_mapM {α β : Type} {f : α → Option β} {list : List α}
    (h : ∀ a ∈ list, ∃ b, f a = some b) : ∃ results, list.mapM f = some results := by
  induction list with
  | nil => exact ⟨[], rfl⟩
  | cons a rest ih =>
      rcases h a List.mem_cons_self with ⟨b, hfirst⟩
      rcases ih fun other hmem => h other (List.mem_cons_of_mem _ hmem) with ⟨results, hrest⟩
      refine ⟨b :: results, ?_⟩
      rw [List.mapM_cons, hfirst, hrest]
      rfl

def isUnder (key : String) (entry : Value × Value) : Bool :=
  text? entry.1 == some key

/-- Holds if all keys are text, and none is the key of the same field as another one. -/
structure ClearKeys (entries : List (Value × Value)) : Prop where
  text : ∀ entry ∈ entries, ∃ key, text? entry.1 = some key
  once : ∀ key ∈ fieldKeys, (entries.filter (isUnder key)).length ≤ 1

theorem count_of_map {keys : List String} (h : entries.map (fun entry => text? entry.1) =
    keys.map some) (key : String) : keys.count key = (entries.filter (isUnder key)).length := by
  have hcount : (keys.map some).countP (· == some key) = keys.count key := by
    rw [List.countP_map]
    rfl
  rw [← hcount, ← h, List.countP_map, List.countP_eq_length_filter]
  rfl

theorem keysAreUsable_iff : keysAreUsable entries = true ↔ ClearKeys entries := by
  unfold keysAreUsable
  constructor
  · intro h
    cases hkeys : entries.mapM fun entry => text? entry.1 with
    | none => simp [hkeys] at h
    | some keys =>
        have hmap := map_of_mapM hkeys
        rw [hkeys] at h
        constructor
        · intro entry hmem
          have hlisted : text? entry.1 ∈ keys.map some := by
            rw [← hmap]
            exact List.mem_map_of_mem hmem
          rcases List.mem_map.mp hlisted with ⟨key, _, hsame⟩
          exact ⟨key, hsame.symm⟩
        · intro key hfield
          rw [← count_of_map hmap]
          exact of_decide_eq_true (List.all_eq_true.mp h key hfield)
  · intro h
    rcases exists_mapM h.text with ⟨keys, hkeys⟩
    rw [hkeys]
    apply List.all_eq_true.mpr
    intro key hfield
    rw [count_of_map (map_of_mapM hkeys)]
    exact decide_eq_true (h.once key hfield)

/-!
## Fields
-/

/-- Holds of the values that a field may have: text, or null if it is optional. -/
def Legible (value : Value) : Prop :=
  value = .null ∨ ∃ text, text? value = some text

theorem guard_eq_some_iff {flag : Bool} {mark : Unit} :
    (guard (flag = true) : Option Unit) = some mark ↔ flag = true := by
  cases flag with
  | true => exact iff_of_true rfl rfl
  | false => exact iff_of_false nofun nofun

theorem ofEntries?_eq_some_iff : ofEntries? entries = some settings ↔
    ClearKeys entries ∧ readText entries "id" = some settings.id ∧
      readText entries "name" = some settings.name ∧
      readOptional entries "description" = some settings.description ∧
      readOptional entries "version" = some settings.version ∧
      readOptional entries "author" = some settings.author := by
  rw [← keysAreUsable_iff]
  unfold ofEntries?
  constructor
  · intro h
    rcases Option.bind_eq_some_iff.mp h with ⟨_, hguard, h⟩
    rcases Option.bind_eq_some_iff.mp h with ⟨id, hid, h⟩
    rcases Option.bind_eq_some_iff.mp h with ⟨name, hname, h⟩
    rcases Option.bind_eq_some_iff.mp h with ⟨description, hdescription, h⟩
    rcases Option.bind_eq_some_iff.mp h with ⟨version, hversion, h⟩
    rcases Option.bind_eq_some_iff.mp h with ⟨author, hauthor, h⟩
    cases h
    exact ⟨guard_eq_some_iff.mp hguard, hid, hname, hdescription, hversion, hauthor⟩
  · intro ⟨hkeys, hid, hname, hdescription, hversion, hauthor⟩
    refine Option.bind_eq_some_iff.mpr ⟨(), guard_eq_some_iff.mpr hkeys, ?_⟩
    simp only [hid, hname, hdescription, hversion, hauthor, Option.bind_eq_bind, Option.bind_some]
    rfl

theorem legible_of_readText {key text : String} (h : readText entries key = some text)
    (hentry : entry? entries key = some value) : text? value = some text := by
  unfold readText at h
  rw [hentry] at h
  exact h

theorem exists_readOptional_iff {key : String} :
    (∃ field, readOptional entries key = some field) ↔
      ∀ value, entry? entries key = some value → Legible value := by
  unfold readOptional
  cases hentry : entry? entries key with
  | none => simp
  | some value =>
      simp only [Option.some.injEq, forall_eq']
      unfold optionalText? Legible
      split
      · simp
      · rename_i hnull
        have hother : value ≠ .null := hnull
        simp [hother]

theorem ofText?_eq_some_iff {source : String} {document : Value}
    (hread : Value.ofText source = .ok document)
    (hblock : document.field? Config.stencilBlock = some block)
    (hentries : block.entries? = some entries) :
    ofText? source = some settings ↔ ofEntries? entries = some settings := by
  unfold ofText?
  rw [hread]
  dsimp only
  rw [hblock, Option.bind_some]
  unfold ofBlock?
  rw [Value.entries?_eq_some hentries]

/-!
## The same fields
-/

def isNamed (key : String) (entry : Value × Value) : Bool :=
  match entry.1 with
  | .string name => name == key
  | _ => false

theorem field?_eq (hentries : block.entries? = some entries) (key : String) :
    block.field? key = (entries.find? (isNamed key)).map Prod.snd := by
  unfold Value.field?
  rw [Value.entries?_eq_some hentries]
  rfl

theorem isUnder_of_isNamed {key : String} {entry : Value × Value} (h : isNamed key entry = true) :
    isUnder key entry = true := by
  unfold isNamed at h
  split at h
  · rename_i name hname
    unfold isUnder text?
    rw [hname, beq_iff_eq.mp h]
    exact beq_self_eq_true _
  · cases h

theorem find?_of_filter {α : Type} {p q : α → Bool} {list : List α} {a : α}
    (hpq : ∀ b, p b = true → q b = true) (hone : (list.filter q).length ≤ 1)
    (hfind : list.find? p = some a) : list.find? q = some a := by
  have hmem : a ∈ list.filter q :=
    List.mem_filter.mpr ⟨List.mem_of_find?_eq_some hfind, hpq a (List.find?_some hfind)⟩
  rw [← List.head?_filter]
  cases hfilter : list.filter q with
  | nil =>
      rw [hfilter] at hmem
      cases hmem
  | cons first rest =>
      rw [hfilter] at hmem hone
      have hrest : rest = [] := by
        apply List.eq_nil_of_length_eq_zero
        rw [List.length_cons] at hone
        omega
      rw [hrest, List.mem_singleton] at hmem
      rw [hmem]
      rfl

/-- Where keys are clear, the settings have the fields that a check finds. -/
theorem entry?_of_field? (hkeys : ClearKeys entries) (hentries : block.entries? = some entries)
    {key : String} (hkey : key ∈ fieldKeys) (hfield : block.field? key = some value) :
    entry? entries key = some value := by
  rw [field?_eq hentries] at hfield
  rcases Option.map_eq_some_iff.mp hfield with ⟨entry, hfound, hsame⟩
  have hunder : entries.find? (isUnder key) = some entry :=
    find?_of_filter (fun _ => isUnder_of_isNamed) (hkeys.once key hkey) hfound
  show (entries.find? (isUnder key)).map Prod.snd = some value
  rw [hunder, ← hsame]
  rfl

end Settings

end StencilDesk
