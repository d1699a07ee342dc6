import StencilDesk.Config.Lint
import StencilDesk.Proofs.Settings
import StencilDesk.Proofs.Yaml.Blank

/-!
# Settings that were checked

The block that describes a stencil is read twice: the check takes a number or a boolean in it for
its text, but the settings take nothing but text. So a document without findings has settings only
if its fields are written as text, under keys that are text; and then the id and the name are the
texts that were checked.
-/

namespace StencilDesk
namespace Config

open Yaml (Value)
open Settings (fieldKeys)

variable {file source : String} {document block value : Value}
  {entries : List (Value × Value)} {settings : Settings}

/-!
## What was checked
-/

def fieldPath (key : String) : String :=
  stencilBlock ++ "." ++ key

def checkedText? (document : Value) (path : String) : Option String :=
  (valueAt? document path).bind Value.scalarText?

theorem valueAt?_fieldPath {key : String} (hkey : key ∈ fieldKeys)
    (hblock : document.field? stencilBlock = some block) :
    valueAt? document (fieldPath key) = block.field? key := by
  have hpieces : ∀ key ∈ fieldKeys, (Text.splitOn '.' (fieldPath key).toList).map String.ofList =
      [stencilBlock, key] := by
    decide
  unfold valueAt?
  rw [← List.foldlM_map (f := String.ofList) (g := fun value key => Value.field? value key),
    hpieces key hkey]
  simp [List.foldlM, hblock]

structure Rule.Passes (rule : Rule) (text : String) : Prop where
  least : ∀ least, rule.least = some least → least ≤ text.toList.length
  most : ∀ most, rule.most = some most → text.toList.length ≤ most
  pattern : ∀ pattern, rule.pattern = some pattern → pattern.accepts text = true
  format : ∀ format, rule.format = some format → format.accepts text = true

theorem Rule.passes_of_textViolations {rule : Rule} {text : String}
    (h : rule.textViolations text = []) : rule.Passes text := by
  unfold textViolations at h
  simp only [List.append_eq_nil_iff, Option.toList_eq_nil_iff, Option.map_eq_none_iff,
    Option.filter_eq_none_iff] at h
  rcases h with ⟨⟨⟨hleast, hmost⟩, hpattern⟩, hformat⟩
  constructor
  · intro least hrule
    have hshort := hleast least hrule
    simpa using hshort
  · intro most hrule
    have hlong := hmost most hrule
    simpa using hlong
  · intro pattern hrule
    have hoff := hpattern pattern hrule
    simpa using hoff
  · intro format hrule
    have hoff := hformat format hrule
    simpa using hoff

theorem Rule.scalar_of_violations {rule : Rule} (h : rule.violations (some value) = []) :
    value = .null ∨ ∃ text, value.scalarText? = some text ∧ rule.Passes text := by
  unfold violations at h
  split at h
  · rename_i hnone
    cases hnone
  · rename_i hnull
    exact .inl (Option.some.inj hnull)
  · rename_i found _ hfound
    cases hfound
    split at h
    · rename_i text htext
      exact .inr ⟨text, htext, passes_of_textViolations h⟩
    · cases h

theorem Rule.text_of_violations {rule : Rule} {found : Option Value}
    (hrequired : rule.required = true) (h : rule.violations found = []) :
    ∃ value text, found = some value ∧ value.scalarText? = some text ∧ rule.Passes text := by
  have hmissing : (if rule.required then [Violation.missing] else []) ≠ [] := by
    simp [hrequired]
  cases found with
  | none => exact absurd h hmissing
  | some value =>
      rcases scalar_of_violations h with hnull | ⟨text, htext, hpasses⟩
      · rw [hnull] at h
        exact absurd h hmissing
      · exact ⟨value, text, rfl, htext, hpasses⟩

theorem violations_of_lint (hclean : Schema.stencil.lint file source = [])
    (hread : Value.ofText source = .ok document)
    (hblock : document.field? stencilBlock = some block)
    (hentries : block.entries? = some entries) :
    ∀ rule ∈ Schema.stencil.rules, rule.violations (valueAt? document rule.path) = [] := by
  intro rule hmem
  unfold Schema.lint at hclean
  split at hclean
  · rename_i hblank
    rcases Value.entries?_of_field? hblock with ⟨_, hmapping⟩
    rw [Value.entries?_of_blank hblank hread] at hmapping
    cases hmapping
  · rw [hread] at hclean
    have hschema : document.field? Schema.stencil.block = some block := hblock
    unfold Schema.check at hclean
    dsimp only at hclean
    rw [hschema] at hclean
    dsimp only at hclean
    rw [hentries, if_neg (by simp), List.flatMap_eq_nil_iff] at hclean
    exact List.map_eq_nil_iff.mp (hclean rule hmem)

/-!
## Keys without tags
-/

def PlainKeys (entries : List (Value × Value)) : Prop :=
  ∀ entry ∈ entries, ∃ key, entry.1 = .string key

theorem isUnder_eq_isNamed {entry : Value × Value} {name : String} (hplain : entry.1 = .string name)
    (key : String) : Settings.isUnder key entry = Settings.isNamed key entry := by
  unfold Settings.isUnder Settings.isNamed
  rw [hplain]
  show (some name == some key) = (name == key)
  simp

theorem PlainKeys.clearKeys (hplain : PlainKeys entries)
    (hdistinct : entries.Pairwise fun a b => b.1.same a.1 = false) :
    Settings.ClearKeys entries := by
  constructor
  · intro entry hmem
    rcases hplain entry hmem with ⟨key, hkey⟩
    rw [hkey]
    exact ⟨key, rfl⟩
  · intro key _
    have hkey : ∀ entry ∈ entries.filter (Settings.isUnder key), entry.1 = .string key := by
      intro entry hmem
      rcases List.mem_filter.mp hmem with ⟨hentry, hunder⟩
      rcases hplain entry hentry with ⟨name, hname⟩
      unfold Settings.isUnder at hunder
      rw [hname] at hunder ⊢
      have hsame : some name = some key := beq_iff_eq.mp hunder
      rw [Option.some.inj hsame]
    have hpairwise := hdistinct.filter (Settings.isUnder key)
    cases hfilter : entries.filter (Settings.isUnder key) with
    | nil => simp
    | cons first rest =>
        cases rest with
        | nil => simp
        | cons second rest =>
            rw [hfilter] at hpairwise hkey
            have hsame := (List.pairwise_cons.mp hpairwise).1 second List.mem_cons_self
            rw [hkey first List.mem_cons_self,
              hkey second (List.mem_cons_of_mem _ List.mem_cons_self)] at hsame
            simp [Value.same] at hsame

theorem PlainKeys.entry?_eq (hplain : PlainKeys entries)
    (hentries : block.entries? = some entries) (key : String) :
    Settings.entry? entries key = block.field? key := by
  have hfilter : entries.filter (Settings.isUnder key) = entries.filter (Settings.isNamed key) := by
    apply List.filter_congr
    intro entry hmem
    rcases hplain entry hmem with ⟨name, hname⟩
    exact isUnder_eq_isNamed hname key
  rw [Settings.field?_eq hentries, ← List.head?_filter, ← hfilter, List.head?_filter]
  rfl

/-- Holds of the scalars that a check takes for their text, although they are none. -/
def TakenForText (value : Value) : Prop :=
  (∃ number, value = .number number) ∨ ∃ flag, value = .bool flag

theorem legible_iff_of_scalar (hscalar : value = .null ∨ ∃ text, value.scalarText? = some text) :
    Settings.Legible value ↔ ¬TakenForText value := by
  cases value with
  | null => simp [Settings.Legible, TakenForText]
  | bool flag => simp [Settings.Legible, TakenForText, Settings.text?, Value.untagged]
  | number number => simp [Settings.Legible, TakenForText, Settings.text?, Value.untagged]
  | string text => simp [Settings.Legible, TakenForText, Settings.text?, Value.untagged]
  | _ => simp [Value.scalarText?] at hscalar

theorem text_of_scalarText? {text other : String} (hscalar : value.scalarText? = some text)
    (htext : Settings.text? value = some other) : other = text := by
  cases value with
  | string written =>
      cases hscalar
      cases htext
      rfl
  | tagged tag value => cases hscalar
  | _ => cases htext

/-!
## Clean documents
-/

/-- Holds of a document whose block that describes a stencil is a mapping, if nothing is found. -/
structure Clean (file source : String) (document block : Value)
    (entries : List (Value × Value)) : Prop where
  clean : Schema.stencil.lint file source = []
  read : Value.ofText source = .ok document
  found : document.field? stencilBlock = some block
  mapping : block.entries? = some entries

theorem rule_of_key : ∀ key ∈ fieldKeys, ∃ rule ∈ Schema.stencil.rules,
    rule.path = fieldPath key ∧ (key ∈ ["id", "name"] → rule.required = true) := by
  decide

section
variable (h : Clean file source document block entries)
include h

theorem Clean.violations {rule : Rule} (hmem : rule ∈ Schema.stencil.rules) {key : String}
    (hkey : key ∈ fieldKeys) (hpath : rule.path = fieldPath key) :
    rule.violations (block.field? key) = [] := by
  rw [← valueAt?_fieldPath hkey h.found, ← hpath]
  exact violations_of_lint h.clean h.read h.found h.mapping rule hmem

theorem Clean.scalar {key : String} (hkey : key ∈ fieldKeys)
    (hfield : block.field? key = some value) :
    value = .null ∨ ∃ text, value.scalarText? = some text := by
  rcases rule_of_key key hkey with ⟨rule, hmem, hpath, _⟩
  have hclean := h.violations hmem hkey hpath
  rw [hfield] at hclean
  rcases Rule.scalar_of_violations hclean with hnull | ⟨text, htext, _⟩
  · exact .inl hnull
  · exact .inr ⟨text, htext⟩

theorem Clean.checked {rule : Rule} (hmem : rule ∈ Schema.stencil.rules)
    (hrequired : rule.required = true) {key : String} (hkey : key ∈ fieldKeys)
    (hpath : rule.path = fieldPath key) :
    ∃ value text, block.field? key = some value ∧ value.scalarText? = some text ∧
      checkedText? document rule.path = some text ∧ rule.Passes text := by
  rcases Rule.text_of_violations hrequired (h.violations hmem hkey hpath) with
    ⟨value, text, hfield, htext, hpasses⟩
  refine ⟨value, text, hfield, htext, ?_, hpasses⟩
  unfold checkedText?
  rw [hpath, valueAt?_fieldPath hkey h.found, hfield]
  exact htext

theorem Clean.readText {key text written : String} (hkey : key ∈ fieldKeys)
    (hfield : block.field? key = some value) (hscalar : value.scalarText? = some text)
    (hkeys : Settings.ClearKeys entries) (hread : Settings.readText entries key = some written) :
    written = text := by
  have hentry := Settings.entry?_of_field? hkeys h.mapping hkey hfield
  exact text_of_scalarText? hscalar (Settings.legible_of_readText hread hentry)

theorem Clean.exists_readText {key : String} (hkey : key ∈ ["id", "name"])
    (hkeys : Settings.ClearKeys entries)
    (hlegible : ∀ value, Settings.entry? entries key = some value → Settings.Legible value) :
    ∃ text, Settings.readText entries key = some text := by
  have hall : ∀ key ∈ ["id", "name"], key ∈ fieldKeys := by decide
  have hfield := hall key hkey
  rcases rule_of_key key hfield with ⟨rule, hmem, hpath, hrequired⟩
  rcases h.checked hmem (hrequired hkey) hfield hpath with ⟨value, text, hvalue, hscalar, _⟩
  have hentry := Settings.entry?_of_field? hkeys h.mapping hfield hvalue
  unfold Settings.readText
  rw [hentry]
  rcases hlegible value hentry with hnull | htext
  · rw [hnull] at hscalar
    cases hscalar
  · exact htext

theorem Clean.exists_settings_iff :
    (∃ settings, Settings.ofText? source = some settings) ↔
      Settings.ClearKeys entries ∧
        ∀ key ∈ fieldKeys, ∀ value, Settings.entry? entries key = some value →
          Settings.Legible value := by
  constructor
  · intro ⟨settings, hsettings⟩
    rw [Settings.ofText?_eq_some_iff h.read h.found h.mapping,
      Settings.ofEntries?_eq_some_iff] at hsettings
    rcases hsettings with ⟨hkeys, hid, hname, hdescription, hversion, hauthor⟩
    refine ⟨hkeys, ?_⟩
    intro key hkey value hentry
    simp only [fieldKeys, List.mem_cons, List.not_mem_nil, or_false] at hkey
    rcases hkey with rfl | rfl | rfl | rfl | rfl
    · exact .inr ⟨_, Settings.legible_of_readText hid hentry⟩
    · exact .inr ⟨_, Settings.legible_of_readText hname hentry⟩
    · exact Settings.exists_readOptional_iff.mp ⟨_, hdescription⟩ value hentry
    · exact Settings.exists_readOptional_iff.mp ⟨_, hversion⟩ value hentry
    · exact Settings.exists_readOptional_iff.mp ⟨_, hauthor⟩ value hentry
  · intro ⟨hkeys, hlegible⟩
    have hoptional : ∀ key ∈ fieldKeys, ∃ field, Settings.readOptional entries key = some field :=
      fun key hkey => Settings.exists_readOptional_iff.mpr (hlegible key hkey)
    rcases h.exists_readText (show "id" ∈ ["id", "name"] by decide) hkeys
      (hlegible "id" (by decide)) with ⟨id, hid⟩
    rcases h.exists_readText (show "name" ∈ ["id", "name"] by decide) hkeys
      (hlegible "name" (by decide)) with ⟨name, hname⟩
    rcases hoptional "description" (by decide) with ⟨description, hdescription⟩
    rcases hoptional "version" (by decide) with ⟨version, hversion⟩
    rcases hoptional "author" (by decide) with ⟨author, hauthor⟩
    refine ⟨⟨id, name, description, version, author⟩, ?_⟩
    rw [Settings.ofText?_eq_some_iff h.read h.found h.mapping, Settings.ofEntries?_eq_some_iff]
    exact ⟨hkeys, hid, hname, hdescription, hversion, hauthor⟩

/-- Where all keys are plain, only numbers and booleans keep the settings from being read. -/
theorem Clean.none_iff_of_plain (hplain : PlainKeys entries) :
    Settings.ofText? source = none ↔ ∃ key ∈ fieldKeys, ∃ value,
      valueAt? document (fieldPath key) = some value ∧ TakenForText value := by
  have hdistinct := ((Value.distinct_of_ofText h.read).field? h.found).pairwise_entries h.mapping
  have hkeys := hplain.clearKeys hdistinct
  have hfields : ∀ key ∈ fieldKeys, ∀ value, Settings.entry? entries key = some value →
      (Settings.Legible value ↔ ¬TakenForText value) := by
    intro key hkey value hentry
    rw [hplain.entry?_eq h.mapping] at hentry
    exact legible_iff_of_scalar (h.scalar hkey hentry)
  have hvalues : ∀ key ∈ fieldKeys,
      valueAt? document (fieldPath key) = Settings.entry? entries key := by
    intro key hkey
    rw [valueAt?_fieldPath hkey h.found, hplain.entry?_eq h.mapping]
  constructor
  · intro hnone
    by_contra hall
    have hexists : ∃ settings, Settings.ofText? source = some settings := by
      refine h.exists_settings_iff.mpr ⟨hkeys, ?_⟩
      intro key hkey value hentry
      rw [hfields key hkey value hentry]
      intro htaken
      exact hall ⟨key, hkey, value, (hvalues key hkey).trans hentry, htaken⟩
    rcases hexists with ⟨settings, hsettings⟩
    rw [hnone] at hsettings
    cases hsettings
  · intro ⟨key, hkey, value, hvalue, htaken⟩
    rw [hvalues key hkey] at hvalue
    rw [Option.eq_none_iff_forall_not_mem]
    intro settings hsettings
    have hlegible := (h.exists_settings_iff.mp ⟨settings, hsettings⟩).2 key hkey value hvalue
    exact (hfields key hkey value hvalue).mp hlegible htaken

/-!
## The id and the name
-/

structure CheckedId (document : Value) (id : String) : Prop where
  text : checkedText? document "stencil.id" = some id
  pattern : idPattern.accepts id = true
  least : 3 ≤ id.toList.length
  most : id.toList.length ≤ 64

structure CheckedName (document : Value) (name : String) : Prop where
  text : checkedText? document "stencil.name" = some name
  least : 1 ≤ name.toList.length
  most : name.toList.length ≤ 100

theorem Clean.exists_id : ∃ value id, block.field? "id" = some value ∧
    value.scalarText? = some id ∧ CheckedId document id := by
  rcases h.checked (List.mem_cons_self : _ ∈ Schema.stencil.rules) rfl
    (show "id" ∈ fieldKeys by decide) rfl with ⟨value, id, hfield, hscalar, htext, hpasses⟩
  exact ⟨value, id, hfield, hscalar, htext, hpasses.pattern _ rfl, hpasses.least _ rfl,
    hpasses.most _ rfl⟩

theorem Clean.exists_name : ∃ value name, block.field? "name" = some value ∧
    value.scalarText? = some name ∧ CheckedName document name := by
  rcases h.checked (List.mem_cons_of_mem _ List.mem_cons_self : _ ∈ Schema.stencil.rules) rfl
    (show "name" ∈ fieldKeys by decide) rfl with ⟨value, name, hfield, hscalar, htext, hpasses⟩
  exact ⟨value, name, hfield, hscalar, htext, hpasses.least _ rfl, hpasses.most _ rfl⟩

end

/-- If nothing is found in a document whose block that describes a stencil is a mapping, its id and
its name have texts that were checked, and its settings, if there are any, have these. There are
settings exactly if all keys are text, none is given twice, and the fields are text or null. If no
key has a tag, all that keeps the settings from being read is a field that is a number or a
boolean. -/
theorem settings_of_lint (hclean : Schema.stencil.lint file source = [])
    (hread : Value.ofText source = .ok document)
    (hblock : document.field? stencilBlock = some block)
    (hentries : block.entries? = some entries) :
    (∃ id name, CheckedId document id ∧ CheckedName document name ∧
      ∀ settings, Settings.ofText? source = some settings →
        settings.id = id ∧ settings.name = name) ∧
    ((∃ settings, Settings.ofText? source = some settings) ↔
      Settings.ClearKeys entries ∧
        ∀ key ∈ fieldKeys, ∀ value, Settings.entry? entries key = some value →
          Settings.Legible value) ∧
    (PlainKeys entries →
      (Settings.ofText? source = none ↔ ∃ key ∈ fieldKeys, ∃ value,
        valueAt? document (fieldPath key) = some value ∧ TakenForText value)) := by
  have h : Clean file source document block entries := ⟨hclean, hread, hblock, hentries⟩
  refine ⟨?_, h.exists_settings_iff, h.none_iff_of_plain⟩
  rcases h.exists_id with ⟨idValue, id, hidField, hidScalar, hid⟩
  rcases h.exists_name with ⟨nameValue, name, hnameField, hnameScalar, hname⟩
  refine ⟨id, name, hid, hname, ?_⟩
  intro settings hsettings
  rw [Settings.ofText?_eq_some_iff hread hblock hentries,
    Settings.ofEntries?_eq_some_iff] at hsettings
  rcases hsettings with ⟨hkeys, hidRead, hnameRead, _⟩
  exact ⟨h.readText (by decide) hidField hidScalar hkeys hidRead,
    h.readText (by decide) hnameField hnameScalar hkeys hnameRead⟩

def describesStencil (source : String) : Bool :=
  match Value.ofText source with
  | .ok document => ((document.field? stencilBlock).bind Value.entries?).isSome
  | .error _ => false

theorem exists_entries (h : describesStencil source = true) : ∃ document block entries,
    Value.ofText source = .ok document ∧ document.field? stencilBlock = some block ∧
      block.entries? = some entries := by
  unfold describesStencil at h
  split at h
  · rename_i document hread
    rcases Option.isSome_iff_exists.mp h with ⟨entries, hfound⟩
    rcases Option.bind_eq_some_iff.mp hfound with ⟨block, hblock, hentries⟩
    exact ⟨document, block, entries, hread, hblock, hentries⟩
  · cases h

def writtenConfig : String := "stencil:\n  id: demo\n  name: Demo\n"

theorem settings_of_lint_written : ∃ document settings id name,
    Value.ofText writtenConfig = .ok document ∧
      Settings.ofText? writtenConfig = some settings ∧ CheckedId document id ∧
      CheckedName document name ∧ settings.id = id ∧ settings.name = name := by
  have hclean : Schema.stencil.lint "/stencil.yml" writtenConfig = [] := by decide +kernel
  have hsettings : Settings.ofText? writtenConfig = some ⟨"demo", "Demo", none, none, none⟩ := by
    decide +kernel
  rcases exists_entries (show describesStencil writtenConfig = true by decide +kernel) with
    ⟨document, block, entries, hread, hblock, hentries⟩
  rcases (settings_of_lint hclean hread hblock hentries).1 with ⟨id, name, hid, hname, hall⟩
  exact ⟨document, _, id, name, hread, hsettings, hid, hname, hall _ hsettings⟩

def numberedConfig : String := "stencil:\n  id: demo\n  name: 2025\n"

/-- Not every document without findings has settings: a number passes for a name. -/
theorem not_settings_of_lint : ¬∀ (file source : String) (document block : Value)
    (entries : List (Value × Value)), Schema.stencil.lint file source = [] →
      Value.ofText source = .ok document → document.field? stencilBlock = some block →
      block.entries? = some entries → ∃ settings, Settings.ofText? source = some settings := by
  intro hall
  have hclean : Schema.stencil.lint "/stencil.yml" numberedConfig = [] := by decide +kernel
  have hnone : Settings.ofText? numberedConfig = none := by decide +kernel
  rcases exists_entries (show describesStencil numberedConfig = true by decide +kernel) with
    ⟨document, block, entries, hread, hblock, hentries⟩
  rcases hall "/stencil.yml" numberedConfig document block entries hclean hread hblock hentries
    with ⟨settings, hsettings⟩
  rw [hnone] at hsettings
  cases hsettings

end Config
end StencilDesk
