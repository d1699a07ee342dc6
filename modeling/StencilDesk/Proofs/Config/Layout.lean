import Mathlib.Data.List.TakeWhile
import StencilDesk.Config.Locate

/-!
# Documents as they are laid out

A configuration document of nested blocks: every field stands on a line of its own, all fields of a
block are equally far indented, and deeper than the field of the block. Blank lines and comments may
stand anywhere, indented as they like. Each line of such a document tells the path of the field that
stands on it.
-/

namespace StencilDesk
namespace Config

structure Margin where
  text : List Char
  blank : ∀ c ∈ text, Text.isBlank c = true

structure Key where
  text : List Char
  ne_nil : text ≠ []
  plain : ∀ c ∈ text, Text.isBlank c = false ∧ c ≠ '.' ∧ c ≠ ':' ∧ c ≠ '#'

structure Remark where
  margin : Margin
  comment : Option (List Char) := none

def Remark.text : Remark → List Char
  | ⟨margin, none⟩ => margin.text
  | ⟨margin, some comment⟩ => margin.text ++ '#' :: comment

/-- A field, with the remarks above its line and what stands before its colon and behind it. -/
structure Field where
  remarks : List Remark := []
  key : Key
  gap : Margin := ⟨[], by simp⟩
  value : List Char := []

def Field.text (indent : Nat) (field : Field) : List Char :=
  List.replicate indent ' ' ++ (field.key.text ++ (field.gap.text ++ ':' :: field.value))

/-- The fields of a block, each with the block below it and how far this one is indented beyond what
it has to be. A field without a block below it is a scalar. -/
inductive Block where
  | empty
  | field (field : Field) (beyond : Nat) (below rest : Block)

structure Line where
  owner : Option (List (List Char))
  text : List Char
deriving DecidableEq

def Remark.line (remark : Remark) : Line :=
  ⟨none, remark.text⟩

namespace Block

def keys : Block → List (List Char)
  | empty => []
  | field first _ _ rest => first.key.text :: rest.keys

def Distinct : Block → Prop
  | empty => True
  | field first _ below rest => first.key.text ∉ rest.keys ∧ below.Distinct ∧ rest.Distinct

inductive Leads : Block → List (List Char) → Prop where
  | here (first : Field) (beyond : Nat) (inner rest : Block) :
      Leads (field first beyond inner rest) [first.key.text]
  | deeper (first : Field) (beyond : Nat) {inner : Block} (rest : Block)
      {keys : List (List Char)} (h : Leads inner keys) :
      Leads (field first beyond inner rest) (first.key.text :: keys)
  | later (first : Field) (beyond : Nat) (inner : Block) {rest : Block}
      {keys : List (List Char)} (h : Leads rest keys) :
      Leads (field first beyond inner rest) keys

/-- The lines of a block that is indented by some spaces and stands below a path. -/
def lines (indent : Nat) (above : List (List Char)) : Block → List Line
  | empty => []
  | field first beyond below rest =>
      first.remarks.map Remark.line ++
        (⟨some (above ++ [first.key.text]), first.text indent⟩ ::
          (lines (indent + 1 + beyond) (above ++ [first.key.text]) below ++
            lines indent above rest))

end Block

/-- A document: its fields, all that is below them, and what stands behind the last one. -/
structure Layout where
  indent : Nat := 0
  block : Block
  distinct : block.Distinct
  remarks : List Remark := []

namespace Layout

def lines (layout : Layout) : List Line :=
  layout.block.lines layout.indent [] ++ layout.remarks.map Remark.line

def Written (layout : Layout) (source : String) : Prop :=
  Text.lines source.toList = layout.lines.map Line.text

/-- Holds of the number of the line on which the field at a path stands, counted from one, and of
none if the document has no such field. -/
structure Locates (layout : Layout) (keys : List (List Char)) (answer : Option Nat) : Prop where
  some_iff : ∀ number, answer = some number ↔
    ∃ index line, number = index + 1 ∧ layout.lines[index]? = some line ∧ line.owner = some keys
  none_iff : answer = none ↔ ¬layout.block.Leads keys

end Layout

/-!
## Indentation
-/

theorem trimStart_margin (margin : Margin) (rest : List Char) :
    Text.trimStart (margin.text ++ rest) = Text.trimStart rest := by
  rw [Text.trimStart, List.dropWhile_append_of_pos margin.blank]
  rfl

theorem isSilent_remark (remark : Remark) : isSilent (indented remark.text).2 = true := by
  rcases remark with ⟨margin, comment⟩
  cases comment with
  | none =>
      have hnone : Text.trimStart margin.text = [] := by
        rw [← List.append_nil margin.text, trimStart_margin]
        rfl
      rw [Remark.text, indented, hnone]
      rfl
  | some comment =>
      rw [Remark.text, indented, trimStart_margin, Text.trimStart_cons_mark _ (by decide)]
      rfl

theorem Key.exists_cons (key : Key) : ∃ first rest, key.text = first :: rest ∧
    Text.isBlank first = false ∧ first ≠ '#' := by
  rcases List.exists_cons_of_ne_nil key.ne_nil with ⟨first, rest, hkey⟩
  have hmem : first ∈ key.text := by
    rw [hkey]
    exact List.mem_cons_self
  exact ⟨first, rest, hkey, (key.plain first hmem).1, (key.plain first hmem).2.2.2⟩

theorem width_replicate (indent width : Nat) :
    (List.replicate indent ' ').foldl (fun width c => width + c.utf8Size) width =
      width + indent := by
  induction indent generalizing width with
  | zero => rfl
  | succ indent ih =>
      have hspace : ' '.utf8Size = 1 := rfl
      rw [List.replicate_succ, List.foldl_cons, ih, hspace, Nat.add_assoc, Nat.add_comm 1]

theorem indented_field (indent : Nat) (field : Field) :
    indented (field.text indent) =
      (indent, field.key.text ++ (field.gap.text ++ ':' :: field.value)) := by
  have hspaces : ∀ c ∈ List.replicate indent ' ', Text.isBlank c = true := by
    intro c hmem
    rw [List.eq_of_mem_replicate hmem]
    rfl
  rcases field.key.exists_cons with ⟨first, rest, hkey, hblank, _⟩
  have hbehind : (field.key.text ++ (field.gap.text ++ ':' :: field.value)).takeWhile
      Text.isBlank = [] := by
    rw [hkey, List.cons_append, List.takeWhile_cons_of_neg (by simp [hblank])]
  rw [indented, Field.text, Text.trimStart, List.dropWhile_append_of_pos hspaces,
    List.takeWhile_append_of_pos hspaces, hbehind, List.append_nil, width_replicate, Nat.zero_add]
  rw [hkey, List.cons_append, List.dropWhile_cons_of_neg (by simp [hblank])]

theorem isSilent_field (field : Field) (behind : List Char) :
    isSilent (field.key.text ++ behind) = false := by
  rcases field.key.exists_cons with ⟨first, rest, hkey, _, hmark⟩
  rw [hkey, isSilent]
  simp [hmark]

/-!
## Keys
-/

/-- Holds of the words that a path is made of: what stands behind a key on its line, white space and
a colon, belongs to none. -/
def Word (key : List Char) : Prop :=
  ':' ∉ key ∧ ∀ c ∈ key, Text.isBlank c = false

theorem Key.word (key : Key) : Word key.text :=
  ⟨fun hmem => (key.plain ':' hmem).2.2.1 rfl, fun c hmem => (key.plain c hmem).1⟩

theorem Margin.colon_not_mem (margin : Margin) : ':' ∉ margin.text := by
  intro hmem
  have hblank := margin.blank ':' hmem
  cases hblank

theorem Margin.takeWhile_append (margin : Margin) {text : List Char}
    (h : ∀ c ∈ text, Text.isBlank c = false) :
    (text ++ margin.text).takeWhile (fun c => !Text.isBlank c) = text := by
  have hnone : margin.text.takeWhile (fun c => !Text.isBlank c) = [] := by
    rw [List.takeWhile_eq_nil_iff]
    intro hsome
    simpa using margin.blank _ (List.getElem_mem hsome)
  rw [List.takeWhile_append_of_pos (fun c hmem => by simp [h c hmem]), hnone, List.append_nil]

theorem eq_of_append_margin {first second : List Char} (margin other : Margin)
    (hfirst : ∀ c ∈ first, Text.isBlank c = false) (hsecond : ∀ c ∈ second, Text.isBlank c = false)
    (h : first ++ margin.text = second ++ other.text) : first = second := by
  rw [← margin.takeWhile_append hfirst, h, other.takeWhile_append hsecond]

/-- A line starts with no word but its own key. -/
theorem startsWithKey_iff {key : List Char} (hkey : Word key) (field : Field) :
    startsWithKey key (field.key.text ++ (field.gap.text ++ ':' :: field.value)) = true ↔
      key = field.key.text := by
  rw [startsWithKey, Bool.and_eq_true, List.isPrefixOf_iff_prefix, beq_iff_eq]
  constructor
  · rintro ⟨⟨behind, hbehind⟩, hmark⟩
    rw [← hbehind, List.drop_left] at hmark
    -- Behind the key is white space, up to the colon.
    let margin : Margin := ⟨behind.takeWhile Text.isBlank, fun _ => List.mem_takeWhile_imp⟩
    cases hrest : Text.trimStart behind with
    | nil =>
        rw [hrest] at hmark
        cases hmark
    | cons c rest =>
        rw [hrest] at hmark
        cases hmark
        have hsplit : behind = margin.text ++ ':' :: rest := by
          rw [← hrest]
          exact (List.takeWhile_append_dropWhile).symm
        rw [hsplit, ← List.append_assoc, ← List.append_assoc] at hbehind
        have hsame := Text.eq_of_append_separator (by simp [hkey.1, margin.colon_not_mem])
          (by simp [field.key.word.1, field.gap.colon_not_mem]) hbehind
        exact eq_of_append_margin margin field.gap hkey.2 field.key.word.2 hsame
  · rintro rfl
    refine ⟨List.prefix_append _ _, ?_⟩
    rw [List.drop_left, trimStart_margin, Text.trimStart_cons_mark _ (by decide)]
    rfl

end Config
end StencilDesk
