import StencilDesk.Proofs.Config.Layout

/-!
# Where the fields of a document stand

The search for a field finds its own line, wherever else its keys occur: what lies deeper than the
block that is searched is passed over, as are blank lines and comments, and the block ends where the
document goes on less deep. So the keys of a path lead from block to block, and nowhere if there is
no such field.
-/

namespace StencilDesk
namespace Config

/-!
## Looking for one key
-/

/-- Holds of lines that a search for a key goes past, in a block of some indentation. -/
def Passed (key : List Char) (parent : Option Nat) (level : Nat) (line : List Char) : Prop :=
  isSilent (indented line).2 = true ∨
    (∀ outer ∈ parent, outer < (indented line).1) ∧
      ¬((indented line).1 = level ∧ startsWithKey key (indented line).2 = true)

/-- Holds of lines that end a block, after some that are silent. -/
def Ends (parent : Option Nat) (lines : List (List Char)) : Prop :=
  ∀ line, lines.find? (fun line => !isSilent (indented line).2) = some line →
    ∃ outer ∈ parent, (indented line).1 ≤ outer

def pushed (count : Nat) (found : Option (Nat × Nat × List (List Char))) :
    Option (Nat × Nat × List (List Char)) :=
  found.map fun (before, found) => (before + count, found)

section
variable {key : List Char} {parent level : Option Nat} {indent : Nat} {line : List Char}
  {lines rest : List (List Char)}

theorem pushed_zero (found : Option (Nat × Nat × List (List Char))) : pushed 0 found = found := by
  cases found with
  | none => rfl
  | some found => rfl

theorem pushed_pushed (count more : Nat) (found : Option (Nat × Nat × List (List Char))) :
    pushed count (pushed more found) = pushed (more + count) found := by
  cases found with
  | none => rfl
  | some found => simp only [pushed, Option.map_some, Nat.add_assoc]

theorem findKey_silent (h : isSilent (indented line).2 = true) :
    findKey key parent level (line :: rest) = pushed 1 (findKey key parent level rest) := by
  rw [findKey]
  exact if_pos h

theorem findKey_cons (hsilent : isSilent (indented line).2 = false)
    (hdeep : ∀ outer ∈ parent, outer < (indented line).1)
    (hlevel : level.getD (indented line).1 = indent) :
    findKey key parent level (line :: rest) =
      if (indented line).1 = indent ∧ startsWithKey key (indented line).2 = true then
        some (0, (indented line).1, rest)
      else pushed 1 (findKey key parent (some indent) rest) := by
  have hinside : (parent.any fun parent => (indented line).1 ≤ parent) = false := by
    cases parent with
    | none => rfl
    | some outer => simpa using hdeep outer rfl
  subst hlevel
  rw [findKey]
  simp only [hsilent, hinside, Bool.false_eq_true, if_false]
  rfl

theorem findKey_append (h : ∀ line ∈ lines, ∀ rest, findKey key parent level (line :: rest) =
      pushed 1 (findKey key parent level rest)) (rest : List (List Char)) :
    findKey key parent level (lines ++ rest) =
      pushed lines.length (findKey key parent level rest) := by
  induction lines with
  | nil => rw [List.nil_append, List.length_nil, pushed_zero]
  | cons line lines ih =>
      rw [List.cons_append, h line List.mem_cons_self,
        ih (fun line hmem => h line (List.mem_cons_of_mem _ hmem)), pushed_pushed,
        List.length_cons]

theorem findKey_silents (h : ∀ line ∈ lines, isSilent (indented line).2 = true) :
    findKey key parent level (lines ++ rest) =
      pushed lines.length (findKey key parent level rest) :=
  findKey_append (fun line hmem _ => findKey_silent (h line hmem)) rest

theorem findKey_passed (h : ∀ line ∈ lines, Passed key parent indent line) :
    findKey key parent (some indent) (lines ++ rest) =
      pushed lines.length (findKey key parent (some indent) rest) := by
  refine findKey_append (fun line hmem rest => ?_) rest
  by_cases hsilent : isSilent (indented line).2 = true
  · exact findKey_silent hsilent
  · rcases (h line hmem).resolve_left hsilent with ⟨hdeep, hother⟩
    have hlevel : (some indent).getD (indented line).1 = indent := rfl
    rw [findKey_cons (Bool.eq_false_iff.mpr hsilent) hdeep hlevel, if_neg hother]

theorem ends_append (h : ∀ line ∈ lines, isSilent (indented line).2 = true)
    (hends : Ends parent rest) : Ends parent (lines ++ rest) := by
  intro last hlast
  have hnone : lines.find? (fun line => !isSilent (indented line).2) = none :=
    List.find?_eq_none.mpr fun line hmem => by simp [h line hmem]
  rw [List.find?_append, hnone, Option.none_or] at hlast
  exact hends last hlast

theorem findKey_of_ends (h : Ends parent lines) : findKey key parent level lines = none := by
  induction lines with
  | nil => rfl
  | cons line lines ih =>
      by_cases hsilent : isSilent (indented line).2 = true
      · have hrest : Ends parent lines := by
          intro last hlast
          refine h last ?_
          rw [List.find?_cons_of_neg (by simp [hsilent]), hlast]
        rw [findKey_silent hsilent, ih hrest]
        rfl
      · rcases h line (List.find?_cons_of_pos (by simp [hsilent])) with ⟨outer, rfl, hout⟩
        rw [findKey]
        simp [hsilent, hout]

end

theorem findKey_field {key : List Char} {parent level : Option Nat} {indent : Nat}
    (hkey : Word key) (hparent : ∀ outer ∈ parent, outer < indent)
    (hlevel : level.getD indent = indent) (field : Field) (rest : List (List Char)) :
    findKey key parent level (field.text indent :: rest) =
      if key = field.key.text then some (0, indent, rest)
      else pushed 1 (findKey key parent (some indent) rest) := by
  have hline := indented_field indent field
  have hwidth : (indented (field.text indent)).1 = indent := by rw [hline]
  have hsilent : isSilent (indented (field.text indent)).2 = false := by
    rw [hline]
    exact isSilent_field field _
  rw [← hwidth] at hparent hlevel
  rw [findKey_cons hsilent hparent (hlevel.trans hwidth), hline]
  simp only [startsWithKey_iff hkey field, true_and]

/-!
## Lines of a block
-/

theorem isSilent_of_mem_remarks {remarks : List Remark} :
    ∀ line ∈ remarks.map Remark.line, isSilent (indented line.text).2 = true := by
  intro line hmem
  rcases List.mem_map.mp hmem with ⟨remark, _, rfl⟩
  exact isSilent_remark remark

theorem owner_of_mem_remarks {remarks : List Remark} (owner : List (List Char)) :
    ∀ line ∈ remarks.map Remark.line, line.owner ≠ some owner := by
  intro line hmem howner
  rcases List.mem_map.mp hmem with ⟨remark, _, rfl⟩
  cases howner

theorem isSilent_of_mem_map {lines : List Line}
    (h : ∀ line ∈ lines, isSilent (indented line.text).2 = true) :
    ∀ text ∈ lines.map Line.text, isSilent (indented text).2 = true := by
  intro text hmem
  rcases List.mem_map.mp hmem with ⟨line, hline, rfl⟩
  exact h line hline

namespace Block

theorem Leads.exists_cons {block : Block} {keys : List (List Char)} (h : block.Leads keys) :
    ∃ key rest, keys = key :: rest ∧ key ∈ block.keys := by
  induction h with
  | here first beyond inner rest => exact ⟨_, [], rfl, List.mem_cons_self⟩
  | deeper first beyond rest h ih => exact ⟨_, _, rfl, List.mem_cons_self⟩
  | later first beyond inner h ih =>
      rcases ih with ⟨key, rest, hkeys, hmem⟩
      exact ⟨key, rest, hkeys, List.mem_cons_of_mem _ hmem⟩

theorem leads_of_mem_lines {block : Block} {indent : Nat} {above owner : List (List Char)}
    {line : Line} (hmem : line ∈ block.lines indent above) (howner : line.owner = some owner) :
    ∃ keys, block.Leads keys ∧ owner = above ++ keys := by
  induction block generalizing indent above with
  | empty => cases hmem
  | field first beyond below rest ihbelow ihrest =>
      rw [lines, List.mem_append, List.mem_cons, List.mem_append] at hmem
      rcases hmem with hremark | rfl | hbelow | hrest
      · exact absurd howner (owner_of_mem_remarks owner line hremark)
      · cases howner
        exact ⟨_, .here first beyond below rest, rfl⟩
      · rcases ihbelow hbelow with ⟨keys, hleads, rfl⟩
        exact ⟨_, .deeper first beyond rest hleads, List.append_assoc above _ keys⟩
      · rcases ihrest hrest with ⟨keys, hleads, hkeys⟩
        exact ⟨keys, .later first beyond below hleads, hkeys⟩

theorem Leads.exists_line {block : Block} {keys : List (List Char)} (h : block.Leads keys)
    (indent : Nat) (above : List (List Char)) :
    ∃ line ∈ block.lines indent above, line.owner = some (above ++ keys) := by
  induction h generalizing indent above with
  | here first beyond inner rest =>
      refine ⟨⟨_, first.text indent⟩, ?_, rfl⟩
      rw [lines]
      exact List.mem_append_right _ List.mem_cons_self
  | deeper first beyond rest h ih =>
      rcases ih (indent + 1 + beyond) (above ++ [first.key.text]) with ⟨line, hmem, howner⟩
      refine ⟨line, ?_, by rw [howner, List.append_assoc, List.singleton_append]⟩
      rw [lines]
      exact List.mem_append_right _ (List.mem_cons_of_mem _ (List.mem_append_left _ hmem))
  | later first beyond inner h ih =>
      rcases ih indent above with ⟨line, hmem, howner⟩
      refine ⟨line, ?_, howner⟩
      rw [lines]
      exact List.mem_append_right _ (List.mem_cons_of_mem _ (List.mem_append_right _ hmem))

theorem owner_ne_of_key {block : Block} {indent : Nat} {above keys : List (List Char)}
    {key : List Char} (hkey : key ∉ block.keys) :
    ∀ line ∈ block.lines indent above, line.owner ≠ some (above ++ key :: keys) := by
  intro line hmem howner
  rcases leads_of_mem_lines hmem howner with ⟨found, hleads, hsame⟩
  rcases hleads.exists_cons with ⟨first, rest, rfl, hfirst⟩
  cases List.append_cancel_left hsame
  exact hkey hfirst

theorem owner_ne_of_above {block : Block} {indent : Nat} {above keys : List (List Char)}
    {first key : List Char} (hfirst : first ≠ key) :
    ∀ line ∈ block.lines indent (above ++ [first]), line.owner ≠ some (above ++ key :: keys) := by
  intro line hmem howner
  rcases leads_of_mem_lines hmem howner with ⟨found, _, hsame⟩
  rw [List.append_assoc] at hsame
  cases List.append_cancel_left hsame
  exact hfirst rfl

/-- No line of the block below a field belongs to the field itself. -/
theorem owner_ne_above {block : Block} {indent : Nat} {above : List (List Char)} :
    ∀ line ∈ block.lines indent above, line.owner ≠ some above := by
  intro line hmem howner
  rcases leads_of_mem_lines hmem howner with ⟨found, hleads, hsame⟩
  rcases hleads.exists_cons with ⟨first, rest, rfl, _⟩
  cases List.append_right_eq_self.mp hsame.symm

theorem le_indented_of_mem_lines {block : Block} {indent : Nat} {above : List (List Char)}
    {line : Line} (hmem : line ∈ block.lines indent above) :
    isSilent (indented line.text).2 = true ∨ indent ≤ (indented line.text).1 := by
  induction block generalizing indent above with
  | empty => cases hmem
  | field first beyond below rest ihbelow ihrest =>
      rw [lines, List.mem_append, List.mem_cons, List.mem_append] at hmem
      rcases hmem with hremark | rfl | hbelow | hrest
      · exact Or.inl (isSilent_of_mem_remarks line hremark)
      · exact Or.inr (by rw [indented_field])
      · refine (ihbelow hbelow).imp_right fun hdeep => ?_
        omega
      · exact ihrest hrest

theorem passed_of_mem_lines {block : Block} {key : List Char} {parent : Option Nat}
    {level indent : Nat} {above : List (List Char)} (hparent : ∀ outer ∈ parent, outer < level)
    (hdeep : level < indent) : ∀ line ∈ (block.lines indent above).map Line.text,
    Passed key parent level line := by
  intro text hmem
  rcases List.mem_map.mp hmem with ⟨line, hline, rfl⟩
  refine (le_indented_of_mem_lines hline).imp_right fun hindent => ⟨?_, ?_⟩
  · intro outer houter
    have hlevel := hparent outer houter
    omega
  · rintro ⟨hsame, _⟩
    omega

/-- The block below a field ends where the block of the field goes on, or where that one ends. -/
theorem ends_lines {block : Block} {indent : Nat} {above : List (List Char)} {parent : Option Nat}
    {after : List (List Char)} (hparent : ∀ outer ∈ parent, outer < indent)
    (hends : Ends parent after) :
    Ends (some indent) ((block.lines indent above).map Line.text ++ after) := by
  cases block with
  | empty =>
      intro text htext
      rcases hends text htext with ⟨outer, houter, hout⟩
      have hindent := hparent outer houter
      exact ⟨indent, rfl, by omega⟩
  | field first beyond below rest =>
      rw [lines, List.map_append, List.append_assoc]
      refine ends_append (isSilent_of_mem_map isSilent_of_mem_remarks) ?_
      intro text htext
      rw [List.map_cons, List.cons_append, List.find?_cons_of_pos (by
        rw [indented_field, isSilent_field]; rfl)] at htext
      cases htext
      exact ⟨indent, rfl, by rw [indented_field]⟩

end Block

/-!
## Numbers of lines
-/

/-- Holds of the number of the line of an owner, of lines the first of which has the given number,
and of none if there is no such line. -/
def Finds (answer : Option Nat) (lines : List Line) (owner : List (List Char)) (number : Nat) :
    Prop :=
  ∀ found, answer = some found ↔
    ∃ index line, found = number + index ∧ lines[index]? = some line ∧ line.owner = some owner

namespace Finds

variable {answer : Option Nat} {lines rest : List Line} {line : Line} {owner : List (List Char)}
  {number : Nat}

theorem of_none (h : ∀ line ∈ lines, line.owner ≠ some owner) : Finds none lines owner number := by
  intro found
  constructor
  · intro hfound
    cases hfound
  · rintro ⟨index, line, _, hline, howner⟩
    exact absurd howner (h line (List.mem_of_getElem? hline))

theorem here (howner : line.owner = some owner) (h : ∀ line ∈ rest, line.owner ≠ some owner) :
    Finds (some number) (line :: rest) owner number := by
  intro found
  constructor
  · intro hfound
    cases hfound
    exact ⟨0, line, rfl, rfl, howner⟩
  · rintro ⟨index, other, rfl, hother, hsame⟩
    cases index with
    | zero => rfl
    | succ index => exact absurd hsame (h other (List.mem_of_getElem? hother))

theorem skip (h : ∀ line ∈ lines, line.owner ≠ some owner)
    (hrest : Finds answer rest owner (number + lines.length)) :
    Finds answer (lines ++ rest) owner number := by
  intro found
  rw [hrest found]
  constructor
  · rintro ⟨index, line, rfl, hline, howner⟩
    refine ⟨lines.length + index, line, Nat.add_assoc _ _ _, ?_, howner⟩
    rw [List.getElem?_append_right (Nat.le_add_right _ _), Nat.add_sub_cancel_left, hline]
  · rintro ⟨index, line, rfl, hline, howner⟩
    rcases Nat.lt_or_ge index lines.length with hlt | hge
    · rw [List.getElem?_append_left hlt] at hline
      exact absurd howner (h line (List.mem_of_getElem? hline))
    · rw [List.getElem?_append_right hge] at hline
      exact ⟨index - lines.length, line, by omega, hline, howner⟩

theorem before (hlines : Finds answer lines owner number)
    (h : ∀ line ∈ rest, line.owner ≠ some owner) :
    Finds answer (lines ++ rest) owner number := by
  intro found
  rw [hlines found]
  constructor
  · rintro ⟨index, line, rfl, hline, howner⟩
    refine ⟨index, line, rfl, ?_, howner⟩
    rw [List.getElem?_append_left (List.getElem?_eq_some_iff.mp hline).1, hline]
  · rintro ⟨index, line, rfl, hline, howner⟩
    rcases Nat.lt_or_ge index lines.length with hlt | hge
    · rw [List.getElem?_append_left hlt] at hline
      exact ⟨index, line, rfl, hline, howner⟩
    · rw [List.getElem?_append_right hge] at hline
      exact absurd howner (h line (List.mem_of_getElem? hline))

end Finds

/-!
## Following a path
-/

def continueAt (number : Nat) (keys : List (List Char)) :
    Option (Nat × Nat × List (List Char)) → Option Nat
  | none => none
  | some (before, indent, rest) =>
      if keys.isEmpty then some (number + before)
      else findPath (some indent) (number + before + 1) rest keys

theorem findPath_cons (parent : Option Nat) (number : Nat) (lines : List (List Char))
    (key : List Char) (keys : List (List Char)) :
    findPath parent number lines (key :: keys) =
      continueAt number keys (findKey key parent none lines) := by
  rw [findPath]
  cases findKey key parent none lines with
  | none => rfl
  | some found => rfl

theorem continueAt_pushed (number count : Nat) (keys : List (List Char))
    (found : Option (Nat × Nat × List (List Char))) :
    continueAt number keys (pushed count found) = continueAt (number + count) keys found := by
  cases found with
  | none => rfl
  | some found =>
      have hcount : number + (found.1 + count) = number + count + found.1 := by omega
      simp only [pushed, Option.map_some, continueAt, hcount]

def Field.lines (indent : Nat) (above : List (List Char)) (first : Field) (beyond : Nat)
    (below : Block) : List Line :=
  ⟨some (above ++ [first.key.text]), first.text indent⟩ ::
    below.lines (indent + 1 + beyond) (above ++ [first.key.text])

section
variable {key : List Char} {keys above : List (List Char)} {indent : Nat}

/--
If a search finds its way from the line of a key on, it does so from the start of the block on.
-/
theorem finds_block_of_field (hkey : Word key)
    (hfield : ∀ (first : Field) (beyond : Nat) (below : Block) (number : Nat)
      (after : List (List Char)), first.key.text = key → below.Distinct →
      Ends (some indent) after →
      Finds (continueAt number keys (some (0, indent,
          (below.lines (indent + 1 + beyond) (above ++ [key])).map Line.text ++ after)))
        (first.lines indent above beyond below) (above ++ key :: keys) number)
    {block : Block} (hdistinct : block.Distinct) {number : Nat} {parent level : Option Nat}
    {after : List (List Char)} (hparent : ∀ outer ∈ parent, outer < indent)
    (hlevel : level.getD indent = indent) (hends : Ends parent after) :
    Finds (continueAt number keys
        (findKey key parent level ((block.lines indent above).map Line.text ++ after)))
      (block.lines indent above) (above ++ key :: keys) number := by
  induction block generalizing number level with
  | empty =>
      rw [Block.lines, List.map_nil, List.nil_append, findKey_of_ends hends]
      exact Finds.of_none (fun line hmem => by cases hmem)
  | field first beyond below rest ihbelow ihrest =>
      rcases hdistinct with ⟨hother, hbelow, hrest⟩
      rw [Block.lines, List.map_append, List.append_assoc,
        findKey_silents (isSilent_of_mem_map isSilent_of_mem_remarks), continueAt_pushed,
        List.length_map]
      refine Finds.skip (owner_of_mem_remarks _) ?_
      rw [List.map_cons, List.map_append, List.cons_append, List.append_assoc,
        findKey_field hkey hparent hlevel]
      by_cases hsame : key = first.key.text
      · subst hsame
        rw [if_pos rfl]
        have hends' : Ends (some indent) ((rest.lines indent above).map Line.text ++ after) :=
          Block.ends_lines hparent hends
        exact (hfield first beyond below _ _ rfl hbelow hends').before
          (Block.owner_ne_of_key hother)
      · -- A field with another key is passed, with the whole block below it.
        rw [if_neg hsame, findKey_passed (Block.passed_of_mem_lines hparent (by omega)),
          pushed_pushed, continueAt_pushed, List.length_map, List.length_map]
        have hlines : ∀ line ∈ first.lines indent above beyond below,
            line.owner ≠ some (above ++ key :: keys) := by
          intro line hmem
          rcases List.mem_cons.mp hmem with rfl | hbelow'
          · intro howner
            cases List.append_cancel_left (Option.some.inj howner)
            exact hsame rfl
          · exact Block.owner_ne_of_above (Ne.symm hsame) line hbelow'
        have hlevel' : (some indent).getD indent = indent := rfl
        exact Finds.skip hlines (ihrest hrest hlevel')

end

/-- From the start of a block on, the search finds the line of a field of the block or below it. -/
theorem finds_block {keys : List (List Char)} {key : List Char}
    (hwords : ∀ word ∈ key :: keys, Word word) {block : Block} (hdistinct : block.Distinct)
    {indent number : Nat} {above : List (List Char)} {parent level : Option Nat}
    {after : List (List Char)} (hparent : ∀ outer ∈ parent, outer < indent)
    (hlevel : level.getD indent = indent) (hends : Ends parent after) :
    Finds (continueAt number keys
        (findKey key parent level ((block.lines indent above).map Line.text ++ after)))
      (block.lines indent above) (above ++ key :: keys) number := by
  induction keys generalizing key block indent number above parent level after with
  | nil =>
      refine finds_block_of_field (hwords key List.mem_cons_self) ?_ hdistinct hparent hlevel hends
      rintro first beyond below number after rfl _ _
      exact Finds.here rfl Block.owner_ne_above
  | cons next keys ih =>
      refine finds_block_of_field (hwords key List.mem_cons_self) ?_ hdistinct hparent hlevel hends
      rintro first beyond below number after rfl hbelow hends'
      -- The next key is looked for below this field, up to where the block of the field goes on.
      have hshallow : ∀ outer ∈ some indent, outer < indent + 1 + beyond := by
        rintro outer ⟨⟩
        omega
      have hnext : ∀ word ∈ next :: keys, Word word :=
        fun word hmem => hwords word (List.mem_cons_of_mem _ hmem)
      have hlevel' : (none : Option Nat).getD (indent + 1 + beyond) = indent + 1 + beyond := rfl
      have hown : ∀ line ∈ [Line.mk (some (above ++ [first.key.text])) (first.text indent)],
          line.owner ≠ some (above ++ first.key.text :: next :: keys) := by
        intro line hmem howner
        cases List.mem_singleton.mp hmem
        cases List.append_cancel_left (Option.some.inj howner)
      have hbehind : above ++ first.key.text :: next :: keys =
          above ++ [first.key.text] ++ next :: keys := List.append_cons _ _ _
      refine Finds.skip hown ?_
      rw [hbehind, continueAt, List.isEmpty_cons, if_neg Bool.false_ne_true, findPath_cons]
      exact ih hnext hbelow hshallow hlevel' hends'

namespace Layout

theorem locates_of_finds {layout : Layout} {keys : List (List Char)} {answer : Option Nat}
    (h : Finds answer layout.lines keys 1) : layout.Locates keys answer := by
  constructor
  · intro number
    rw [h number]
    simp only [Nat.add_comm 1]
  · constructor
    · rintro rfl hleads
      rcases hleads.exists_line layout.indent [] with ⟨line, hmem, howner⟩
      rcases List.getElem?_of_mem (List.mem_append_left (layout.remarks.map Remark.line) hmem) with
        ⟨index, hline⟩
      cases (h (1 + index)).mpr ⟨index, line, rfl, hline, howner⟩
    · intro hnone
      refine Option.eq_none_iff_forall_ne_some.mpr fun found hfound => hnone ?_
      rcases (h found).mp hfound with ⟨index, line, _, hline, howner⟩
      rcases List.mem_append.mp (List.mem_of_getElem? hline) with hblock | hremark
      · rcases Block.leads_of_mem_lines hblock howner with ⟨_, hleads, rfl⟩
        exact hleads
      · exact absurd howner (owner_of_mem_remarks keys line hremark)

/--
A field is found on its own line, even if others have its name elsewhere, and nothing is found where
the document has no such field.
-/
theorem locates_lineOfField (layout : Layout) {source path : String}
    (hsource : layout.Written source) (hpath : ∀ word ∈ Text.splitOn '.' path.toList, Word word) :
    layout.Locates (Text.splitOn '.' path.toList) (lineOfField source path) := by
  refine locates_of_finds ?_
  rw [lineOfField, hsource, lines, List.map_append]
  cases hkeys : Text.splitOn '.' path.toList with
  | nil => exact absurd hkeys (Text.splitOn_ne_nil '.' path.toList)
  | cons key keys =>
      rw [hkeys] at hpath
      rw [findPath_cons]
      have hparent : ∀ outer ∈ (none : Option Nat), outer < layout.indent := by
        rintro outer ⟨⟩
      have hlevel : (none : Option Nat).getD layout.indent = layout.indent := rfl
      have hends : Ends none (layout.remarks.map Remark.line |>.map Line.text) := by
        rw [← List.append_nil (List.map _ _)]
        refine ends_append (isSilent_of_mem_map isSilent_of_mem_remarks) ?_
        rintro line ⟨⟩
      exact (finds_block hpath layout.distinct hparent hlevel hends).before
        (owner_of_mem_remarks (key :: keys))

def sample : Layout where
  block :=
    .field { remarks := [⟨⟨[], by simp⟩, some " head".toList⟩],
             key := ⟨"stencil".toList, by simp, by simp [Text.isBlank]⟩ } 1
      (.field { key := ⟨"meta".toList, by simp, by simp [Text.isBlank]⟩ } 3
        (.field { key := ⟨"id".toList, by simp, by simp [Text.isBlank]⟩,
                  value := " deep".toList } 0 .empty .empty)
        (.field { remarks := [⟨⟨"    ".toList, by simp [Text.isBlank]⟩, some " note".toList⟩,
                              ⟨⟨[], by simp⟩, none⟩],
                  key := ⟨"id".toList, by simp, by simp [Text.isBlank]⟩,
                  gap := ⟨[' '], by simp [Text.isBlank]⟩,
                  value := " top".toList } 0 .empty .empty))
      (.field { key := ⟨"other".toList, by simp, by simp [Text.isBlank]⟩ } 1
        (.field { key := ⟨"id".toList, by simp, by simp [Text.isBlank]⟩,
                  value := " x".toList } 0 .empty .empty)
        .empty)
  distinct := by simp [Block.Distinct, Block.keys]
  remarks := [⟨⟨[], by simp⟩, none⟩]

def sampleSource : String :=
  "# head\nstencil:\n  meta:\n      id: deep\n    # note\n\n  id : top\nother:\n  id: x\n"

theorem locates_lineOfField_sample : sample.Written sampleSource ∧
    sample.Locates (Text.splitOn '.' "stencil.id".toList) (lineOfField sampleSource "stencil.id") ∧
      lineOfField sampleSource "stencil.id" = some 7 := by
  have hsource : sample.Written sampleSource := by
    unfold Written
    decide +kernel
  have hpath : ∀ word ∈ Text.splitOn '.' "stencil.id".toList, Word word := by
    simp [Word, Text.splitOn, Text.isBlank]
  have hlocates := locates_lineOfField sample hsource hpath
  exact ⟨hsource, hlocates, (hlocates.some_iff 7).mpr ⟨6, _, rfl, rfl, rfl⟩⟩

end Layout

end Config
end StencilDesk
