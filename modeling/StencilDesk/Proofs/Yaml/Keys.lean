import StencilDesk.Bundle.Edit
import StencilDesk.Yaml.Value

/-!
# Keys of mappings

No mapping of a value that was read has a key twice, at any depth: a reader refuses a key that it
has met before in the same mapping.
-/

namespace StencilDesk
namespace Yaml
namespace Value

/-!
## What reading comes to
-/

section
variable {document : Document} {text : String} {value : Value}

theorem ofText_eq_ok (h : ofText text = .ok value) :
    (Document.read text.toList).root = none ∧ value = .null ∨
      ∃ root count, (Document.read text.toList).root = some root ∧
        ofNode (Document.read text.toList) depthLimit .root false root 0 = .ok (value, count) := by
  unfold ofText at h
  dsimp only at h
  cases hroot : (Document.read text.toList).root with
  | none =>
      rw [hroot] at h
      rcases Bundle.bind_eq_ok h with ⟨found, hfound, h⟩
      cases hfound
      split at h
      · cases h
      · split at h
        · cases h
        · cases h
          exact .inl ⟨rfl, rfl⟩
  | some root =>
      rw [hroot] at h
      rcases Bundle.bind_eq_ok h with ⟨⟨found, count⟩, hfound, h⟩
      split at h
      · cases h
      · split at h
        · cases h
        · cases h
          exact .inr ⟨root, count, rfl, hfound⟩

theorem bind_eq_ok {α β : Type} {x : Reading α} {f : α → Reading β} {b : β} {count last : Nat}
    (h : (x >>= f) count = .ok (b, last)) :
    ∃ a next, x count = .ok (a, next) ∧ f a next = .ok (b, last) := by
  rcases Bundle.bind_eq_ok h with ⟨⟨a, next⟩, hx, hf⟩
  exact ⟨a, next, hx, hf⟩

theorem foldlM_eq_ok {α β : Type} {P : β → Prop} {f : β → α → Reading β} {list : List α}
    (hstep : ∀ b a count c last, P b → f b a count = .ok (c, last) → P c)
    {start result : β} {count last : Nat} (hstart : P start)
    (h : list.foldlM f start count = .ok (result, last)) : P result := by
  induction list generalizing start count with
  | nil =>
      cases h
      exact hstart
  | cons a rest ih =>
      rw [List.foldlM_cons] at h
      rcases bind_eq_ok h with ⟨middle, next, hfirst, hrest⟩
      exact ih (hstep _ _ _ _ _ hstart hfirst) hrest

end

/-!
## Distinct keys
-/

/-- Holds of a value whose mappings, at any depth, have no key twice. -/
inductive Distinct : Value → Prop where
  | null : Distinct .null
  | bool (value : Bool) : Distinct (.bool value)
  | number (value : Number) : Distinct (.number value)
  | string (value : String) : Distinct (.string value)
  | sequence {items : List Value} (hitems : ∀ item ∈ items, Distinct item) :
      Distinct (.sequence items)
  | mapping {entries : List (Value × Value)} (hvalues : ∀ entry ∈ entries, Distinct entry.2)
      (hkeys : entries.Pairwise fun a b => b.1.same a.1 = false) : Distinct (.mapping entries)
  | tagged {tag : String} {value : Value} (hvalue : Distinct value) : Distinct (.tagged tag value)

section
variable {document : Document} {text : String} {value : Value}

theorem distinct_named (name : Option String) (h : value.Distinct) :
    (named name value).Distinct := by
  cases name with
  | none => exact h
  | some tag => exact .tagged h

theorem distinct_ofPlain (h : ofPlain text = .ok value) : value.Distinct := by
  unfold ofPlain at h
  split at h
  · cases h
    exact .null
  · split at h
    · cases h
      exact .bool _
    · split at h
      · cases h
        exact .number _
      · cases h
      · split at h
        · cases h
          exact .string _
        · split at h
          · cases h
            exact .number _
          · cases h
            exact .string _

theorem distinct_ofTagged {tag : String} {plain : Bool} (h : ofTagged tag text plain = .ok value) :
    value.Distinct := by
  unfold ofTagged at h
  split at h
  · split at h
    · cases h
      exact .bool _
    · cases h
  · split at h
    · split at h
      · cases h
        exact .number _
      · cases h
      · cases h
    · split at h
      · split at h
        · cases h
          exact .number _
        · cases h
      · split at h
        · split at h
          · cases h
            exact .null
          · cases h
        · split at h
          · exact distinct_ofPlain h
          · cases h
            exact .string _

theorem distinct_ofScalar {tag : Option String} {plain taken : Bool}
    (h : ofScalar tag text plain taken = .ok value) : value.Distinct := by
  unfold ofScalar at h
  split at h
  · exact distinct_ofTagged h
  · split at h
    · exact distinct_ofPlain h
    · cases h
      exact .string _

theorem hasKey_eq_false {entries : List (Value × Value)} {key : Value}
    (h : ¬hasKey entries key = true) : ∀ entry ∈ entries, key.same entry.1 = false := by
  intro entry hmem
  rw [Bool.eq_false_iff]
  intro hsame
  exact h (List.any_eq_true.mpr ⟨entry, hmem, hsame⟩)

theorem distinct_ofNode {depth count last : Nat} {place : Place} {inNamed : Bool} {node : Node}
    (h : ofNode document depth place inNamed node count = .ok (value, last)) :
    value.Distinct := by
  -- An alias is followed at the same depth, but what lies inside of a node is one level deeper.
  induction depth using Nat.strongRecOn generalizing place inNamed node count last value with
  | ind depth ih =>
      unfold ofNode at h
      rcases bind_eq_ok h with ⟨⟨target, aliased⟩, next, hfollow, hread⟩
      dsimp only at hread
      cases target with
      | cut => cases hread
      | aliasOf mark anchor => cases hread
      | scalar mark tag text plain =>
          dsimp only at hread
          generalize hscalar : ofScalar tag text plain _ = result at hread
          cases result with
          | error cause => cases hread
          | ok scalar =>
              cases hread
              exact distinct_named _ (distinct_ofScalar hscalar)
      | sequence mark tag items =>
          cases depth with
          | zero => cases hread
          | succ depth =>
              rcases bind_eq_ok hread with ⟨⟨values, index⟩, after, hitems, hread⟩
              cases hread
              apply distinct_named
              have hvalues : ∀ item ∈ values, item.Distinct := by
                refine foldlM_eq_ok (P := fun state => ∀ item ∈ state.1, item.Distinct)
                  ?_ (by simp) hitems
                intro state item start result behind hall hstep
                rcases bind_eq_ok hstep with ⟨first, middle, hfirst, hstep⟩
                cases hstep
                exact List.forall_mem_cons.mpr ⟨ih depth depth.lt_succ_self hfirst, hall⟩
              exact .sequence fun item hmem => hvalues item (List.mem_reverse.mp hmem)
      | mapping mark tag entries =>
          cases depth with
          | zero => cases hread
          | succ depth =>
              rcases bind_eq_ok hread with ⟨values, after, hentries, hread⟩
              cases hread
              apply distinct_named
              have hvalues : (∀ entry ∈ values, entry.2.Distinct) ∧
                  values.Pairwise fun a b => a.1.same b.1 = false := by
                refine foldlM_eq_ok (P := fun entries => (∀ entry ∈ entries, entry.2.Distinct) ∧
                  entries.Pairwise fun a b => a.1.same b.1 = false) ?_ (by simp) hentries
                intro entries nodes start result behind hall hstep
                rcases bind_eq_ok hstep with ⟨key, middle, _, hstep⟩
                by_cases hknown : hasKey entries key = true
                · rw [if_pos hknown] at hstep
                  cases hstep
                · rw [if_neg hknown] at hstep
                  rcases bind_eq_ok hstep with ⟨value, second, hvalue, hstep⟩
                  cases hstep
                  exact ⟨List.forall_mem_cons.mpr ⟨ih depth depth.lt_succ_self hvalue, hall.1⟩,
                    List.pairwise_cons.mpr ⟨hasKey_eq_false hknown, hall.2⟩⟩
              apply Distinct.mapping
              · intro entry hmem
                exact hvalues.1 entry (List.mem_reverse.mp hmem)
              · rw [List.pairwise_reverse]
                exact hvalues.2

theorem distinct_of_ofText (h : ofText text = .ok value) : value.Distinct := by
  rcases ofText_eq_ok h with ⟨_, hnull⟩ | ⟨root, count, _, hread⟩
  · rw [hnull]
    exact .null
  · exact distinct_ofNode hread

/-!
## Blocks
-/

theorem Distinct.untagged (h : value.Distinct) : value.untagged.Distinct := by
  induction h with
  | null => exact .null
  | bool value => exact .bool value
  | number value => exact .number value
  | string value => exact .string value
  | sequence hitems => exact .sequence hitems
  | mapping hvalues hkeys => exact .mapping hvalues hkeys
  | tagged _ ih => exact ih

theorem entries?_eq_some {entries : List (Value × Value)} (h : value.entries? = some entries) :
    value.untagged = .mapping entries := by
  unfold entries? at h
  split at h
  · rename_i hmapping
    cases h
    exact hmapping
  · cases h

theorem entries?_of_field? {key : String} {field : Value} (h : value.field? key = some field) :
    ∃ entries, value.entries? = some entries := by
  unfold field? at h
  split at h
  · rename_i entries hmapping
    refine ⟨entries, ?_⟩
    unfold entries?
    rw [hmapping]
  · cases h

theorem Distinct.field? (h : value.Distinct) {key : String} {field : Value}
    (hfield : value.field? key = some field) : field.Distinct := by
  rcases entries?_of_field? hfield with ⟨entries, hentries⟩
  have hdistinct := h.untagged
  unfold Value.field? at hfield
  rw [entries?_eq_some hentries] at hdistinct hfield
  cases hdistinct with
  | mapping hvalues _ =>
      rcases Option.map_eq_some_iff.mp hfield with ⟨entry, hfound, hsame⟩
      rw [← hsame]
      exact hvalues entry (List.mem_of_find?_eq_some hfound)

/-- The entries of a block that was read have different keys. -/
theorem Distinct.pairwise_entries (h : value.Distinct) {entries : List (Value × Value)}
    (hentries : value.entries? = some entries) :
    entries.Pairwise fun a b => b.1.same a.1 = false := by
  have hdistinct := h.untagged
  rw [entries?_eq_some hentries] at hdistinct
  cases hdistinct with
  | mapping _ hkeys => exact hkeys

end

end Value
end Yaml
end StencilDesk
