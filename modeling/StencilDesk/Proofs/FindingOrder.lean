import StencilDesk.Finding

/-!
# The order of findings

Findings are listed by line and column, and those without a line come last. Findings at one place
keep the order in which they were found, so the list of some of the findings does not depend on the
others.
-/

namespace StencilDesk

/-!
## Parts of sorted lists
-/

section
variable {α : Type} {le : α → α → Bool}

theorem append_unique_of_test {test : α → Bool} {front back other rest : List α}
    (hsame : front ++ back = other ++ rest) (hfront : ∀ a ∈ front, test a = false)
    (hback : ∀ a ∈ back, test a = true) (hother : ∀ a ∈ other, test a = false)
    (hrest : ∀ a ∈ rest, test a = true) : front = other ∧ back = rest := by
  rcases List.append_eq_append_iff.mp hsame with
    ⟨middle, hsplit, hmiddle⟩ | ⟨middle, hsplit, hmiddle⟩
  · cases middle with
    | nil =>
        rw [List.append_nil] at hsplit
        exact ⟨hsplit.symm, hmiddle⟩
    | cons a middle =>
        have hpasses := hback a (by simp [hmiddle])
        rw [hother a (by simp [hsplit])] at hpasses
        cases hpasses
  · cases middle with
    | nil =>
        rw [List.append_nil] at hsplit
        exact ⟨hsplit, hmiddle.symm⟩
    | cons a middle =>
        have hpasses := hrest a (by simp [hmiddle])
        rw [hfront a (by simp [hsplit])] at hpasses
        cases hpasses

/-- Where a stable sort puts the first element: before all that are not smaller. -/
theorem exists_mergeSort_cons (htrans : ∀ a b c, le a b = true → le b c = true → le a c = true)
    (htotal : ∀ a b, (le a b || le b a) = true) (a : α) (list : List α) :
    ∃ front back, (a :: list).mergeSort le = front ++ a :: back ∧
      list.mergeSort le = front ++ back ∧ (∀ b ∈ front, le a b = false) ∧
      ∀ b ∈ back, le a b = true := by
  rcases List.mergeSort_cons htrans htotal a list with ⟨front, back, hcons, hlist, hfront⟩
  have hsorted := List.pairwise_mergeSort htrans htotal (a :: list)
  rw [hcons, List.pairwise_append, List.pairwise_cons] at hsorted
  refine ⟨front, back, hcons, hlist, ?_, hsorted.2.1.1⟩
  intro b hb
  exact Bool.not_eq_true' _ ▸ hfront b hb

theorem filter_mergeSort (htrans : ∀ a b c, le a b = true → le b c = true → le a c = true)
    (htotal : ∀ a b, (le a b || le b a) = true) (keep : α → Bool) (list : List α) :
    (list.mergeSort le).filter keep = (list.filter keep).mergeSort le := by
  induction list with
  | nil => rw [List.mergeSort_nil, List.filter_nil, List.mergeSort_nil]
  | cons a rest ih =>
      rcases exists_mergeSort_cons htrans htotal a rest with
        ⟨front, back, hcons, hrest, hfront, hback⟩
      rw [hrest, List.filter_append] at ih
      rw [hcons, List.filter_append]
      cases hkeep : keep a with
      | false =>
          have hleft : ¬keep a = true := by simp [hkeep]
          rw [List.filter_cons_of_neg hleft, List.filter_cons_of_neg hleft, ih]
      | true =>
          rw [List.filter_cons_of_pos hkeep, List.filter_cons_of_pos hkeep]
          rcases exists_mergeSort_cons htrans htotal a (rest.filter keep) with
            ⟨before, behind, hkept, hsplit, hbefore, hbehind⟩
          have hparts := append_unique_of_test (ih.trans hsplit)
            (fun b hb => hfront b (List.mem_filter.mp hb).1)
            (fun b hb => hback b (List.mem_filter.mp hb).1) hbefore hbehind
          rw [hkept, hparts.1, hparts.2]

theorem filter_mergeSort_of_ties (htrans : ∀ a b c, le a b = true → le b c = true → le a c = true)
    (htotal : ∀ a b, (le a b || le b a) = true) {keep : α → Bool}
    (hties : ∀ a b, keep a = true → keep b = true → le a b = true) (list : List α) :
    (list.mergeSort le).filter keep = list.filter keep := by
  rw [filter_mergeSort htrans htotal]
  apply List.mergeSort_of_pairwise
  rw [List.pairwise_iff_forall_sublist]
  intro a b hsub
  have ha := hsub.subset List.mem_cons_self
  have hb := hsub.subset (List.mem_cons_of_mem a List.mem_cons_self)
  exact hties a b (List.mem_filter.mp ha).2 (List.mem_filter.mp hb).2

/-- A stable sort keeps an order that a list had before among elements that tie. -/
theorem pairwise_mergeSort_of_pairwise
    (htrans : ∀ a b c, le a b = true → le b c = true → le a c = true)
    (htotal : ∀ a b, (le a b || le b a) = true) {r : α → α → Prop} {list : List α}
    (h : list.Pairwise r) :
    (list.mergeSort le).Pairwise fun a b => le a b = true ∧ (le b a = true → r a b) := by
  have hsorted := List.pairwise_mergeSort htrans htotal list
  rw [List.pairwise_iff_forall_sublist] at h hsorted ⊢
  intro a b hsub
  refine ⟨hsorted hsub, fun hback => h ?_⟩
  -- Both are among the elements that tie with the first one, and these keep their order.
  let keep : α → Bool := fun c => le a c && le c a
  have hself : le a a = true := by simpa using htotal a a
  have hties : ∀ b c, keep b = true → keep c = true → le b c = true := by
    intro b c hb hc
    rw [Bool.and_eq_true] at hb hc
    exact htrans b a c hb.2 hc.1
  have hkept : [a, b].filter keep = [a, b] := by simp [keep, hself, hsorted hsub, hback]
  have hboth : ([a, b].filter keep).Sublist ((list.mergeSort le).filter keep) := hsub.filter keep
  rw [hkept, filter_mergeSort_of_ties htrans htotal hties] at hboth
  exact hboth.trans List.filter_sublist

/-- A list in which nothing that fails a test stands before something that passes it. -/
theorem filter_append_filter_not {test : α → Bool} {list : List α}
    (h : list.Pairwise fun a b => test b = true → test a = true) :
    list.filter test ++ list.filter (fun a => !test a) = list := by
  induction list with
  | nil => rfl
  | cons a rest ih =>
      rw [List.pairwise_cons] at h
      cases ha : test a with
      | true =>
          rw [List.filter_cons_of_pos ha, List.filter_cons_of_neg (by simp [ha]), List.cons_append,
            ih h.2]
      | false =>
          have hfails : ∀ b ∈ rest, test b = false := by
            intro b hb
            rw [Bool.eq_false_iff]
            intro hpasses
            rw [h.1 b hb hpasses] at ha
            cases ha
          rw [List.filter_eq_nil_iff.mpr, List.nil_append, List.filter_eq_self.mpr]
          · simpa [ha] using hfails
          · simpa [ha] using hfails

end

namespace Finding

/-- Holds if a finding may be listed before another one: its line is no later, and neither is its
column if both are on one line. -/
structure Precedes (a b : Finding) : Prop where
  line : ∀ n, b.line = some n → ∃ m, a.line = some m ∧ m ≤ n
  column : ∀ n i, a.line = some n → b.line = some n → a.column = some i →
    ∃ j, b.column = some j ∧ i ≤ j

theorem optionLe_total (m n : Option Nat) : optionLe m n = true ∨ optionLe n m = true := by
  cases m with
  | none => exact .inl rfl
  | some i =>
      cases n with
      | none => exact .inr rfl
      | some j =>
          simp only [optionLe, decide_eq_true_iff]
          exact Nat.le_total i j

theorem optionLe_trans {m n k : Option Nat} (hmn : optionLe m n = true)
    (hnk : optionLe n k = true) : optionLe m k = true := by
  cases m with
  | none => rfl
  | some i =>
      cases n with
      | none => cases hmn
      | some j =>
          cases k with
          | none => cases hnk
          | some l =>
              simp only [optionLe, decide_eq_true_iff] at hmn hnk ⊢
              exact Nat.le_trans hmn hnk

theorem le_total (a b : Finding) : (a.le b || b.le a) = true := by
  have hcolumns := optionLe_total a.column b.column
  rw [Bool.or_eq_true]
  unfold le
  cases a.line with
  | none =>
      cases b.line with
      | none => exact hcolumns
      | some n => exact .inr rfl
  | some m =>
      cases b.line with
      | none => exact .inl rfl
      | some n =>
          simp only [Bool.or_eq_true, Bool.and_eq_true, decide_eq_true_iff, beq_iff_eq]
          rcases Nat.lt_trichotomy m n with hlt | heq | hgt
          · exact .inl (.inl hlt)
          · rcases hcolumns with hle | hle
            · exact .inl (.inr ⟨heq, hle⟩)
            · exact .inr (.inr ⟨heq.symm, hle⟩)
          · exact .inr (.inl hgt)

theorem le_trans (a b c : Finding) (hab : a.le b = true) (hbc : b.le c = true) : a.le c = true := by
  unfold le at hab hbc ⊢
  cases ha : a.line <;> cases hb : b.line <;> cases hc : c.line <;>
    simp only [ha, hb, hc, Bool.or_eq_true, Bool.and_eq_true, decide_eq_true_iff, beq_iff_eq,
      Bool.false_eq_true] at hab hbc ⊢
  · exact optionLe_trans hab hbc
  · rename_i m n k
    rcases hab with hlt | ⟨heq, hcolumns⟩
    · rcases hbc with hless | ⟨hsame, _⟩
      · exact .inl (Nat.lt_trans hlt hless)
      · exact .inl (hsame ▸ hlt)
    · rcases hbc with hless | ⟨hsame, hothers⟩
      · exact .inl (heq ▸ hless)
      · exact .inr ⟨heq.trans hsame, optionLe_trans hcolumns hothers⟩

theorem precedes_of_le {a b : Finding} (h : a.le b = true) : a.Precedes b := by
  unfold le at h
  constructor
  · intro n hb
    rw [hb] at h
    cases ha : a.line with
    | none =>
        rw [ha] at h
        cases h
    | some m =>
        simp only [ha, Bool.or_eq_true, Bool.and_eq_true, decide_eq_true_iff, beq_iff_eq] at h
        refine ⟨m, rfl, ?_⟩
        rcases h with hlt | ⟨heq, _⟩
        · exact Nat.le_of_lt hlt
        · exact Nat.le_of_eq heq
  · intro n i ha hb hcolumn
    simp only [ha, hb, hcolumn, Nat.lt_irrefl, decide_false, BEq.rfl, Bool.false_or,
      Bool.true_and] at h
    cases hother : b.column with
    | none =>
        rw [hother] at h
        cases h
    | some j =>
        rw [hother, optionLe, decide_eq_true_iff] at h
        exact ⟨j, rfl, h⟩

theorem pairwise_sorted (findings : List Finding) : (sorted findings).Pairwise Precedes := by
  have hsorted : (sorted findings).Pairwise fun a b => a.le b = true :=
    List.pairwise_mergeSort le_trans le_total findings
  exact hsorted.imp precedes_of_le

theorem mem_sorted {finding : Finding} {findings : List Finding} :
    finding ∈ sorted findings ↔ finding ∈ findings :=
  (List.mergeSort_perm findings le).mem_iff

theorem filter_sorted (keep : Finding → Bool) (findings : List Finding) :
    (sorted findings).filter keep = sorted (findings.filter keep) :=
  filter_mergeSort le_trans le_total keep findings

/-- Findings without a place are listed behind all that have a line, in the order in which they were
found. -/
theorem sorted_append {front back : List Finding} (hfront : ∀ finding ∈ front, finding.line ≠ none)
    (hback : ∀ finding ∈ back, finding.line = none ∧ finding.column = none) :
    sorted (front ++ back) = sorted front ++ back := by
  have hordered : (sorted (front ++ back)).Pairwise fun a b =>
      b.line.isSome = true → a.line.isSome = true := by
    apply (pairwise_sorted _).imp
    intro a b hprecedes hb
    rcases Option.isSome_iff_exists.mp hb with ⟨n, hn⟩
    rcases hprecedes.line n hn with ⟨m, hm, _⟩
    exact Option.isSome_iff_exists.mpr ⟨m, hm⟩
  have hplaced : ∀ finding ∈ front, finding.line.isSome = true := by
    intro finding hmem
    exact Option.isSome_iff_ne_none.mpr (hfront finding hmem)
  have hunplaced : ∀ finding ∈ back, finding.line.isSome = false := by
    intro finding hmem
    rw [(hback finding hmem).1]
    rfl
  have hkept : (front ++ back).filter (fun finding => finding.line.isSome) = front := by
    rw [List.filter_append, List.filter_eq_self.mpr hplaced, List.filter_eq_nil_iff.mpr,
      List.append_nil]
    simpa using hunplaced
  have hleft : (front ++ back).filter (fun finding => !finding.line.isSome) = back := by
    rw [List.filter_append, List.filter_eq_nil_iff.mpr, List.nil_append, List.filter_eq_self.mpr]
    · simpa using hunplaced
    · simpa using hfront
  have hsame : sorted back = back := by
    apply List.mergeSort_of_pairwise
    rw [List.pairwise_iff_forall_sublist]
    intro a b hsub
    have ha := hback a (hsub.subset List.mem_cons_self)
    have hb := hback b (hsub.subset (List.mem_cons_of_mem a List.mem_cons_self))
    rw [le, ha.1, hb.1, ha.2]
    rfl
  rw [← filter_append_filter_not hordered, filter_sorted, filter_sorted, hkept, hleft, hsame]

end Finding
end StencilDesk
