import StencilDesk.Proofs.Text.Positions

/-!
# What is found in a text

The occurrences of a construct, told without reading the text character by character: between two
of them lies a part in which no construct starts, and each has the position of the text before it.
-/

namespace StencilDesk
namespace Text

section
variable {α : Type} {Spells : α → List Char → Prop}

def Starts (Spells : α → List Char → Prop) (text : List Char) : Prop :=
  ∃ item spelled behind, text = spelled ++ behind ∧ Spells item spelled

def Silent (Spells : α → List Char → Prop) (gap behind : List Char) : Prop :=
  ∀ front inner, gap = front ++ inner → inner ≠ [] → ¬Starts Spells (inner ++ behind)

/-- Holds of the constructs that are found in the rest of a text, from left to right and none
inside another one. -/
inductive Scanned (Spells : α → List Char → Prop) :
    List Char → List Char → List (Position × α) → Prop where
  | done {before rest : List Char} (silent : Silent Spells rest []) : Scanned Spells before rest []
  | found {before gap spelled behind : List Char} {item : α} {more : List (Position × α)}
      (silent : Silent Spells gap (spelled ++ behind)) (hspelled : Spells item spelled)
      (hmore : Scanned Spells (before ++ gap ++ spelled) behind more) :
      Scanned Spells before (gap ++ spelled ++ behind)
        ((Position.start.behind (before ++ gap), item) :: more)

theorem silent_nil (behind : List Char) : Silent Spells [] behind := by
  intro front inner hsplit hsome
  exact absurd (List.append_eq_nil_iff.mp hsplit.symm).2 hsome

theorem silent_cons {c : Char} {gap behind : List Char} :
    Silent Spells (c :: gap) behind ↔
      ¬Starts Spells (c :: (gap ++ behind)) ∧ Silent Spells gap behind := by
  constructor
  · intro h
    constructor
    · exact h [] (c :: gap) rfl (List.cons_ne_nil _ _)
    · intro front inner hsplit
      exact h (c :: front) inner (congrArg (List.cons c) hsplit)
  · rintro ⟨hfirst, hrest⟩ front inner hsplit hsome
    cases front with
    | nil =>
        rw [List.nil_append] at hsplit
        rw [← hsplit]
        exact hfirst
    | cons first front =>
        exact hrest front inner (List.cons.inj hsplit).2 hsome

theorem Silent.not_infix {gap behind spelled : List Char} {item : α}
    (h : Silent Spells gap behind) (hspelled : Spells item spelled) (hsome : spelled ≠ []) :
    ¬spelled <:+: gap := by
  intro hinfix
  rcases hinfix with ⟨front, rest, hsplit⟩
  rw [List.append_assoc] at hsplit
  apply h front (spelled ++ rest) hsplit.symm
  · simp [hsome]
  · exact ⟨item, spelled, rest ++ behind, List.append_assoc _ _ _, hspelled⟩

theorem Scanned.cons {c : Char} {before rest : List Char} {found : List (Position × α)}
    (hnone : ¬Starts Spells (c :: rest)) (h : Scanned Spells (before ++ [c]) rest found) :
    Scanned Spells before (c :: rest) found := by
  cases h with
  | done silent =>
      apply Scanned.done
      rw [silent_cons, List.append_nil]
      exact ⟨hnone, silent⟩
  | found silent hspelled hmore =>
      rename_i gap spelled behind item more
      have hsilent : Silent Spells (c :: gap) (spelled ++ behind) := by
        rw [silent_cons]
        refine ⟨?_, silent⟩
        rw [← List.append_assoc]
        exact hnone
      have hplace : before ++ [c] ++ gap = before ++ c :: gap := by simp
      rw [hplace] at hmore ⊢
      exact .found hsilent hspelled hmore

theorem Scanned.of_mem {before rest : List Char} {found : List (Position × α)}
    (h : Scanned Spells before rest found) {place : Position} {item : α}
    (hmem : (place, item) ∈ found) :
    ∃ front spelled behind, before ++ rest = front ++ spelled ++ behind ∧
      place = Position.start.behind front ∧ Spells item spelled := by
  induction h with
  | done _ => cases hmem
  | found silent hspelled _ ih =>
      rename_i before gap spelled behind other more _
      rcases List.mem_cons.mp hmem with hsame | hlater
      · cases hsame
        exact ⟨before ++ gap, spelled, behind, by simp, rfl, hspelled⟩
      · rcases ih hlater with ⟨front, written, following, hsplit, hplace, hwritten⟩
        refine ⟨front, written, following, ?_, hplace, hwritten⟩
        rw [← hsplit]
        simp

theorem Scanned.exists_behind {before rest : List Char} {found : List (Position × α)}
    (h : Scanned Spells before rest found) :
    ∀ item ∈ found, ∃ gap, item.1 = Position.start.behind (before ++ gap) := by
  induction h with
  | done _ => exact List.forall_mem_nil _
  | found _ _ _ ih =>
      rename_i before gap spelled _ _ _ _ _ _
      rw [List.forall_mem_cons]
      refine ⟨⟨gap, rfl⟩, ?_⟩
      intro item hitem
      rcases ih item hitem with ⟨later, hlater⟩
      refine ⟨gap ++ spelled ++ later, ?_⟩
      rw [hlater]
      simp

theorem Scanned.pairwise_before (hnonempty : ∀ item spelled, Spells item spelled → spelled ≠ [])
    {before rest : List Char} {found : List (Position × α)} (h : Scanned Spells before rest found) :
    found.Pairwise fun a b => a.1.Before b.1 := by
  induction h with
  | done _ => exact .nil
  | found _ hspelled hmore ih =>
      rw [List.pairwise_cons]
      refine ⟨?_, ih⟩
      intro item hitem
      rcases hmore.exists_behind item hitem with ⟨later, hlater⟩
      rw [hlater, List.append_assoc _ _ later, Position.behind_append (b := _ ++ later)]
      apply Position.before_behind
      exact List.append_ne_nil_of_left_ne_nil (hnonempty _ _ hspelled) later

/-- Every text can be scanned. -/
theorem exists_scanned (hnonempty : ∀ item spelled, Spells item spelled → spelled ≠ [])
    (before text : List Char) : ∃ found, Scanned Spells before text found := by
  -- On the length, since a construct is left behind as a whole.
  induction hlength : text.length using Nat.strongRecOn generalizing before text with
  | ind size ih =>
      cases text with
      | nil => exact ⟨[], .done (silent_nil [])⟩
      | cons c rest =>
          by_cases hstarts : Starts Spells (c :: rest)
          · rcases hstarts with ⟨item, spelled, behind, hsplit, hspelled⟩
            have hshorter : behind.length < size := by
              rw [← hlength, hsplit, List.length_append]
              have := List.length_pos_iff.mpr (hnonempty item spelled hspelled)
              omega
            rcases ih behind.length hshorter (before ++ [] ++ spelled) behind rfl with ⟨more, hmore⟩
            rw [hsplit]
            exact ⟨_, .found (silent_nil _) hspelled hmore⟩
          · have hshorter : rest.length < size := by
              rw [← hlength]
              exact Nat.lt_succ_self _
            rcases ih rest.length hshorter (before ++ [c]) rest rfl with ⟨found, hfound⟩
            exact ⟨found, hfound.cons hstarts⟩

end

/-!
## Finding by recognition
-/

structure Recognises {α : Type} (recognise : List Char → Option (α × Nat))
    (Spells : α → List Char → Prop) : Prop where
  eq_some_iff : ∀ {text item size}, recognise text = some (item, size) ↔
    ∃ spelled behind, text = spelled ++ behind ∧ size = spelled.length ∧ Spells item spelled
  nonempty : ∀ {item spelled}, Spells item spelled → spelled ≠ []

section
variable {α : Type} {recognise : List Char → Option (α × Nat)} {Spells : α → List Char → Prop}

theorem Recognises.eq_none_iff (h : Recognises recognise Spells) {text : List Char} :
    recognise text = none ↔ ¬Starts Spells text := by
  rw [Option.eq_none_iff_forall_ne_some]
  constructor
  · rintro hnone ⟨item, spelled, behind, hsplit, hspelled⟩
    exact hnone _ (h.eq_some_iff.mpr ⟨spelled, behind, hsplit, rfl, hspelled⟩)
  · rintro hnone ⟨item, size⟩ hsome
    rcases h.eq_some_iff.mp hsome with ⟨spelled, behind, hsplit, _, hspelled⟩
    exact hnone ⟨item, spelled, behind, hsplit, hspelled⟩

theorem occurrencesFrom_skip (skipped : List Char) (p : Position) (rest : List Char) :
    occurrencesFrom recognise skipped.length p (skipped ++ rest) =
      occurrencesFrom recognise 0 (p.behind skipped) rest := by
  induction skipped generalizing p with
  | nil => rfl
  | cons c skipped ih => exact ih (p.after c)

theorem Recognises.occurrencesFrom_silent (h : Recognises recognise Spells) {gap behind : List Char}
    (hsilent : Silent Spells gap behind) (p : Position) :
    occurrencesFrom recognise 0 p (gap ++ behind) =
      occurrencesFrom recognise 0 (p.behind gap) behind := by
  induction gap generalizing p with
  | nil => rfl
  | cons c gap ih =>
      rcases silent_cons.mp hsilent with ⟨hfirst, hrest⟩
      rw [List.cons_append, occurrencesFrom, h.eq_none_iff.mpr hfirst]
      exact ih hrest (p.after c)

theorem Recognises.occurrencesFrom_spelled (h : Recognises recognise Spells) {item : α}
    {spelled : List Char} (hspelled : Spells item spelled) (p : Position) (behind : List Char) :
    occurrencesFrom recognise 0 p (spelled ++ behind) =
      (p, item) :: occurrencesFrom recognise 0 (p.behind spelled) behind := by
  have hsome : recognise (spelled ++ behind) = some (item, spelled.length) :=
    h.eq_some_iff.mpr ⟨spelled, behind, rfl, rfl, hspelled⟩
  cases spelled with
  | nil => exact absurd rfl (h.nonempty hspelled)
  | cons c inner =>
      rw [List.cons_append] at hsome ⊢
      rw [occurrencesFrom, hsome]
      exact congrArg _ (occurrencesFrom_skip inner (p.after c) behind)

theorem Recognises.occurrences_of_scanned (h : Recognises recognise Spells)
    {before rest : List Char} {found : List (Position × α)}
    (hscanned : Scanned Spells before rest found) :
    occurrencesFrom recognise 0 (Position.start.behind before) rest = found := by
  induction hscanned with
  | done silent =>
      rename_i before rest
      have hrest := h.occurrencesFrom_silent silent (Position.start.behind before)
      rw [List.append_nil] at hrest
      rw [hrest, occurrencesFrom]
  | found silent hspelled hmore ih =>
      rw [List.append_assoc, h.occurrencesFrom_silent silent, h.occurrencesFrom_spelled hspelled,
        ← Position.behind_append, ← Position.behind_append, ih]

/-- What is found by recognition is what a scan of the text finds. -/
theorem Recognises.scanned_iff (h : Recognises recognise Spells) {text : List Char}
    {found : List (Position × α)} :
    Scanned Spells [] text found ↔ found = occurrences recognise text := by
  constructor
  · intro hscanned
    exact (h.occurrences_of_scanned hscanned).symm
  · rintro rfl
    rcases exists_scanned (fun _ _ => h.nonempty) [] text with ⟨found, hscanned⟩
    have hfound : occurrences recognise text = found := h.occurrences_of_scanned hscanned
    rw [hfound]
    exact hscanned

theorem map_snd_occurrencesFrom (skip : Nat) (p q : Position) (text : List Char) :
    (occurrencesFrom recognise skip p text).map Prod.snd =
      (occurrencesFrom recognise skip q text).map Prod.snd := by
  induction text generalizing skip p q with
  | nil => cases skip <;> rfl
  | cons c rest ih =>
      cases skip with
      | succ skip => exact ih skip (p.after c) (q.after c)
      | zero =>
          rw [occurrencesFrom, occurrencesFrom]
          cases recognise (c :: rest) with
          | none => exact ih 0 (p.after c) (q.after c)
          | some found =>
              exact congrArg (List.cons found.1) (ih (found.2 - 1) (p.after c) (q.after c))

theorem exists_mem_occurrences {p place : Position} {text : List Char} {item : α}
    (h : (place, item) ∈ occurrencesFrom recognise 0 p text) :
    ∃ other, (other, item) ∈ occurrences recognise text := by
  have hitem : item ∈ (occurrences recognise text).map Prod.snd := by
    rw [occurrences, map_snd_occurrencesFrom 0 Position.start p]
    exact List.mem_map_of_mem h
  rcases List.mem_map.mp hitem with ⟨⟨other, found⟩, hfound, rfl⟩
  exact ⟨other, hfound⟩

def Apart (Spells : α → List Char → Prop) (front behind : List Char) : Prop :=
  ∀ outer inner, front = outer ++ inner → inner ≠ [] →
    ∀ item spelled, Spells item spelled → spelled <+: inner ++ behind → spelled <+: inner

theorem Apart.of_cons {c : Char} {front behind : List Char}
    (h : Apart Spells (c :: front) behind) : Apart Spells front behind := by
  intro outer inner hsplit
  exact h (c :: outer) inner (congrArg _ hsplit)

/-- A text is searched up to a place into which no construct reaches, and then behind it. -/
theorem Recognises.occurrencesFrom_append (h : Recognises recognise Spells)
    {front behind : List Char} (hapart : Apart Spells front behind) {skip : Nat}
    (hskip : skip ≤ front.length) (p : Position) :
    occurrencesFrom recognise skip p (front ++ behind) =
      occurrencesFrom recognise skip p front ++
        occurrencesFrom recognise 0 (p.behind front) behind := by
  induction front generalizing skip p with
  | nil =>
      cases Nat.le_zero.mp hskip
      rfl
  | cons c front ih =>
      cases skip with
      | succ skip => exact ih hapart.of_cons (Nat.le_of_succ_le_succ hskip) (p.after c)
      | zero =>
          rw [List.cons_append, occurrencesFrom, occurrencesFrom, ← List.cons_append]
          cases hfound : recognise (c :: front) with
          | none =>
              have hnone : recognise (c :: front ++ behind) = none := by
                rw [h.eq_none_iff] at hfound ⊢
                rintro ⟨item, spelled, rest, hsplit, hspelled⟩
                have hinside := hapart [] (c :: front) rfl (List.cons_ne_nil _ _) item spelled
                  hspelled ⟨rest, hsplit.symm⟩
                rcases hinside with ⟨inner, hinner⟩
                exact hfound ⟨item, spelled, inner, hinner.symm, hspelled⟩
              rw [hnone]
              exact ih hapart.of_cons (Nat.zero_le _) (p.after c)
          | some found =>
              rcases found with ⟨item, size⟩
              rcases h.eq_some_iff.mp hfound with ⟨spelled, rest, hsplit, hsize, hspelled⟩
              have hsome : recognise (c :: front ++ behind) = some (item, size) := by
                rw [h.eq_some_iff, hsplit, List.append_assoc]
                exact ⟨spelled, rest ++ behind, rfl, hsize, hspelled⟩
              have hlength := congrArg List.length hsplit
              rw [List.length_cons, List.length_append, ← hsize] at hlength
              rw [hsome]
              exact congrArg (List.cons (p, item)) (ih hapart.of_cons (by omega) (p.after c))

end

end Text
end StencilDesk
