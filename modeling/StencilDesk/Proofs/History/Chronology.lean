import Mathlib.Data.List.Perm.Basic
import StencilDesk.Proofs.History.Archive
import StencilDesk.Proofs.History.DateOrder

/-!
# The order of serials is the order of saves

As long as the dates at which a stencil is saved do not go back and stay in one century, every save
gets a later serial than all saves before it, and a date runs out of serials with its twenty-sixth
save, not before.
-/

namespace StencilDesk
namespace Store

/-!
## The parts of a run
-/

section
variable {root : Location} {id : String} {directory : Directory}

theorem saveAll_append (directory : Directory) (before after : List SaveCall) :
    saveAll root directory (before ++ after) =
      ((saveAll root (saveAll root directory before).1 after).1,
        (saveAll root directory before).2 ++
          (saveAll root (saveAll root directory before).1 after).2) := by
  induction before generalizing directory with
  | nil => rfl
  | cons call rest ih =>
      rw [List.cons_append, saveAll, saveAll]
      simp only [ih, List.cons_append]

theorem savedVersions_append (before after : List (SaveCall × Except StoreFault SaveAnswer)) :
    savedVersions id (before ++ after) = savedVersions id before ++ savedVersions id after :=
  List.filterMap_append

theorem saveAll_concat (directory : Directory) (before : List SaveCall) (call : SaveCall) :
    saveAll root directory (before ++ [call]) =
      ((save root call.request call.now (saveAll root directory before).1).1,
        (saveAll root directory before).2 ++
          [(call, (save root call.request call.now (saveAll root directory before).1).2)]) := by
  rw [saveAll_append]
  rfl

theorem savedVersions_singleton (answer : SaveCall × Except StoreFault SaveAnswer) :
    savedVersions id [answer] = (savedVersion? id answer).toList := by
  unfold savedVersions
  cases h : savedVersion? id answer with
  | none => rw [List.filterMap_cons_none h]; rfl
  | some version => rw [List.filterMap_cons_some h]; rfl

theorem saveAll_split {calls : List SaveCall}
    {before after : List (SaveCall × Except StoreFault SaveAnswer)} {call : SaveCall}
    {answer : Except StoreFault SaveAnswer}
    (h : (saveAll root directory calls).2 = before ++ (call, answer) :: after) :
    ∃ earlier later, calls = earlier ++ call :: later ∧
      (saveAll root directory earlier).2 = before ∧
      (save root call.request call.now (saveAll root directory earlier).1).2 = answer := by
  induction calls generalizing directory before with
  | nil => simp [saveAll] at h
  | cons first rest ih =>
      rw [saveAll] at h
      cases before with
      | nil =>
          rw [List.nil_append, List.cons.injEq, Prod.mk.injEq] at h
          rcases h with ⟨⟨hcall, hanswer⟩, _⟩
          refine ⟨[], rest, by rw [hcall]; rfl, rfl, ?_⟩
          rw [← hcall]
          exact hanswer
      | cons pair before =>
          rw [List.cons_append, List.cons.injEq] at h
          rcases ih h.2 with ⟨earlier, later, hcalls, hbefore, hanswer⟩
          refine ⟨first :: earlier, later, by rw [hcalls]; rfl, ?_, hanswer⟩
          rw [← h.1, ← hbefore]
          rfl

theorem createdAt_of_savedVersion? {call : SaveCall} {answer : Except StoreFault SaveAnswer}
    {version : Snapshot} (h : savedVersion? id (call, answer) = some version) :
    version.createdAt = call.now := by
  unfold savedVersion? at h
  split at h
  · split at h
    · rename_i hpair _
      cases hpair
      cases h
      rfl
    · cases h
  · cases h

theorem exists_call_of_saved {calls : List SaveCall} {version : Snapshot}
    (h : version ∈ savedVersions id (saveAll root directory calls).2) :
    ∃ call ∈ calls, version.createdAt = call.now := by
  rcases List.mem_filterMap.mp h with ⟨⟨call, answer⟩, hmem, hsaved⟩
  rcases List.append_of_mem hmem with ⟨before, after, hsplit⟩
  rcases saveAll_split hsplit with ⟨earlier, later, hcalls, _⟩
  refine ⟨call, ?_, createdAt_of_savedVersion? hsaved⟩
  rw [hcalls]
  exact List.mem_append_right _ List.mem_cons_self
end

/-!
## The log as a chronicle
-/

/-- Holds if the folder of a stencil keeps a log whose serials are the dates of its versions, each
with the first letters, in ascending order. -/
structure Chronicle (root : Location) (id : String) (directory : Directory)
    (log : List Snapshot) : Prop where
  clear : Clear root directory
  keeps : Keeps root id directory log
  dated : ∀ version ∈ log, version.serial.date = Serial.datePrefix version.createdAt.date
  counted : Serial.Counted (log.map Snapshot.serial)
  ascending : (log.map Snapshot.serial).Pairwise fun a b => a.text < b.text

/-- Holds if a time is on the last date of a log or a later one of the same century. -/
def Continues (log : List Snapshot) (now : Timestamp) : Prop :=
  ∀ version ∈ log, version.createdAt.date.isValid = true ∧
    version.createdAt.date.year / 100 = now.date.year / 100 ∧
    ¬now.date.Before version.createdAt.date

def savesOn (log : List Snapshot) (date : Date) : Nat :=
  log.countP fun version => version.createdAt.date == date

inductive Answered (log : List Snapshot) (call : SaveCall) :
    Except StoreFault SaveAnswer → Prop where
  | saved {serial : Serial} (hdate : serial.date = Serial.datePrefix call.now.date)
      (hletter : serial.letter.toNat = 65 + savesOn log call.now.date)
      (hlater : ∀ version ∈ log, version.serial.text < serial.text)
      (hleft : savesOn log call.now.date < 26) :
      Answered log call (.ok ⟨serial, true⟩)
  | exhausted (hfull : savesOn log call.now.date = 26) :
      Answered log call
        (.error (.invalidSerial (.exhausted (String.ofList (Serial.datePrefix call.now.date)))))
  | refused {fault : StoreFault}
      (hchecks : Bundle.isStencilId call.request.stencilId = true →
        Bundle.accept call.request.stencilId call.request.files ≠ .ok ()) :
      Answered log call (.error fault)

section
variable {root : Location} {id : String} {directory : Directory} {log : List Snapshot}
  {call : SaveCall}

theorem date_eq_iff_of_continues (h : Chronicle root id directory log) {now : Timestamp}
    (hvalid : now.date.isValid = true) (hnow : Continues log now) {version : Snapshot}
    (hmem : version ∈ log) :
    version.serial.date = Serial.datePrefix now.date ↔ version.createdAt.date = now.date := by
  rcases hnow version hmem with ⟨hold, hcentury, _⟩
  rw [h.dated version hmem]
  exact Serial.datePrefix_eq_iff hold hvalid hcentury

theorem countP_serials (h : Chronicle root id directory log) {now : Timestamp}
    (hvalid : now.date.isValid = true) (hnow : Continues log now) :
    (log.map Snapshot.serial).countP (fun serial => serial.date == Serial.datePrefix now.date) =
      savesOn log now.date := by
  rw [List.countP_map]
  apply List.countP_congr
  intro version hmem
  rw [Function.comp_apply, beq_iff_eq, beq_iff_eq]
  exact date_eq_iff_of_continues h hvalid hnow hmem

theorem lt_of_continues (h : Chronicle root id directory log) {now : Timestamp}
    (hvalid : now.date.isValid = true) (hnow : Continues log now) {serial : Serial}
    (hdate : serial.date = Serial.datePrefix now.date)
    (hletter : serial.letter.toNat = 65 + savesOn log now.date) {version : Snapshot}
    (hmem : version ∈ log) : version.serial.text < serial.text := by
  rcases hnow version hmem with ⟨hold, hcentury, hback⟩
  rcases Date.eq_or_before_of_not_before hback with hsame | hbefore
  · have hserial := (date_eq_iff_of_continues h hvalid hnow hmem).mpr hsame
    have hbounds := (h.counted (Serial.datePrefix now.date) version.serial.letter.toNat).mp
      ⟨version.serial, List.mem_map_of_mem hmem, hserial, rfl⟩
    rw [countP_serials h hvalid hnow] at hbounds
    apply Serial.text_lt_of_letter_lt (hserial.trans hdate.symm)
    rw [hletter]
    exact hbounds.2
  · apply Serial.text_lt_of_date_lt
    rw [hdate, h.dated version hmem]
    exact Serial.datePrefix_lt hold hvalid hcentury hbefore

theorem Chronicle.next (h : Chronicle root id directory log) {now : Timestamp}
    (hvalid : now.date.isValid = true) (hnow : Continues log now) {existing : List Serial}
    (hexisting : ∀ serial, serial ∈ existing ↔ serial ∈ log.map Snapshot.serial) :
    (∃ serial, Serial.next now.date existing = .ok serial ∧
        serial.date = Serial.datePrefix now.date ∧
        serial.letter.toNat = 65 + savesOn log now.date ∧ savesOn log now.date < 26) ∨
      Serial.next now.date existing =
          .error (.exhausted (String.ofList (Serial.datePrefix now.date))) ∧
        savesOn log now.date = 26 := by
  have hlettered := (h.counted (Serial.datePrefix now.date)).congr hexisting
  rw [countP_serials h hvalid hnow] at hlettered
  exact Serial.next_of_lettered hlettered

theorem Chronicle.answered (h : Chronicle root call.request.stencilId directory log)
    (htime : call.now.Expressible) (hnow : Continues log call.now) :
    Answered log call (save root call.request call.now directory).2 := by
  have houtcome := h.keeps.outcome htime
  generalize Store.save root call.request call.now directory = result at houtcome ⊢
  cases houtcome with
  | refused hprepare =>
      apply Answered.refused
      intro hid haccept
      rcases h.keeps.exists_prepare h.clear hid haccept with ⟨prepared, hprepared⟩
      rw [hprepare] at hprepared
      cases hprepared
  | exhausted hprepare hexhausted =>
      rcases h.next htime.date_valid hnow
        (fun _ => (h.keeps.prepare hprepare).mem_serials_iff) with
        ⟨serial, hnext, _⟩ | ⟨hnext, hfull⟩
      · rw [hexhausted] at hnext
        cases hnext
      · rw [hexhausted] at hnext
        cases hnext
        exact .exhausted hfull
  | saved hprepare hsaved _ =>
      rcases h.next htime.date_valid hnow
        (fun _ => (h.keeps.prepare hprepare).mem_serials_iff) with
        ⟨serial, hnext, hdate, hletter, hleft⟩ | ⟨hnext, _⟩
      · rw [hsaved] at hnext
        cases hnext
        apply Answered.saved hdate hletter _ hleft
        intro version hmem
        exact lt_of_continues h htime.date_valid hnow hdate hletter hmem
      · rw [hsaved] at hnext
        cases hnext

theorem Chronicle.save (h : Chronicle root call.request.stencilId directory log)
    (htime : call.now.Expressible) (hnow : Continues log call.now) :
    Chronicle root call.request.stencilId (save root call.request call.now directory).1
      (log ++ (savedVersion? call.request.stencilId
        (call, (save root call.request call.now directory).2)).toList) := by
  have hanswered := h.answered htime hnow
  have hclear := h.clear.save h.keeps htime
  rcases h.keeps.save htime with ⟨fault, hrefused, hkept⟩ | ⟨serial, hsaved, hkept⟩
  · rw [hrefused, savedVersion?_error, Option.toList_none, List.append_nil]
    exact ⟨hclear, hkept, h.dated, h.counted, h.ascending⟩
  · rw [hsaved] at hanswered ⊢
    rw [savedVersion?_ok, Option.toList_some]
    cases hanswered with
    | saved hdate hletter hlater hleft =>
        refine ⟨hclear, hkept, ?_, ?_, ?_⟩
        · rw [List.forall_mem_append, List.forall_mem_singleton]
          exact ⟨h.dated, hdate⟩
        · rw [List.map_append, List.map_singleton]
          apply h.counted.append
          rw [serial_requestedVersion, hdate, countP_serials h htime.date_valid hnow]
          exact hletter
        · rw [List.map_append, List.map_singleton, List.pairwise_append]
          refine ⟨h.ascending, List.pairwise_singleton _ _, ?_⟩
          intro old hold new hnew
          rcases List.mem_map.mp hold with ⟨version, hmem, hserial⟩
          rw [List.mem_singleton.mp hnew, ← hserial]
          exact hlater version hmem

theorem Chronicle.history {before : List Snapshot} {last : Snapshot}
    (h : Chronicle root id directory (before ++ [last])) :
    Store.history directory root id = .ok (before.map retired ++ [last]).reverse := by
  have hlast : last ∈ before ++ [last] := List.mem_append_right _ List.mem_cons_self
  rcases h.keeps.serves.history with ⟨versions, hhistory, hdescending, hperm, _⟩
  have hserials : (before.map retired ++ [last]).map Snapshot.serial =
      (before ++ [last]).map Snapshot.serial := by
    rw [List.map_append, List.map_append, List.map_map]
    rfl
  have hreversed : (before.map retired ++ [last]).reverse.Pairwise
      fun a b => b.serial.text < a.serial.text := by
    have hascending := h.ascending
    rw [← hserials, List.pairwise_map] at hascending
    exact List.pairwise_reverse.mpr hascending
  rw [hhistory]
  congr 1
  apply List.Perm.eq_of_pairwise _ hdescending hreversed
  · exact hperm.trans (List.reverse_perm _).symm
  · intro a b _ _ hab hba
    exact absurd (String.lt_trans hab hba) (String.lt_irrefl _)

/-!
## Runs of saves
-/

/-- Holds of saves of one stencil, at times of one century whose dates do not go back. -/
structure Forward (id : String) (century : Int) (calls : List SaveCall) : Prop where
  stencil : ∀ call ∈ calls, call.request.stencilId = id
  expressible : ∀ call ∈ calls, call.now.Expressible
  century : ∀ call ∈ calls, call.now.date.year / 100 = century
  dates : calls.Pairwise fun earlier later => ¬later.now.date.Before earlier.now.date

variable {century : Int} {before after calls : List SaveCall}

theorem Forward.left (h : Forward id century (before ++ after)) : Forward id century before := by
  constructor
  · intro call hmem
    exact h.stencil call (List.mem_append_left _ hmem)
  · intro call hmem
    exact h.expressible call (List.mem_append_left _ hmem)
  · intro call hmem
    exact h.century call (List.mem_append_left _ hmem)
  · exact (List.pairwise_append.mp h.dates).1

theorem Forward.continues (h : Forward id century (before ++ call :: after)) :
    Continues (savedVersions id (saveAll root directory before).2) call.now := by
  intro version hmem
  rcases exists_call_of_saved hmem with ⟨earlier, hearlier, htime⟩
  have hcall : call ∈ before ++ call :: after := List.mem_append_right _ List.mem_cons_self
  have hold := List.mem_append_left (call :: after) hearlier
  rw [htime, h.century call hcall]
  refine ⟨(h.expressible earlier hold).date_valid, h.century earlier hold, ?_⟩
  exact (List.pairwise_append.mp h.dates).2.2 earlier hearlier call List.mem_cons_self

theorem chronicle_saveAll (hclear : Clear root directory) (hempty : Keeps root id directory [])
    (hcalls : Forward id century calls) :
    Chronicle root id (saveAll root directory calls).1
      (savedVersions id (saveAll root directory calls).2) := by
  -- From the end of the run, so that what the calls before the last one saved is known.
  induction calls using List.reverseRecOn with
  | nil =>
      refine ⟨hclear, hempty, ?_, Serial.counted_nil, .nil⟩
      intro version hmem
      cases hmem
  | append_singleton before call ih =>
      have hstencil := hcalls.stencil call (List.mem_append_right _ List.mem_cons_self)
      have htime := hcalls.expressible call (List.mem_append_right _ List.mem_cons_self)
      have hbefore := ih hcalls.left
      have hnow : Continues (savedVersions id (saveAll root directory before).2) call.now :=
        hcalls.continues
      rw [saveAll_concat, savedVersions_append, savedVersions_singleton]
      rw [← hstencil] at hbefore hnow ⊢
      exact hbefore.save htime hnow

/-- While the dates do not go back, every save gets a serial of its date that is later than all
before, so that the history is the run from its end; and a save that passes its checks fails if and
only if twenty-six saves of its date have succeeded. -/
theorem saveAll_chronological (hclear : Clear root directory)
    (hempty : Keeps root id directory []) (hcalls : Forward id century calls) :
    (∀ before call answer after,
      (saveAll root directory calls).2 = before ++ (call, .ok answer) :: after →
        Serial.ofText answer.serial.text = .ok answer.serial ∧
        answer.serial.text.toList.take 6 = Serial.datePrefix call.now.date ∧
        ∀ version ∈ savedVersions id before, version.serial.text < answer.serial.text) ∧
    (∀ before last, savedVersions id (saveAll root directory calls).2 = before ++ [last] →
      history (saveAll root directory calls).1 root id =
        .ok (before.map retired ++ [last]).reverse) ∧
    (∀ before call answer after,
      (saveAll root directory calls).2 = before ++ (call, answer) :: after →
      Bundle.isStencilId id = true → Bundle.accept id call.request.files = .ok () →
        (answer = .error (.invalidSerial
            (.exhausted (String.ofList (Serial.datePrefix call.now.date)))) ↔
          savesOn (savedVersions id before) call.now.date = 26) ∧
        ((∃ saved, answer = .ok saved) ↔
          savesOn (savedVersions id before) call.now.date < 26)) := by
  have hanswered : ∀ before call answer after,
      (saveAll root directory calls).2 = before ++ (call, answer) :: after →
        call.request.stencilId = id ∧ Answered (savedVersions id before) call answer := by
    intro before call answer after hsplit
    rcases saveAll_split hsplit with ⟨earlier, later, hcallsEq, hbefore, hanswer⟩
    rw [hcallsEq] at hcalls
    have hmem : call ∈ earlier ++ call :: later := List.mem_append_right _ List.mem_cons_self
    have hstencil := hcalls.stencil call hmem
    have hchronicle := chronicle_saveAll hclear hempty hcalls.left
    have hnow : Continues (savedVersions id (saveAll root directory earlier).2) call.now :=
      hcalls.continues
    rw [hbefore] at hchronicle hnow
    rw [← hstencil] at hchronicle hnow ⊢
    rw [← hanswer]
    exact ⟨rfl, hchronicle.answered (hcalls.expressible call hmem) hnow⟩
  constructor
  · intro before call answer after hsplit
    cases (hanswered before call _ after hsplit).2 with
    | saved hdate _ hlater _ => exact ⟨Serial.ofText_text _, hdate, hlater⟩
  constructor
  · intro before last hsaved
    have hchronicle := chronicle_saveAll hclear hempty hcalls
    rw [hsaved] at hchronicle
    exact hchronicle.history
  · intro before call answer after hsplit hid haccept
    rcases hanswered before call answer after hsplit with ⟨hstencil, hanswer⟩
    cases hanswer with
    | saved _ _ _ hleft => simp [hleft, Nat.ne_of_lt hleft]
    | exhausted hfull => simp [hfull]
    | refused hchecks =>
        rw [hstencil] at hchecks
        exact absurd haccept (hchecks hid)
end

def newYearCalls : List SaveCall :=
  [⟨⟨"demo", none, [File.ofPath "/stencil.yml" "a:"], "ann", none⟩,
      ⟨⟨2025, 12, 31⟩, 9, 0, 0, 0, 0⟩⟩,
    ⟨⟨"demo", none, [File.ofPath "/stencil.yml" "b:"], "ben", some "new"⟩,
      ⟨⟨2026, 1, 1⟩, 8, 0, 0, 0, 0⟩⟩]

theorem saveAll_chronological_new_year :
    Clear ["stencils"] {} ∧ Keeps ["stencils"] "demo" {} [] ∧ Forward "demo" 20 newYearCalls ∧
      history (saveAll ["stencils"] {} newYearCalls).1 ["stencils"] "demo" =
        .ok
          [⟨⟨"260101A", rfl⟩, ⟨⟨2026, 1, 1⟩, 8, 0, 0, 0, 0⟩, "ben", true, some "new",
            [File.ofPath "/stencil.yml" "b:"]⟩,
           ⟨⟨"251231A", rfl⟩, ⟨⟨2025, 12, 31⟩, 9, 0, 0, 0, 0⟩, "ann", false, none,
            [File.ofPath "/stencil.yml" "a:"]⟩] := by
  have hvacant := vacant_empty ["stencils"]
  have hcalls : Forward "demo" 20 newYearCalls := by
    constructor
    · decide
    · intro call hmem
      unfold newYearCalls at hmem
      simp only [List.mem_cons, List.not_mem_nil, or_false] at hmem
      rcases hmem with rfl | rfl
      · exact ⟨by decide, by decide, by decide, by decide, by decide, by decide⟩
      · exact ⟨by decide, by decide, by decide, by decide, by decide, by decide⟩
    · decide
    · decide
  refine ⟨hvacant.clear, hvacant.keeps "demo", hcalls, ?_⟩
  have hrun := saveAll_chronological hvacant.clear (hvacant.keeps "demo") hcalls
  apply hrun.2.1
    [⟨⟨"251231A", rfl⟩, ⟨⟨2025, 12, 31⟩, 9, 0, 0, 0, 0⟩, "ann", true, none,
        [File.ofPath "/stencil.yml" "a:"]⟩]
  decide +kernel

end Store
end StencilDesk
