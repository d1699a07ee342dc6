import StencilDesk.Proofs.History.Moves

/-!
# Saves that overlap

Any number of saves of one stencil, whose steps are taken in any order. The serial of a save is
chosen from a listing that may be out of date when its file is created. Still no version is lost:
the file belongs to the save that has created it, the other saves that have chosen the same serial
are rejected, and the active version is one of those that were saved.
-/

namespace StencilDesk
namespace Store

open Directory

structure Overlap where
  directory : Directory
  saves : List (SaveCall × SaveStage)

namespace Overlap

def start (directory : Directory) (calls : List SaveCall) : Overlap :=
  ⟨directory, calls.map fun call => (call, .requested)⟩

def At (overlap : Overlap) (number : Nat) (call : SaveCall) (stage : SaveStage) : Prop :=
  overlap.saves[number]? = some (call, stage)

def put (overlap : Overlap) (number : Nat) (call : SaveCall) (directory : Directory)
    (stage : SaveStage) : Overlap :=
  ⟨directory, overlap.saves.set number (call, stage)⟩

def turn (root : Location) (overlap : Overlap) (number : Nat) : Overlap :=
  match overlap.saves[number]? with
  | some (call, stage) =>
      let (directory, next) := advance root call.request call.now overlap.directory stage
      overlap.put number call directory next
  | none => overlap

/-- The saves take their steps in the order in which their numbers are listed. -/
def run (root : Location) (overlap : Overlap) (schedule : List Nat) : Overlap :=
  schedule.foldl (turn root) overlap

end Overlap

section
variable {root : Location} {id : String} {begun next : Directory} {overlap : Overlap}
  {number other : Nat} {call otherCall : SaveCall} {stage otherStage after : SaveStage}
  {serial : Serial}

/-!
## Turns
-/

theorem turn_cases (root : Location) (overlap : Overlap) (number : Nat) :
    overlap.turn root number = overlap ∧ (∀ call stage, ¬overlap.At number call stage) ∨
      ∃ call stage next after, overlap.At number call stage ∧
        Move root call overlap.directory stage next after ∧
        overlap.turn root number = overlap.put number call next after := by
  unfold Overlap.turn Overlap.At
  cases hsave : overlap.saves[number]? with
  | none => simp
  | some save =>
      rcases save with ⟨call, stage⟩
      exact .inr ⟨call, stage, _, _, rfl, move_advance stage, rfl⟩

theorem Overlap.At.inj (h : overlap.At number call stage)
    (hother : overlap.At number otherCall otherStage) : call = otherCall ∧ stage = otherStage := by
  unfold Overlap.At at h hother
  rw [h, Option.some.injEq, Prod.mk.injEq] at hother
  exact hother

theorem at_put_self (h : overlap.At number call stage) :
    (overlap.put number call next after).At number call after := by
  rcases List.getElem?_eq_some_iff.mp h with ⟨hnumber, _⟩
  exact List.getElem?_set_self hnumber

theorem at_put_of_ne (h : other ≠ number) :
    (overlap.put number call next after).At other otherCall otherStage ↔
      overlap.At other otherCall otherStage := by
  unfold Overlap.At Overlap.put
  rw [List.getElem?_set_ne (Ne.symm h)]

theorem cases_of_put (hsave : overlap.At number call stage)
    (h : (overlap.put number call next after).At other otherCall otherStage) :
    other = number ∧ otherCall = call ∧ otherStage = after ∨
      other ≠ number ∧ overlap.At other otherCall otherStage := by
  by_cases hsame : other = number
  · rw [hsame] at h
    rcases h.inj (at_put_self hsave) with ⟨hcall, hstage⟩
    exact .inl ⟨hsame, hcall, hstage⟩
  · exact .inr ⟨hsame, (at_put_of_ne hsame).mp h⟩

/-!
## What holds while saves overlap
-/

/-- Holds while some saves of a stencil overlap: each of them stands for what it has done, no two of
them hold the same file, and what was there when they began is still there. -/
structure Orderly (root : Location) (id : String) (begun : Directory) (overlap : Overlap) :
    Prop where
  stencil : ∀ number call stage, overlap.At number call stage →
    call.request.stencilId = id
  possible : ∀ number call stage, overlap.At number call stage → call.now.Possible
  stands : ∀ number call stage, overlap.At number call stage →
    Stands root call begun overlap.directory stage
  apart : ∀ number call stage other otherCall otherStage serial,
    overlap.At number call stage →
    overlap.At other otherCall otherStage →
    stage.held? = some serial → otherStage.held? = some serial → number = other
  kept : ∀ serial, begun.item? (versionFile (root ++ [id]) serial) ≠ none →
    overlap.directory.item? (versionFile (root ++ [id]) serial) =
      begun.item? (versionFile (root ++ [id]) serial)
  folder : begun.isFolder (versionsFolder (root ++ [id])) = true →
    overlap.directory.isFolder (versionsFolder (root ++ [id])) = true
  /-- The active version is named as before, or is one of those that were saved. -/
  named : overlap.directory.item? (activeFile (root ++ [id])) =
        begun.item? (activeFile (root ++ [id])) ∧
      (∀ number call stage, overlap.At number call stage → stage.saved? = none) ∨
    ∃ number call serial, overlap.At number call (.finished (.ok serial)) ∧
      overlap.directory.item? (activeFile (root ++ [id])) = some (.file (.text serial.text))

theorem Orderly.start {calls : List SaveCall} (hcalls : ∀ call ∈ calls, call.request.stencilId = id)
    (htimes : ∀ call ∈ calls, call.now.Possible) :
    Orderly root id begun (Overlap.start begun calls) := by
  have hrequested : ∀ number call stage,
      (Overlap.start begun calls).At number call stage →
        call ∈ calls ∧ stage = .requested := by
    intro number call stage hsave
    rcases List.mem_map.mp (List.mem_of_getElem? hsave) with ⟨found, hmem, hpair⟩
    cases hpair
    exact ⟨hmem, rfl⟩
  constructor
  · intro number call stage hsave
    exact hcalls call (hrequested _ _ _ hsave).1
  · intro number call stage hsave
    exact htimes call (hrequested _ _ _ hsave).1
  · intro number call stage hsave
    rw [(hrequested _ _ _ hsave).2]
    exact trivial
  · intro number call stage other otherCall otherStage serial hsave _ hheld
    rw [(hrequested _ _ _ hsave).2] at hheld
    cases hheld
  · intro serial _
    rfl
  · intro hfolder
    exact hfolder
  · left
    refine ⟨rfl, ?_⟩
    intro number call stage hsave
    rw [(hrequested _ _ _ hsave).2]
    rfl

theorem Orderly.opened (h : Orderly root id begun overlap)
    (hsave : overlap.At number call stage) (hheld : stage.held? = some serial) :
    begun.item? (versionFile (root ++ [id]) serial) = none ∧
      overlap.directory.item? (versionFile (root ++ [id]) serial) ≠ none := by
  have hopened := (h.stands number call stage hsave).opened hheld
  rw [← h.stencil number call stage hsave]
  exact ⟨hopened.free, hopened.there⟩

section
variable (h : Orderly root id begun overlap)
  (hsave : overlap.At number call stage)
  (hmove : Move root call overlap.directory stage next after)
include h hsave hmove

theorem Orderly.stands_turn
    (hother : (overlap.put number call next after).At other otherCall otherStage) :
    Stands root otherCall begun next otherStage := by
  have hstencil := h.stencil number call stage hsave
  rcases cases_of_put hsave hother with ⟨_, hcall, hstage⟩ | ⟨hne, hold⟩
  · rw [hcall, hstage]
    apply (h.stands number call stage hsave).move hmove (h.possible number call stage hsave)
    intro serial hbegun
    rw [hstencil] at hbegun ⊢
    rw [h.kept serial hbegun]
    exact hbegun
  · have hsame := h.stencil other otherCall otherStage hold
    have hstands := h.stands other otherCall otherStage hold
    rw [← hstencil] at hsame
    apply hstands.frame
    · rw [hsame]
      exact hmove.isFolder
    -- The save whose turn it is does not hold the file of another save.
    · intro serial hheld
      rw [hsame]
      apply hmove.item?_version
      · rw [hstencil]
        exact (h.opened hold hheld).2
      · intro hmine
        exact hne (h.apart _ _ _ _ _ _ serial hold hsave hheld hmine)

theorem Orderly.eq_of_held (hold : overlap.At other otherCall otherStage)
    (hheld : after.held? = some serial) (hother : otherStage.held? = some serial) :
    number = other := by
  rcases hmove.held? hheld with hmine | hnone
  · exact h.apart _ _ _ _ _ _ serial hsave hold hmine hother
  · rw [h.stencil number call stage hsave] at hnone
    exact absurd hnone (h.opened hold hother).2

theorem Orderly.kept_turn (hbegun : begun.item? (versionFile (root ++ [id]) serial) ≠ none) :
    next.item? (versionFile (root ++ [id]) serial) =
      begun.item? (versionFile (root ++ [id]) serial) := by
  have hkept := h.kept serial hbegun
  rw [← hkept]
  rw [← hkept] at hbegun
  have hstencil := h.stencil number call stage hsave
  rw [← hstencil] at hbegun ⊢
  apply hmove.item?_version hbegun
  intro hheld
  rw [hstencil, hkept] at hbegun
  exact hbegun (h.opened hsave hheld).1

theorem Orderly.named_turn :
    next.item? (activeFile (root ++ [id])) = begun.item? (activeFile (root ++ [id])) ∧
        (∀ other otherCall otherStage,
          (overlap.put number call next after).At other otherCall otherStage →
            otherStage.saved? = none) ∨
      ∃ other otherCall serial,
        (overlap.put number call next after).At other otherCall (.finished (.ok serial)) ∧
        next.item? (activeFile (root ++ [id])) = some (.file (.text serial.text)) := by
  rw [← h.stencil number call stage hsave]
  rcases hmove.active with ⟨hactive, hsaved⟩ | ⟨serial, hsaved, hactive⟩
  · rw [hactive, h.stencil number call stage hsave]
    rcases h.named with ⟨hbegun, hnone⟩ | ⟨other, otherCall, serial, hother, hnamed⟩
    · left
      refine ⟨hbegun, ?_⟩
      intro other otherCall otherStage hset
      rcases cases_of_put hsave hset with ⟨_, _, hstage⟩ | ⟨_, hold⟩
      · rw [hstage, hsaved]
        exact hnone number call stage hsave
      · exact hnone other otherCall otherStage hold
    · right
      refine ⟨other, otherCall, serial, ?_, hnamed⟩
      by_cases hsame : other = number
      -- The save that is named has succeeded already, so its turn changes nothing.
      · rw [hsame] at hother ⊢
        rcases hsave.inj hother with ⟨hcall, hstage⟩
        rw [hstage] at hmove
        rw [← hcall, ← hmove.eq_of_finished]
        exact at_put_self hsave
      · exact (at_put_of_ne hsame).mpr hother
  · right
    refine ⟨number, call, serial, ?_, hactive⟩
    rw [← SaveStage.eq_finished_of_saved? hsaved]
    exact at_put_self hsave
end

/-- Whichever save takes its turn, what holds while saves overlap still holds. -/
theorem Orderly.turn (h : Orderly root id begun overlap) (number : Nat) :
    Orderly root id begun (overlap.turn root number) := by
  rcases turn_cases root overlap number with
    ⟨hturn, _⟩ | ⟨call, stage, next, after, hsave, hmove, hturn⟩
  · rw [hturn]
    exact h
  · rw [hturn]
    constructor
    · intro other otherCall otherStage hother
      rcases cases_of_put hsave hother with ⟨_, hcall, _⟩ | ⟨_, hold⟩
      · rw [hcall]
        exact h.stencil number call stage hsave
      · exact h.stencil other otherCall otherStage hold
    · intro other otherCall otherStage hother
      rcases cases_of_put hsave hother with ⟨_, hcall, _⟩ | ⟨_, hold⟩
      · rw [hcall]
        exact h.possible number call stage hsave
      · exact h.possible other otherCall otherStage hold
    · intro other otherCall otherStage hother
      exact h.stands_turn hsave hmove hother
    · intro a callA stageA b callB stageB serial ha hb hheldA hheldB
      rcases cases_of_put hsave ha with ⟨hna, _, hstageA⟩ | ⟨_, holdA⟩
      · rcases cases_of_put hsave hb with ⟨hnb, _, _⟩ | ⟨_, holdB⟩
        · rw [hna, hnb]
        · rw [hstageA] at hheldA
          rw [hna]
          exact h.eq_of_held hsave hmove holdB hheldA hheldB
      · rcases cases_of_put hsave hb with ⟨hnb, _, hstageB⟩ | ⟨_, holdB⟩
        · rw [hstageB] at hheldB
          rw [hnb]
          exact (h.eq_of_held hsave hmove holdA hheldB hheldA).symm
        · exact h.apart _ _ _ _ _ _ serial holdA holdB hheldA hheldB
    · intro serial hbegun
      exact h.kept_turn hsave hmove hbegun
    · intro hbegun
      have hfolder := h.folder hbegun
      rw [← h.stencil number call stage hsave] at hfolder ⊢
      exact hmove.isFolder hfolder
    · exact h.named_turn hsave hmove

theorem Orderly.run (h : Orderly root id begun overlap) (schedule : List Nat) :
    Orderly root id begun (overlap.run root schedule) := by
  induction schedule generalizing overlap with
  | nil => exact h
  | cons number rest ih => exact ih (h.turn number)

/-!
## The way of one save
-/

theorem run_append (before rest : List Nat) :
    overlap.run root (before ++ rest) = (overlap.run root before).run root rest :=
  List.foldl_append

theorem Overlap.At.turn (h : overlap.At number call stage) (other : Nat) :
    ∃ after, (overlap.turn root other).At number call after ∧
      (other ≠ number ∧ after = stage ∨
        other = number ∧ ∃ next, Move root call overlap.directory stage next after) := by
  rcases turn_cases root overlap other with
    ⟨hturn, hnone⟩ | ⟨otherCall, otherStage, next, after, hother, hmove, hturn⟩
  · rw [hturn]
    refine ⟨stage, h, .inl ⟨?_, rfl⟩⟩
    intro hsame
    rw [hsame] at hnone
    exact hnone call stage h
  · rw [hturn]
    by_cases hsame : other = number
    · rw [hsame] at hother ⊢
      rcases h.inj hother with ⟨hcall, hstage⟩
      rw [hcall, hstage]
      exact ⟨after, at_put_self hother, .inr ⟨rfl, next, hmove⟩⟩
    · exact ⟨stage, (at_put_of_ne (Ne.symm hsame)).mpr h, .inl ⟨hsame, rfl⟩⟩

theorem Overlap.At.run {P : SaveStage → Prop}
    (hkept : ∀ directory stage next after, Move root call directory stage next after →
      P stage → P after)
    (h : overlap.At number call stage) (hstage : P stage) (schedule : List Nat) :
    ∃ last, (overlap.run root schedule).At number call last ∧ P last := by
  induction schedule generalizing overlap stage with
  | nil => exact ⟨stage, h, hstage⟩
  | cons other rest ih =>
      rcases h.turn other with ⟨after, hafter, ⟨_, hsame⟩ | ⟨_, next, hmove⟩⟩
      · rw [hsame] at hafter
        exact ih hafter hstage
      · exact ih hafter (hkept _ _ _ _ hmove hstage)

theorem Overlap.At.finished {outcome : Except StoreFault Serial}
    (h : overlap.At number call (.finished outcome)) (schedule : List Nat) :
    (overlap.run root schedule).At number call (.finished outcome) := by
  have hkept : ∀ directory stage next after, Move root call directory stage next after →
      stage = .finished outcome → after = .finished outcome := by
    intro directory stage next after hmove hstage
    rw [hstage] at hmove
    exact hmove.eq_of_finished
  rcases h.run hkept rfl schedule with ⟨last, hlast, hsame⟩
  rw [hsame] at hlast
  exact hlast

theorem Overlap.At.stepsLeft (h : overlap.At number call stage) (schedule : List Nat) :
    ∃ last, (overlap.run root schedule).At number call last ∧
      last.stepsLeft ≤ stage.stepsLeft - schedule.count number := by
  induction schedule generalizing overlap stage with
  | nil => exact ⟨stage, h, Nat.le_refl _⟩
  | cons other rest ih =>
      rcases h.turn other with ⟨after, hafter, hstep⟩
      rcases ih hafter with ⟨last, hlast, hleft⟩
      refine ⟨last, hlast, ?_⟩
      rcases hstep with ⟨hne, hsame⟩ | ⟨hsame, next, hmove⟩
      · rw [List.count_cons_of_ne hne, ← hsame]
        exact hleft
      · have hmoved := hmove.stepsLeft
        rw [hsame, List.count_cons_self]
        omega

/-- A save that finds the file there that it has chosen is refused. -/
theorem Overlap.At.refused {version : Snapshot} (h : overlap.At number call (.chosen version))
    (hthere : overlap.directory.isOccupied
      (versionFile (root ++ [call.request.stencilId]) version.serial) = true)
    (schedule : List Nat) : ((overlap.turn root number).run root schedule).At number call
      (.finished (.error (savedConcurrently version.serial))) := by
  rcases h.turn number with ⟨after, hturned, ⟨hne, _⟩ | ⟨_, next, hmove⟩⟩
  · exact absurd rfl hne
  · rw [hmove.of_occupied hthere] at hturned
    exact hturned.finished schedule

/-- A step changes no file, if its save is rejected in the end. -/
theorem content?_of_rejected {reason : String} {schedule : List Nat}
    (h : ((overlap.turn root number).run root schedule).At number call
      (.finished (.error (.rejected reason)))) (location : Location) :
    (overlap.turn root number).directory.content? location =
      overlap.directory.content? location := by
  rcases turn_cases root overlap number with
    ⟨hturn, _⟩ | ⟨mover, stage, next, after, hsave, hmove, hturn⟩
  · rw [hturn]
  · have hmoved : (overlap.turn root number).At number mover after := by
      rw [hturn]
      exact at_put_self hsave
    rw [hturn]
    apply hmove.content?
    -- A save that has created a file is not rejected any more.
    intro hpast
    rcases hmoved.run (fun _ _ _ _ hmove => hmove.isPast) hpast schedule with
      ⟨last, hlast, hlastPast⟩
    rw [(hlast.inj h).2] at hlastPast
    rcases hlastPast with hfault | hfault
    · cases hfault
    · cases hfault

theorem at_start_iff {calls : List SaveCall} :
    (Overlap.start begun calls).At number call stage ↔
      calls[number]? = some call ∧ stage = .requested := by
  unfold Overlap.At Overlap.start
  rw [List.getElem?_map, Option.map_eq_some_iff]
  constructor
  · rintro ⟨found, hfound, hpair⟩
    cases hpair
    exact ⟨hfound, rfl⟩
  · rintro ⟨hfound, rfl⟩
    exact ⟨call, hfound, rfl⟩

theorem exists_outcome {calls : List SaveCall} {schedule : List Nat}
    (hcall : calls[number]? = some call) (hcount : stepCount ≤ schedule.count number) :
    ∃ outcome,
      ((Overlap.start begun calls).run root schedule).At number call (.finished outcome) := by
  have hstart : (Overlap.start begun calls).At number call .requested :=
    at_start_iff.mpr ⟨hcall, rfl⟩
  rcases hstart.stepsLeft schedule with ⟨last, hlast, hleft⟩
  cases last with
  | finished outcome => exact ⟨outcome, hlast⟩
  | _ =>
      simp only [SaveStage.stepsLeft, stepCount] at hleft hcount
      omega

theorem exists_at_of_run {schedule : List Nat}
    (h : (overlap.run root schedule).At number call stage) :
    ∃ first, overlap.At number call first := by
  induction schedule generalizing overlap with
  | nil => exact ⟨stage, h⟩
  | cons other rest ih =>
      rcases ih h with ⟨after, hafter⟩
      rcases turn_cases root overlap other with
        ⟨hturn, _⟩ | ⟨otherCall, otherStage, _, _, hother, _, hturn⟩
      · rw [hturn] at hafter
        exact ⟨after, hafter⟩
      · rw [hturn] at hafter
        rcases cases_of_put hother hafter with ⟨hsame, hcall, _⟩ | ⟨_, hold⟩
        · rw [hsame, hcall]
          exact ⟨otherStage, hother⟩
        · exact ⟨after, hold⟩

/-!
## What is read afterwards
-/

theorem namedActive_congr {a b : Directory} {folder : Location}
    (h : a.item? (activeFile folder) = b.item? (activeFile folder)) :
    namedActive a folder = namedActive b folder := by
  unfold namedActive
  rw [h]

theorem snapshot_of_text {directory : Directory} {named : Option Serial} {text : String}
    {version : Snapshot} (hid : Bundle.isStencilId id = true)
    (hfolder : directory.isFolder (versionsFolder (root ++ [id])) = true)
    (hnamed : namedActive directory (root ++ [id]) = .ok named)
    (hitem : directory.item? (versionFile (root ++ [id]) serial) = some (.file (.text text)))
    (hread : Snapshot.ofText? text = some version) :
    ∃ isActive, snapshot directory root id serial = .ok { version with isActive } := by
  rcases snapshot_of_named hid hfolder hnamed serial with ⟨active, hsnapshot⟩
  rw [hsnapshot]
  unfold readVersion
  rw [hitem]
  simp only [hread]
  exact ⟨_, rfl⟩

theorem snapshot_eq_ok {directory : Directory} {version : Snapshot}
    (h : snapshot directory root id serial = .ok version) :
    Bundle.isStencilId id = true ∧
      directory.isFolder (versionsFolder (root ++ [id])) = true ∧
      (∃ named, namedActive directory (root ++ [id]) = .ok named) ∧
      ∃ text stored,
        directory.item? (versionFile (root ++ [id]) serial) = some (.file (.text text)) ∧
        Snapshot.ofText? text = some stored ∧
        { stored with isActive := version.isActive } = version := by
  have hid : Bundle.isStencilId id = true := by
    by_contra hid
    unfold snapshot existingFolder stencilFolder at h
    simp only [hid, bind, Except.bind] at h
    cases h
  have hfolder : directory.isFolder (versionsFolder (root ++ [id])) = true := by
    by_contra hfolder
    rw [snapshot_of_missing hid (Bool.eq_false_iff.mpr hfolder)] at h
    cases h
  refine ⟨hid, hfolder, ?_⟩
  cases hnamed : namedActive directory (root ++ [id]) with
  | error fault =>
      rw [snapshot_of_fault hid hfolder hnamed] at h
      cases h
  | ok named =>
      refine ⟨⟨named, rfl⟩, ?_⟩
      rcases snapshot_of_named hid hfolder hnamed serial with ⟨active, hsnapshot⟩
      rw [hsnapshot] at h
      unfold readVersion at h
      split at h
      · cases h
      · rename_i text hitem
        split at h
        · rename_i stored hread
          cases h
          exact ⟨text, stored, hitem, hread, rfl⟩
        · cases h
      · cases h

theorem Orderly.known (h : Orderly root id begun overlap)
    (hknown : (∃ named, namedActive begun (root ++ [id]) = .ok named) ∨
      ∃ number call serial, overlap.At number call (.finished (.ok serial))) :
    ∃ named, namedActive overlap.directory (root ++ [id]) = .ok named := by
  rcases h.named with ⟨hsame, hnone⟩ | ⟨_, _, last, _, hitem⟩
  · rcases hknown with hbegun | ⟨number, call, serial, hsaved⟩
    · rw [namedActive_congr hsame]
      exact hbegun
    · cases hnone number call _ hsaved
  · exact ⟨some last, namedActive_of_text hitem⟩

theorem Orderly.snapshot (h : Orderly root id begun overlap)
    (hsaved : overlap.At number call (.finished (.ok serial))) :
    ∃ isActive, Store.snapshot overlap.directory root id serial =
      .ok { requestedVersion call.request call.now serial with isActive } := by
  have hstencil := h.stencil number call _ hsaved
  rcases h.stands number call _ hsaved with ⟨hopened, text, hitem, hread⟩
  rcases h.known (.inr ⟨number, call, serial, hsaved⟩) with ⟨named, hnamed⟩
  rw [← hstencil] at hnamed ⊢
  exact snapshot_of_text hopened.valid hopened.folder hnamed hitem hread

/-- What could be read when the saves began can still be read. -/
theorem Orderly.snapshot_begun (h : Orderly root id begun overlap) {version : Snapshot}
    (hbegun : Store.snapshot begun root id serial = .ok version) :
    ∃ isActive, Store.snapshot overlap.directory root id serial =
      .ok { version with isActive } := by
  rcases snapshot_eq_ok hbegun with ⟨hid, hfolder, hknown, text, stored, hitem, hread, hversion⟩
  have hkept := h.kept serial (by rw [hitem]; simp)
  rw [hitem] at hkept
  rcases h.known (.inl hknown) with ⟨named, hnamed⟩
  rcases snapshot_of_text hid (h.folder hfolder) hnamed hkept hread with ⟨isActive, hsnapshot⟩
  refine ⟨isActive, ?_⟩
  rw [hsnapshot, ← hversion]

/-!
## No version is lost
-/

/-- What some saves of a stencil come to, if they take their steps in the order of a schedule. -/
structure Lossless (root : Location) (id : String) (begun : Directory) (calls : List SaveCall)
    (schedule : List Nat) (after : Overlap) : Prop where
  /-- Every call has returned after all its steps. -/
  returned : ∀ number call, calls[number]? = some call → stepCount ≤ schedule.count number →
    ∃ outcome, after.At number call (.finished outcome)
  distinct : ∀ number call other otherCall serial, after.At number call (.finished (.ok serial)) →
    after.At other otherCall (.finished (.ok serial)) → number = other
  /-- A call that finds the file there that it has chosen fails, -/
  refused : ∀ before rest number call version, schedule = before ++ number :: rest →
    ((Overlap.start begun calls).run root before).At number call (.chosen version) →
    ((Overlap.start begun calls).run root before).directory.isOccupied
      (versionFile (root ++ [id]) version.serial) = true →
    after.At number call (.finished (.error (savedConcurrently version.serial)))
  /-- and no step of a call that is rejected changes a file. -/
  untouched : ∀ before rest number call reason, schedule = before ++ number :: rest →
    after.At number call (.finished (.error (.rejected reason))) → ∀ location,
      ((Overlap.start begun calls).run root (before ++ [number])).directory.content? location =
        ((Overlap.start begun calls).run root before).directory.content? location
  /-- A call that succeeds has saved what it was asked to save. -/
  saved : ∀ number call serial, after.At number call (.finished (.ok serial)) →
    calls[number]? = some call ∧ ∃ isActive, snapshot after.directory root id serial =
      .ok { requestedVersion call.request call.now serial with isActive }
  kept : ∀ serial, begun.item? (versionFile (root ++ [id]) serial) ≠ none →
    after.directory.item? (versionFile (root ++ [id]) serial) =
      begun.item? (versionFile (root ++ [id]) serial)
  /-- A version that could be read can still be read; only whether it is active may change. -/
  reread : ∀ serial version, snapshot begun root id serial = .ok version →
    ∃ isActive, snapshot after.directory root id serial = .ok { version with isActive }
  named : ∀ number call serial, after.At number call (.finished (.ok serial)) →
    ∃ other otherCall last, after.At other otherCall (.finished (.ok last)) ∧
      namedActive after.directory (root ++ [id]) = .ok (some last)

/-- Saves of one stencil lose no version, in whatever order they take their steps. -/
theorem lossless_run (begun : Directory) {calls : List SaveCall}
    (hcalls : ∀ call ∈ calls, call.request.stencilId = id)
    (htimes : ∀ call ∈ calls, call.now.Possible) (schedule : List Nat) :
    Lossless root id begun calls schedule ((Overlap.start begun calls).run root schedule) := by
  have hrun : ∀ schedule, Orderly root id begun ((Overlap.start begun calls).run root schedule) :=
    (Orderly.start hcalls htimes).run
  have hafter := hrun schedule
  constructor
  · intro number call hcall hcount
    exact exists_outcome hcall hcount
  · intro number call other otherCall serial hsave hother
    exact hafter.apart _ _ _ _ _ _ serial hsave hother rfl rfl
  · intro before rest number call version hschedule hsave hthere
    rw [← (hrun before).stencil number call _ hsave] at hthere
    rw [hschedule, run_append]
    exact hsave.refused hthere rest
  · intro before rest number call reason hschedule hrejected location
    rw [hschedule, run_append] at hrejected
    rw [run_append]
    exact content?_of_rejected hrejected location
  · intro number call serial hsave
    rcases exists_at_of_run hsave with ⟨first, hfirst⟩
    exact ⟨(at_start_iff.mp hfirst).1, hafter.snapshot hsave⟩
  · exact hafter.kept
  · intro serial version hbegun
    exact hafter.snapshot_begun hbegun
  · intro number call serial hsave
    rcases hafter.named with ⟨_, hnone⟩ | ⟨other, otherCall, last, hother, hitem⟩
    · cases hnone number call _ hsave
    · exact ⟨other, otherCall, last, hother, namedActive_of_text hitem⟩
end

def rivalCalls : List SaveCall :=
  [⟨⟨"demo", none, [File.ofPath "/stencil.yml" "a:"], "ann", none⟩,
      ⟨⟨2025, 9, 13⟩, 10, 0, 0, 0, 0⟩⟩,
    ⟨⟨"demo", none, [File.ofPath "/stencil.yml" "b:"], "ben", none⟩,
      ⟨⟨2025, 9, 13⟩, 10, 0, 0, 0, 0⟩⟩,
    ⟨⟨"demo", none, [File.ofPath "/stencil.yml" "c:"], "cleo", none⟩,
      ⟨⟨2025, 9, 13⟩, 10, 0, 1, 0, 0⟩⟩]

/-- The first two saves take turns, so that both choose the same serial; the third one comes when
the file of the first one is there. -/
def rivalSchedule : List Nat :=
  [0, 1, 0, 1, 0, 1, 0, 1, 2, 2, 2, 2, 2, 2, 0, 0]

theorem lossless_run_rivals :
    (∀ call ∈ rivalCalls, call.request.stencilId = "demo") ∧
      (∀ call ∈ rivalCalls, call.now.Possible) ∧
      Lossless ["stencils"] "demo" {} rivalCalls rivalSchedule
        ((Overlap.start {} rivalCalls).run ["stencils"] rivalSchedule) ∧
      ((Overlap.start {} rivalCalls).run ["stencils"] rivalSchedule).saves.map
          (fun save => save.2.outcome?) =
        [some (.ok ⟨"250913A", rfl⟩), some (.error (savedConcurrently ⟨"250913A", rfl⟩)),
          some (.ok ⟨"250913B", rfl⟩)] := by
  have hcalls : ∀ call ∈ rivalCalls, call.request.stencilId = "demo" := by decide
  have htimes : ∀ call ∈ rivalCalls, call.now.Possible := by
    intro call hmem
    unfold rivalCalls at hmem
    simp only [List.mem_cons, List.not_mem_nil, or_false] at hmem
    rcases hmem with rfl | rfl | rfl
    · exact ⟨by decide, by decide, by decide, by decide, by decide⟩
    · exact ⟨by decide, by decide, by decide, by decide, by decide⟩
    · exact ⟨by decide, by decide, by decide, by decide, by decide⟩
  exact ⟨hcalls, htimes, lossless_run {} hcalls htimes rivalSchedule, by decide +kernel⟩

end Store
end StencilDesk
