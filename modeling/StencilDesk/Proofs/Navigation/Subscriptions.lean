import Mathlib.Data.List.Induction
import Mathlib.Data.List.Nodup
import StencilDesk.Navigation.Keyboard

/-!
# Subscriptions

Over whole runs of a keyboard, ids are given out one by one, and those that are subscribed are at
any time those whose handles are held. Keys reach exactly these, each of them once and in the order
of their subscriptions.
-/

namespace StencilDesk
namespace Keyboard

/-- What can happen to a keyboard. A handle is released if it is dropped or given back, or if the
view that holds it goes away. -/
inductive Event where
  | subscribe
  | mount (tree : TreeNode)
  | dispatch (key : NavigationKey)
  | release (id : Nat)
  | setTree (id : Nat) (tree : TreeNode)
  | takeRequests (id : Nat)
  | dropHub

/-- The keyboard after an event. Without a hub there is nothing to subscribe to, and there are no
keys. -/
def after (k : Keyboard) : Event → Keyboard
  | .subscribe => (k.subscribe? .listener).elim k Prod.snd
  | .mount tree => (k.mount? tree).elim k Prod.snd
  | .dispatch key => (k.dispatch? key).elim k Prod.snd
  | .release id => k.release id
  | .setTree id tree => k.setTree id tree
  | .takeRequests id => (k.takeRequests id).2
  | .dropHub => k.dropHub

def run (k : Keyboard) (events : List Event) : Keyboard :=
  events.foldl after k

def issued? (k : Keyboard) : Event → Option Nat
  | .subscribe => (k.subscribe? .listener).map Prod.fst
  | .mount tree => (k.mount? tree).map Prod.fst
  | _ => none

def issued (k : Keyboard) : List Event → List Nat
  | [] => []
  | event :: rest => (k.issued? event).toList ++ (k.after event).issued rest

def handleIds (k : Keyboard) : List Nat :=
  k.handles.map Prod.fst

def withHandle (k : Keyboard) (hub : KeyboardHub) (subscriber : Subscriber) : Keyboard where
  hub := some { nextId := hub.nextId + 1, subscribers := hub.subscribers ++ [hub.nextId] }
  handles := k.handles ++ [(hub.nextId, subscriber)]

/-- Holds if a handle was given out at one of some events, and was not released later. -/
def Live (events : List Event) (id : Nat) : Prop :=
  ∃ earlier event later, events = earlier ++ event :: later ∧
    (run {} earlier).issued? event = some id ∧ .release id ∉ later

/-- Holds if those that are subscribed are those whose handles are held, the oldest first. -/
structure Attached (k : Keyboard) : Prop where
  ascending : k.handleIds.Pairwise (· < ·)
  subscribers : ∀ hub, k.hub = some hub → hub.subscribers = k.handleIds
  used : ∀ hub, k.hub = some hub → ∀ id ∈ k.handleIds, id < hub.nextId

variable {k next : Keyboard} {id : Nat}

theorem run_append (k : Keyboard) (events more : List Event) :
    k.run (events ++ more) = (k.run events).run more :=
  List.foldl_append

theorem issued_append (k : Keyboard) (events more : List Event) :
    k.issued (events ++ more) = k.issued events ++ (k.run events).issued more := by
  induction events generalizing k with
  | nil => rfl
  | cons event rest ih =>
      rw [List.cons_append, issued, issued, ih, List.append_assoc]
      rfl

/-!
## Handles
-/

theorem subscribe?_of_hub {hub : KeyboardHub} (hhub : k.hub = some hub) (subscriber : Subscriber) :
    k.subscribe? subscriber = some (hub.nextId, k.withHandle hub subscriber) := by
  unfold subscribe?
  rw [hhub]
  rfl

theorem subscribe?_of_none (hhub : k.hub = none) (subscriber : Subscriber) :
    k.subscribe? subscriber = none := by
  unfold subscribe?
  rw [hhub]
  rfl

theorem dispatch?_of_none (hhub : k.hub = none) (key : NavigationKey) :
    k.dispatch? key = none := by
  unfold dispatch?
  rw [hhub]
  rfl

theorem handleIds_withHandle (k : Keyboard) (hub : KeyboardHub) (subscriber : Subscriber) :
    (k.withHandle hub subscriber).handleIds = k.handleIds ++ [hub.nextId] :=
  List.map_append

theorem handleIds_update (k : Keyboard) (id : Nat) (f : Subscriber → Subscriber) :
    (k.update id f).handleIds = k.handleIds := by
  unfold handleIds update
  rw [List.map_map]
  apply List.map_congr_left
  intro handle _
  dsimp only [Function.comp_apply]
  split
  · rfl
  · rfl

theorem handleIds_release (k : Keyboard) (id : Nat) :
    (k.release id).handleIds = k.handleIds.filter (· != id) := by
  unfold handleIds release
  rw [List.filter_map]
  rfl

theorem handleIds_takeRequests (k : Keyboard) (id : Nat) :
    (k.takeRequests id).2.hub = k.hub ∧ (k.takeRequests id).2.handleIds = k.handleIds := by
  unfold takeRequests
  split
  · exact ⟨rfl, rfl⟩
  · exact ⟨rfl, handleIds_update k id _⟩

theorem foldl_update (f : Subscriber → Subscriber) {ids : List Nat} (h : ids.Nodup)
    (k : Keyboard) :
    ids.foldl (fun k id => k.update id f) k =
      { k with
        handles := k.handles.map fun handle =>
          if handle.1 ∈ ids then (handle.1, f handle.2) else handle } := by
  induction ids generalizing k with
  | nil => simp
  | cons id rest ih =>
      rcases List.nodup_cons.mp h with ⟨hfirst, hrest⟩
      rw [List.foldl_cons, ih hrest]
      unfold update
      rw [List.map_map]
      congr 1
      apply List.map_congr_left
      intro handle _
      by_cases hid : handle.1 = id
      · simp [hid, hfirst]
      · simp [hid]

theorem foldl_deliver (key : NavigationKey) (ids done : List Nat) (k : Keyboard) :
    ids.foldl (deliver key) (done, k) =
      (done ++ ids, ids.foldl (fun k id => k.update id (Subscriber.press key)) k) := by
  induction ids generalizing done k with
  | nil => rw [List.append_nil]; rfl
  | cons id rest ih =>
      rw [List.foldl_cons, deliver, ih, List.append_assoc]
      rfl

/-- A key reaches everyone that is subscribed, in the order of the handles. -/
theorem Attached.dispatch?_of_hub (h : k.Attached) {hub : KeyboardHub} (hhub : k.hub = some hub)
    (key : NavigationKey) :
    k.dispatch? key = some (k.handleIds,
      { k with handles := k.handles.map fun handle => (handle.1, handle.2.press key) }) := by
  have hnodup : k.handleIds.Nodup := h.ascending.imp Nat.ne_of_lt
  have hall : (k.handles.map fun handle =>
      if handle.1 ∈ k.handleIds then (handle.1, handle.2.press key) else handle) =
      k.handles.map fun handle => (handle.1, handle.2.press key) := by
    apply List.map_congr_left
    intro handle hmem
    have hheld : handle.1 ∈ k.handleIds := List.mem_map_of_mem hmem
    rw [if_pos hheld]
  unfold dispatch?
  rw [hhub, Option.map_some, h.subscribers hub hhub, foldl_deliver, foldl_update _ hnodup, hall,
    hhub, List.nil_append]

/-!
## What an event changes
-/

inductive Step (k : Keyboard) : Event → Option Nat → Keyboard → Prop where
  | given {event : Event} {hub : KeyboardHub} (hhub : k.hub = some hub)
      (hrelease : ∀ id, event ≠ .release id) (subscriber : Subscriber) :
      Step k event (some hub.nextId) (k.withHandle hub subscriber)
  | released (id : Nat) : Step k (.release id) none (k.release id)
  | hubDropped : Step k .dropHub none k.dropHub
  /-- Only what the holders of the handles have of it changes. -/
  | kept {event : Event} {next : Keyboard} (hrelease : ∀ id, event ≠ .release id)
      (hhub : next.hub = k.hub) (hids : next.handleIds = k.handleIds) : Step k event none next

theorem step_subscribe? {event : Event} (hrelease : ∀ id, event ≠ .release id)
    (subscriber : Subscriber) :
    k.Step event ((k.subscribe? subscriber).map Prod.fst)
      ((k.subscribe? subscriber).elim k Prod.snd) := by
  cases hhub : k.hub with
  | none =>
      rw [subscribe?_of_none hhub]
      exact .kept hrelease rfl rfl
  | some hub =>
      rw [subscribe?_of_hub hhub]
      exact .given hhub hrelease subscriber

theorem Attached.step_dispatch (h : k.Attached) (key : NavigationKey) :
    k.Step (.dispatch key) none ((k.dispatch? key).elim k Prod.snd) := by
  cases hhub : k.hub with
  | none =>
      rw [dispatch?_of_none hhub]
      exact .kept (by simp) rfl rfl
  | some hub =>
      rw [h.dispatch?_of_hub hhub]
      refine .kept (by simp) rfl ?_
      simp [handleIds]

theorem Attached.step (h : k.Attached) (event : Event) :
    k.Step event (k.issued? event) (k.after event) := by
  cases event with
  | subscribe => exact step_subscribe? (by simp) .listener
  | mount tree => exact step_subscribe? (by simp) (.view (TreeView.ofTree tree))
  | dispatch key => exact h.step_dispatch key
  | release id => exact .released id
  | setTree id tree => exact .kept (by simp) rfl (handleIds_update k id _)
  | takeRequests id =>
      exact .kept (by simp) (handleIds_takeRequests k id).1 (handleIds_takeRequests k id).2
  | dropHub => exact .hubDropped

section
variable {event : Event} {given : Option Nat}

theorem Step.mem_handleIds_iff (h : k.Step event given next) :
    id ∈ next.handleIds ↔ given = some id ∨ id ∈ k.handleIds ∧ event ≠ .release id := by
  cases h with
  | given _ hrelease _ =>
      rw [handleIds_withHandle, List.mem_append, List.mem_singleton, or_comm, Option.some_inj,
        and_iff_left (hrelease id), eq_comm]
  | released other =>
      rw [handleIds_release, List.mem_filter, bne_iff_ne, ne_eq, ne_eq, Event.release.injEq,
        eq_comm (a := id)]
      exact ⟨.inr, fun hheld => hheld.resolve_left (Option.some_ne_none id).symm⟩
  | hubDropped => simp [handleIds, dropHub]
  | kept hrelease _ hids => simp [hids, hrelease]

theorem Attached.after_step (h : k.Attached) (hstep : k.Step event given next) :
    next.Attached := by
  cases hstep with
  | @given _ hub hhub _ subscriber =>
      constructor
      · rw [handleIds_withHandle, List.pairwise_append]
        exact ⟨h.ascending, List.pairwise_singleton _ _, by simpa using h.used hub hhub⟩
      · rintro _ ⟨⟩
        rw [handleIds_withHandle, h.subscribers hub hhub]
      · rintro _ ⟨⟩ id hmem
        rw [handleIds_withHandle, List.mem_append, List.mem_singleton] at hmem
        rcases hmem with hold | hnew
        · exact Nat.lt_succ_of_lt (h.used hub hhub id hold)
        · exact Nat.lt_succ_of_le (Nat.le_of_eq hnew)
  | released id =>
      have hids := handleIds_release k id
      constructor
      · rw [hids]
        exact h.ascending.filter _
      · intro hub hhub
        rcases Option.map_eq_some_iff.mp hhub with ⟨old, hold, hnew⟩
        rw [← hnew, hids, ← h.subscribers old hold]
      · intro hub hhub other hmem
        rcases Option.map_eq_some_iff.mp hhub with ⟨old, hold, hnew⟩
        rw [hids] at hmem
        rw [← hnew]
        exact h.used old hold other (List.mem_of_mem_filter hmem)
  | hubDropped => exact ⟨h.ascending, by rintro _ ⟨⟩, by rintro _ ⟨⟩⟩
  | kept _ hhub hids =>
      constructor
      · rw [hids]
        exact h.ascending
      · rw [hhub, hids]
        exact h.subscribers
      · rw [hhub, hids]
        exact h.used

theorem Step.of_none (h : k.Step event given next) (hhub : k.hub = none) :
    given = none ∧ next.hub = none := by
  cases h with
  | given hsome _ _ =>
      rw [hhub] at hsome
      cases hsome
  | released id => exact ⟨rfl, by rw [release, hhub]; rfl⟩
  | hubDropped => exact ⟨rfl, rfl⟩
  | kept _ hsame _ => exact ⟨rfl, hsame.trans hhub⟩

/-- A hub gives out its next id and goes on to the one behind it, or it gives out none. -/
theorem Step.of_hub (h : k.Step event given next) {hub : KeyboardHub} (hhub : k.hub = some hub) :
    (∃ last, next.hub = some last ∧ last.nextId = hub.nextId + given.toList.length ∧
        given.toList = List.range' hub.nextId given.toList.length) ∨
      event = .dropHub ∧ given = none ∧ next.hub = none := by
  cases h with
  | given hsome _ _ =>
      cases hhub.symm.trans hsome
      exact .inl ⟨_, rfl, rfl, rfl⟩
  | released id =>
      refine .inl ⟨{ hub with subscribers := hub.subscribers.filter (· != id) }, ?_, rfl, rfl⟩
      rw [release, hhub]
      rfl
  | hubDropped => exact .inr ⟨rfl, rfl, rfl⟩
  | kept _ hsame _ => exact .inl ⟨hub, hsame.trans hhub, rfl, rfl⟩

end

/-!
## Runs
-/

theorem attached_new : ({} : Keyboard).Attached where
  ascending := List.Pairwise.nil
  subscribers := by
    intro hub hhub
    cases hhub
    rfl
  used := by
    intro hub _ id hmem
    cases hmem

theorem Attached.after (h : k.Attached) (event : Event) : (k.after event).Attached :=
  h.after_step (h.step event)

theorem Attached.run (h : k.Attached) (events : List Event) : (k.run events).Attached := by
  induction events generalizing k with
  | nil => exact h
  | cons event rest ih => exact ih (h.after event)

theorem live_concat_iff {events : List Event} {event : Event} :
    Live (events ++ [event]) id ↔
      (run {} events).issued? event = some id ∨ Live events id ∧ event ≠ .release id := by
  constructor
  · rintro ⟨earlier, first, later, hsplit, hissued, hheld⟩
    rcases List.eq_nil_or_concat' later with hnil | ⟨between, last, hlater⟩
    · rw [hnil] at hsplit
      rcases List.append_inj' hsplit rfl with ⟨hevents, hlast⟩
      rw [hevents, List.singleton_inj.mp hlast]
      exact .inl hissued
    · rw [hlater] at hsplit hheld
      rw [← List.cons_append, ← List.append_assoc] at hsplit
      rcases List.append_inj' hsplit rfl with ⟨hevents, hlast⟩
      rw [List.mem_append, not_or] at hheld
      refine .inr ⟨⟨earlier, first, between, hevents, hissued, hheld.1⟩, ?_⟩
      rw [List.singleton_inj.mp hlast]
      intro hrelease
      exact hheld.2 (List.mem_singleton.mpr hrelease.symm)
  · rintro (hissued | ⟨⟨earlier, first, later, hsplit, hissued, hheld⟩, hrelease⟩)
    · exact ⟨events, event, [], rfl, hissued, List.not_mem_nil⟩
    · refine ⟨earlier, first, later ++ [event], ?_, hissued, ?_⟩
      · rw [hsplit, List.append_assoc, List.cons_append]
      · rw [List.mem_append, List.mem_singleton, not_or]
        exact ⟨hheld, Ne.symm hrelease⟩

/-- The handles that are held are those that were given out and not released. -/
theorem mem_handleIds_run (events : List Event) :
    id ∈ (run {} events).handleIds ↔ Live events id := by
  induction events using List.reverseRecOn with
  | nil =>
      constructor
      · rintro ⟨⟩
      · rintro ⟨earlier, event, later, hsplit, _⟩
        exact absurd hsplit.symm (by simp)
  | append_singleton events event ih =>
      rw [live_concat_iff, ← ih, run_append]
      exact ((attached_new.run events).step event).mem_handleIds_iff

theorem exists_hub_run {hub : KeyboardHub} (h : k.Attached) (hhub : k.hub = some hub)
    {events : List Event} (hkept : .dropHub ∉ events) : ∃ last, (k.run events).hub = some last := by
  induction events generalizing k hub with
  | nil => exact ⟨hub, hhub⟩
  | cons event rest ih =>
      rw [List.mem_cons, not_or] at hkept
      rcases (h.step event).of_hub hhub with ⟨last, hlast, _⟩ | ⟨hdropped, _⟩
      · exact ih (h.after event) hlast hkept.2
      · exact absurd hdropped.symm hkept.1

theorem issued_of_none (h : k.Attached) (hhub : k.hub = none) (events : List Event) :
    k.issued events = [] := by
  induction events generalizing k with
  | nil => rfl
  | cons event rest ih =>
      rcases (h.step event).of_none hhub with ⟨hgiven, hnext⟩
      rw [issued, hgiven, ih (h.after event) hnext]
      rfl

theorem issued_eq_range' {hub : KeyboardHub} (h : k.Attached) (hhub : k.hub = some hub)
    (events : List Event) :
    k.issued events = List.range' hub.nextId (k.issued events).length := by
  induction events generalizing k hub with
  | nil => rfl
  | cons event rest ih =>
      rw [issued, List.length_append]
      rcases (h.step event).of_hub hhub with ⟨last, hlast, hnextId, hgiven⟩ | ⟨_, hgiven, hnext⟩
      · rw [← List.range'_append_1, ← hgiven, ← hnextId, ← ih (h.after event) hlast]
      · rw [hgiven, issued_of_none (h.after event) hnext]
        rfl

theorem ids_ascending (events : List Event) : (issued {} events).Pairwise (· < ·) := by
  rw [issued_eq_range' attached_new rfl events]
  exact List.pairwise_lt_range'

/-- An id is not given out again after its release. -/
example : issued {} [.subscribe, .release 0, .subscribe, .dropHub, .subscribe] = [0, 1] := rfl

end Keyboard
end StencilDesk
