import StencilDesk.Proofs.Navigation.Subscriptions

/-!
# Deliveries

Every call of a subscriber is recorded. Over whole runs, an id gets the keys that come while its
handle is held, each of them once, and none before or after. A plain listener was handed just these.
-/

namespace StencilDesk
namespace Keyboard

/-- The keys that come with an event; none are taken without a hub. -/
def keys (k : Keyboard) : Event → List NavigationKey
  | .dispatch key => if k.hub.isSome then [key] else []
  | _ => []

def keysAll (k : Keyboard) : List Event → List NavigationKey
  | [] => []
  | event :: rest => k.keys event ++ (k.after event).keysAll rest

/-- The record of an event: the ids that got a key, in order, with the key. -/
def deliveries (k : Keyboard) : Event → List (Nat × NavigationKey)
  | .dispatch key => (k.dispatch? key).elim [] fun done => done.1.map fun id => (id, key)
  | _ => []

def deliveriesAll (k : Keyboard) : List Event → List (Nat × NavigationKey)
  | [] => []
  | event :: rest => k.deliveries event ++ (k.after event).deliveriesAll rest

def keysFor (id : Nat) (record : List (Nat × NavigationKey)) : List NavigationKey :=
  (record.filter fun delivery => delivery.1 == id).map Prod.snd

variable {k : Keyboard} {id other : Nat} {subscriber : Subscriber}

theorem deliveriesAll_append (k : Keyboard) (events more : List Event) :
    k.deliveriesAll (events ++ more) =
      k.deliveriesAll events ++ (k.run events).deliveriesAll more := by
  induction events generalizing k with
  | nil => rfl
  | cons event rest ih =>
      rw [List.cons_append, deliveriesAll, deliveriesAll, ih, List.append_assoc]
      rfl

theorem keysFor_append (id : Nat) (record more : List (Nat × NavigationKey)) :
    keysFor id (record ++ more) = keysFor id record ++ keysFor id more := by
  unfold keysFor
  rw [List.filter_append, List.map_append]

theorem keysFor_map (id : Nat) (ids : List Nat) (key : NavigationKey) :
    keysFor id (ids.map fun other => (other, key)) = List.replicate (ids.count id) key := by
  unfold keysFor
  rw [List.filter_map, List.map_map]
  have hsame : (fun delivery : Nat × NavigationKey => delivery.1 == id) ∘
      (fun other => (other, key)) = (· == id) := rfl
  rw [hsame, List.filter_beq, List.map_replicate]
  rfl

/-!
## The record
-/

/-- An event delivers its key once to everyone whose handle is held, and to nobody else. -/
theorem Attached.keysFor_deliveries (h : k.Attached) (id : Nat) (event : Event) :
    keysFor id (k.deliveries event) = if id ∈ k.handleIds then k.keys event else [] := by
  cases event with
  | dispatch key =>
      simp only [deliveries, keys]
      cases hhub : k.hub with
      | none =>
          rw [dispatch?_of_none hhub]
          exact (ite_self _).symm
      | some hub =>
          rw [h.dispatch?_of_hub hhub, Option.elim_some, keysFor_map]
          split
          · next hheld =>
              rw [List.count_eq_one_of_mem (h.ascending.imp Nat.ne_of_lt) hheld]
              rfl
          · next hheld =>
              rw [List.count_eq_zero_of_not_mem hheld]
              rfl
  | _ => exact (ite_self _).symm

theorem Attached.keysFor_of_held (h : k.Attached) (hheld : id ∈ k.handleIds) {events : List Event}
    (hrelease : .release id ∉ events) :
    keysFor id (k.deliveriesAll events) = k.keysAll events := by
  induction events generalizing k with
  | nil => rfl
  | cons event rest ih =>
      rw [List.mem_cons, not_or] at hrelease
      have hnext : id ∈ (k.after event).handleIds :=
        (h.step event).mem_handleIds_iff.mpr (.inr ⟨hheld, Ne.symm hrelease.1⟩)
      rw [deliveriesAll, keysFor_append, h.keysFor_deliveries, if_pos hheld,
        ih (h.after event) hnext hrelease.2]
      rfl

theorem Attached.keysFor_of_not_issued (h : k.Attached) (hheld : id ∉ k.handleIds)
    {events : List Event} (hissued : id ∉ k.issued events) :
    keysFor id (k.deliveriesAll events) = [] := by
  induction events generalizing k with
  | nil => rfl
  | cons event rest ih =>
      rw [issued, List.mem_append, not_or, Option.mem_toList] at hissued
      have hnext : id ∉ (k.after event).handleIds := by
        rw [(h.step event).mem_handleIds_iff, not_or]
        exact ⟨hissued.1, fun hold => hheld hold.1⟩
      rw [deliveriesAll, keysFor_append, h.keysFor_deliveries, if_neg hheld,
        ih (h.after event) hnext hissued.2, List.append_nil]

theorem deliveries_of_issued {event : Event} (hissued : k.issued? event = some id) :
    k.deliveries event = [] := by
  cases event with
  | dispatch key => cases hissued
  | _ => rfl

theorem not_mem_issued_of_issued {earlier : List Event} {event : Event}
    (hissued : (run {} earlier).issued? event = some id) (later : List Event) :
    id ∉ issued {} earlier ∧ id ∉ ((run {} earlier).after event).issued later := by
  have hascending := ids_ascending (earlier ++ event :: later)
  rw [issued_append, issued, hissued, List.pairwise_append] at hascending
  have hbehind := (List.pairwise_cons.mp hascending.2.1).1
  constructor
  · intro hmem
    exact Nat.lt_irrefl id (hascending.2.2 id hmem id List.mem_cons_self)
  · intro hmem
    exact Nat.lt_irrefl id (hbehind id hmem)

theorem Attached.keysFor_of_released (h : k.Attached) {rest : List Event}
    (hrest : ∀ first ∈ rest.head?, first = .release id) (hissued : id ∉ k.issued rest) :
    keysFor id (k.deliveriesAll rest) = [] := by
  cases rest with
  | nil => rfl
  | cons first more =>
      rw [hrest first rfl] at hissued ⊢
      have hgone : id ∉ (k.release id).handleIds := by
        rw [handleIds_release]
        simp
      exact (h.after (.release id)).keysFor_of_not_issued hgone hissued

/-- Over a run, an id gets the keys from where its handle is given out to where it is released. -/
theorem keysFor_deliveriesAll_run {earlier held rest : List Event} {event : Event}
    (hissued : (run {} earlier).issued? event = some id) (hheld : .release id ∉ held)
    (hrest : ∀ first ∈ rest.head?, first = .release id) :
    keysFor id (deliveriesAll {} (earlier ++ event :: (held ++ rest))) =
      ((run {} earlier).after event).keysAll held := by
  have hattached := attached_new.run earlier
  have hnext := hattached.after event
  have hmem : id ∈ ((run {} earlier).after event).handleIds :=
    (hattached.step event).mem_handleIds_iff.mpr (.inl hissued)
  rcases not_mem_issued_of_issued hissued (held ++ rest) with ⟨hbefore, hbehind⟩
  rw [issued_append, List.mem_append, not_or] at hbehind
  rw [deliveriesAll_append, deliveriesAll, deliveriesAll_append, keysFor_append, keysFor_append,
    keysFor_append, attached_new.keysFor_of_not_issued List.not_mem_nil hbefore,
    deliveries_of_issued hissued, hnext.keysFor_of_held hmem hheld,
    (hnext.run held).keysFor_of_released hrest hbehind.2, List.append_nil]
  rfl

/-- A handle that is released gets no more keys, and the others are not passed over. -/
example :
    deliveriesAll {} [.subscribe, .subscribe, .dispatch .up, .release 0, .dispatch .down] =
      [(0, .up), (1, .up), (1, .down)] := rfl

/-!
## The holder of a handle
-/

theorem subscriber?_map {next : Keyboard} {f : Nat → Subscriber → Subscriber}
    (hnext : next.handles = k.handles.map fun handle => (handle.1, f handle.1 handle.2))
    (h : k.subscriber? id = some subscriber) : next.subscriber? id = some (f id subscriber) := by
  rcases Option.map_eq_some_iff.mp h with ⟨handle, hfind, hholder⟩
  have hid : handle.1 = id := by simpa using List.find?_some hfind
  unfold subscriber?
  rw [hnext, List.find?_map, ← hid, ← hholder]
  rw [← hid] at hfind
  exact congrArg (Option.map Prod.snd) (congrArg (Option.map _) hfind)

theorem subscriber?_update (h : k.subscriber? id = some subscriber) (other : Nat)
    (f : Subscriber → Subscriber) :
    (k.update other f).subscriber? id = some (if id = other then f subscriber else subscriber) := by
  have hhandles : (k.update other f).handles = k.handles.map fun handle =>
      (handle.1, if handle.1 = other then f handle.2 else handle.2) := by
    apply List.map_congr_left
    intro handle _
    split
    · rfl
    · rfl
  exact subscriber?_map
    (f := fun handleId subscriber => if handleId = other then f subscriber else subscriber)
    hhandles h

theorem subscriber?_release (h : k.subscriber? id = some subscriber) (hother : other ≠ id) :
    (k.release other).subscriber? id = some subscriber := by
  rw [← h]
  unfold subscriber? release
  rw [List.find?_filter]
  congr 2
  funext handle
  by_cases hid : handle.1 = id
  · simp [hid, hother.symm]
  · simp [hid]

theorem subscriber?_subscribed (h : k.subscriber? id = some subscriber) (more : Subscriber) :
    ((k.subscribe? more).elim k Prod.snd).subscriber? id = some subscriber := by
  cases hhub : k.hub with
  | none =>
      rw [subscribe?_of_none hhub]
      exact h
  | some hub =>
      rcases Option.map_eq_some_iff.mp h with ⟨handle, hfind, hholder⟩
      rw [subscribe?_of_hub hhub]
      show (k.withHandle hub more).subscriber? id = _
      unfold subscriber? withHandle
      rw [List.find?_append, hfind, Option.some_or, Option.map_some, hholder]

theorem Attached.subscriber?_dispatch (h : k.Attached) (hheld : k.subscriber? id = some subscriber)
    (key : NavigationKey) :
    ((k.dispatch? key).elim k Prod.snd).subscriber? id =
      some (if k.hub.isSome then subscriber.press key else subscriber) := by
  cases hhub : k.hub with
  | none =>
      rw [dispatch?_of_none hhub]
      exact hheld
  | some hub =>
      rw [h.dispatch?_of_hub hhub]
      exact subscriber?_map (f := fun _ subscriber => subscriber.press key) rfl hheld

theorem Attached.subscriber?_issued (h : k.Attached)
    (hissued : (k.subscribe? subscriber).map Prod.fst = some id) :
    ((k.subscribe? subscriber).elim k Prod.snd).subscriber? id = some subscriber := by
  cases hhub : k.hub with
  | none =>
      rw [subscribe?_of_none hhub] at hissued
      cases hissued
  | some hub =>
      rw [subscribe?_of_hub hhub] at hissued ⊢
      cases hissued
      have hnone : k.handles.find? (fun handle => handle.1 == hub.nextId) = none := by
        rw [List.find?_eq_none]
        intro handle hmem hid
        have hlt := h.used hub hhub handle.1 (List.mem_map_of_mem hmem)
        exact absurd (beq_iff_eq.mp hid) (Nat.ne_of_lt hlt)
      show (k.withHandle hub subscriber).subscriber? hub.nextId = _
      unfold subscriber? withHandle
      rw [List.find?_append, hnone]
      simp

/-!
## Plain listeners
-/

theorem heard_takeRequests {heard : List NavigationKey}
    (hheld : k.subscriber? id = some (.listener heard)) (other : Nat) :
    (k.takeRequests other).2.subscriber? id = some (.listener heard) := by
  unfold takeRequests
  split
  · exact hheld
  · next v hview =>
      -- The handle of a listener is no view's, so another one is worked on.
      have hother : id ≠ other := by
        intro hsame
        rw [← hsame, view?, hheld] at hview
        cases hview
      rw [subscriber?_update hheld, if_neg hother]

theorem Attached.heard_after (h : k.Attached) {heard : List NavigationKey}
    (hheld : k.subscriber? id = some (.listener heard)) {event : Event}
    (hrelease : event ≠ .release id) :
    (k.after event).subscriber? id = some (.listener (heard ++ k.keys event)) := by
  cases event with
  | dispatch key =>
      have hnext := h.subscriber?_dispatch hheld key
      split at hnext
      · next hhub =>
          rw [keys, if_pos hhub]
          exact hnext
      · next hhub =>
          rw [keys, if_neg hhub, List.append_nil]
          exact hnext
  | subscribe =>
      simp only [keys, List.append_nil]
      exact subscriber?_subscribed hheld .listener
  | mount tree =>
      simp only [keys, List.append_nil]
      exact subscriber?_subscribed hheld (.view (TreeView.ofTree tree))
  | release other =>
      have hother : other ≠ id := fun hsame => hrelease (congrArg Event.release hsame)
      simp only [keys, List.append_nil]
      exact subscriber?_release hheld hother
  | setTree other tree =>
      have hnext := subscriber?_update hheld other (Subscriber.setTree tree)
      simp only [keys, List.append_nil]
      rw [Subscriber.setTree, ite_self] at hnext
      exact hnext
  | takeRequests other =>
      simp only [keys, List.append_nil]
      exact heard_takeRequests hheld other
  | dropHub =>
      simp only [keys, List.append_nil]
      exact hheld

/-- A plain listener is handed the keys of a run as long as its handle is held. -/
theorem Attached.heard_run (h : k.Attached) {heard : List NavigationKey}
    (hheld : k.subscriber? id = some (.listener heard)) {events : List Event}
    (hrelease : .release id ∉ events) :
    (k.run events).subscriber? id = some (.listener (heard ++ k.keysAll events)) := by
  induction events generalizing k heard with
  | nil =>
      rw [keysAll, List.append_nil]
      exact hheld
  | cons event rest ih =>
      rw [List.mem_cons, not_or] at hrelease
      have hnext := h.heard_after hheld (Ne.symm hrelease.1)
      rw [keysAll, ← List.append_assoc]
      exact ih (h.after event) hnext hrelease.2

end Keyboard
end StencilDesk
