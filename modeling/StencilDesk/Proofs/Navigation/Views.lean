import Mathlib.Data.List.Sort
import StencilDesk.Proofs.Navigation.Deliveries

/-!
# Views of the tree

A view that is driven through the hub is, at any time, where a navigator is that is given the same
keys and trees directly. What was collected from the view, and what can still be collected, are the
files that the keys chose there.
-/

namespace StencilDesk

def NavigationOutcome.file? : NavigationOutcome → Option String
  | .openFile path => some path
  | _ => none

namespace Navigator

inductive Input where
  | key (key : NavigationKey)
  | tree (tree : TreeNode)

def take (n : Navigator) : Input → Navigator
  | .key key => (n.press key).2
  | .tree tree => n.setTree tree

def chosen? (n : Navigator) : Input → Option String
  | .key key => (n.press key).1.file?
  | .tree _ => none

def feed (n : Navigator) (inputs : List Input) : Navigator :=
  inputs.foldl take n

def opened (n : Navigator) : List Input → List String
  | [] => []
  | input :: rest => (n.chosen? input).toList ++ (n.take input).opened rest

theorem feed_append (n : Navigator) (inputs more : List Input) :
    n.feed (inputs ++ more) = (n.feed inputs).feed more :=
  List.foldl_append

theorem opened_append (n : Navigator) (inputs more : List Input) :
    n.opened (inputs ++ more) = n.opened inputs ++ (n.feed inputs).opened more := by
  induction inputs generalizing n with
  | nil => rfl
  | cons input rest ih =>
      rw [List.cons_append, opened, opened, ih, List.append_assoc]
      rfl

end Navigator

namespace TreeView

/-- What some inputs make of a view from which some files were collected in the meantime. -/
structure Follows (v : TreeView) (inputs : List Navigator.Input) (collected : List String)
    (w : TreeView) : Prop where
  navigator : w.navigator = v.navigator.feed inputs
  requests : collected ++ w.openRequests = v.openRequests ++ v.navigator.opened inputs

variable {v w u : TreeView} {inputs more : List Navigator.Input} {collected others : List String}

theorem Follows.refl (v : TreeView) : v.Follows [] [] v where
  navigator := rfl
  requests := (List.append_nil _).symm

theorem Follows.trans (h : v.Follows inputs collected w) (hmore : w.Follows more others u) :
    v.Follows (inputs ++ more) (collected ++ others) u where
  navigator := by
    rw [hmore.navigator, h.navigator, Navigator.feed_append]
  requests := by
    rw [List.append_assoc, hmore.requests, ← List.append_assoc, h.requests, h.navigator,
      Navigator.opened_append, List.append_assoc]

theorem press_eq (v : TreeView) (key : NavigationKey) :
    v.press key =
      { navigator := (v.navigator.press key).2
        openRequests := v.openRequests ++ (v.navigator.press key).1.file?.toList } := by
  unfold press
  rcases v.navigator.press key with ⟨outcome, navigator⟩
  cases outcome with
  | openFile path => rfl
  | _ => simp [NavigationOutcome.file?]

theorem follows_press (v : TreeView) (key : NavigationKey) :
    v.Follows [.key key] [] (v.press key) := by
  rw [press_eq]
  constructor
  · rfl
  · simp [Navigator.opened, Navigator.chosen?]

theorem follows_setTree (v : TreeView) (tree : TreeNode) :
    v.Follows [.tree tree] [] (v.setTree tree) where
  navigator := rfl
  requests := (List.append_nil _).symm

theorem follows_collected (v : TreeView) :
    v.Follows [] v.openRequests { v with openRequests := [] } where
  navigator := rfl
  requests := rfl

end TreeView

namespace Keyboard

/-- What an event gives to the view that holds the handle with an id: keys as long as there is a
hub, and the trees that are set on this view. -/
def given (k : Keyboard) (id : Nat) : Event → List Navigator.Input
  | .dispatch key => if k.hub.isSome then [.key key] else []
  | .setTree other tree => if other = id then [.tree tree] else []
  | _ => []

def collected (k : Keyboard) (id : Nat) : Event → List String
  | .takeRequests other => if other = id then (k.takeRequests id).1 else []
  | _ => []

def givenAll (k : Keyboard) (id : Nat) : List Event → List Navigator.Input
  | [] => []
  | event :: rest => k.given id event ++ (k.after event).givenAll id rest

def collectedAll (k : Keyboard) (id : Nat) : List Event → List String
  | [] => []
  | event :: rest => k.collected id event ++ (k.after event).collectedAll id rest

variable {k : Keyboard} {id : Nat} {v : TreeView}

/-!
## The view of a handle
-/

theorem view?_eq_some_iff :
    k.view? id = some v ↔ k.subscriber? id = some (.view v) := by
  unfold view?
  cases k.subscriber? id with
  | none => simp
  | some subscriber =>
      cases subscriber with
      | listener _ => simp [Subscriber.view?]
      | view _ => simp [Subscriber.view?]

theorem view?_update {other : Nat} {f : Subscriber → Subscriber} (hview : k.view? id = some v)
    {w : TreeView} (hsame : id = other → f (.view v) = .view w) (hother : id ≠ other → w = v) :
    (k.update other f).view? id = some w := by
  rw [view?_eq_some_iff] at hview ⊢
  rw [subscriber?_update hview]
  split
  · next h => rw [hsame h]
  · next h => rw [hother h]

theorem view?_subscribed (hview : k.view? id = some v) (subscriber : Subscriber) :
    ((k.subscribe? subscriber).elim k Prod.snd).view? id = some v := by
  rw [view?_eq_some_iff] at hview ⊢
  exact subscriber?_subscribed hview subscriber

theorem view?_release {other : Nat} (hview : k.view? id = some v) (hother : other ≠ id) :
    (k.release other).view? id = some v := by
  rw [view?_eq_some_iff] at hview ⊢
  exact subscriber?_release hview hother

theorem Attached.view?_mount (h : k.Attached) {tree : TreeNode}
    (hissued : k.issued? (.mount tree) = some id) :
    (k.after (.mount tree)).view? id = some (TreeView.ofTree tree) := by
  rw [view?_eq_some_iff]
  exact h.subscriber?_issued hissued

/-!
## What an event does to a view
-/

theorem Attached.follows_dispatch (h : k.Attached) (hview : k.view? id = some v)
    (key : NavigationKey) :
    ∃ w, ((k.dispatch? key).elim k Prod.snd).view? id = some w ∧
      v.Follows (k.given id (.dispatch key)) [] w := by
  have hheld := h.subscriber?_dispatch (view?_eq_some_iff.mp hview) key
  split at hheld
  · next hhub =>
      rw [given, if_pos hhub]
      exact ⟨v.press key, view?_eq_some_iff.mpr hheld, v.follows_press key⟩
  · next hhub =>
      rw [given, if_neg hhub]
      exact ⟨v, view?_eq_some_iff.mpr hheld, .refl v⟩

theorem follows_setTree (hview : k.view? id = some v) (other : Nat) (tree : TreeNode) :
    ∃ w, (k.setTree other tree).view? id = some w ∧
      v.Follows (k.given id (.setTree other tree)) [] w := by
  by_cases hid : other = id
  · rw [given, if_pos hid]
    refine ⟨v.setTree tree, view?_update hview (fun _ => rfl) ?_, v.follows_setTree tree⟩
    exact fun hne => absurd hid.symm hne
  · rw [given, if_neg hid]
    refine ⟨v, view?_update hview ?_ (fun _ => rfl), .refl v⟩
    exact fun heq => absurd heq.symm hid

theorem follows_takeRequests (hview : k.view? id = some v) (other : Nat) :
    ∃ w, (k.takeRequests other).2.view? id = some w ∧
      v.Follows [] (k.collected id (.takeRequests other)) w := by
  by_cases hid : other = id
  · rw [collected, if_pos hid, hid, takeRequests, hview]
    refine ⟨{ v with openRequests := [] }, ?_, v.follows_collected⟩
    exact view?_update hview (fun _ => rfl) (fun hne => absurd rfl hne)
  · rw [collected, if_neg hid]
    refine ⟨v, ?_, .refl v⟩
    unfold takeRequests
    cases k.view? other with
    | none => exact hview
    | some _ => exact view?_update hview (fun heq => absurd heq.symm hid) (fun _ => rfl)

theorem Attached.follows_after (h : k.Attached) (hview : k.view? id = some v) {event : Event}
    (hrelease : event ≠ .release id) :
    ∃ w, (k.after event).view? id = some w ∧
      v.Follows (k.given id event) (k.collected id event) w := by
  cases event with
  | subscribe => exact ⟨v, view?_subscribed hview .listener, .refl v⟩
  | mount tree => exact ⟨v, view?_subscribed hview (.view (TreeView.ofTree tree)), .refl v⟩
  | dispatch key => exact h.follows_dispatch hview key
  | release other =>
      have hother : other ≠ id := by
        rintro rfl
        exact hrelease rfl
      exact ⟨v, view?_release hview hother, .refl v⟩
  | setTree other tree => exact follows_setTree hview other tree
  | takeRequests other => exact follows_takeRequests hview other
  | dropHub => exact ⟨v, hview, .refl v⟩

/-- A view whose handle is not released takes what a run gives to it. -/
theorem Attached.follows_run (h : k.Attached) (hview : k.view? id = some v) {events : List Event}
    (hrelease : .release id ∉ events) :
    ∃ w, (k.run events).view? id = some w ∧
      v.Follows (k.givenAll id events) (k.collectedAll id events) w := by
  induction events generalizing k v with
  | nil => exact ⟨v, hview, .refl v⟩
  | cons event rest ih =>
      rw [List.mem_cons, not_or] at hrelease
      rcases h.follows_after hview (Ne.symm hrelease.1) with ⟨w, hw, hfollows⟩
      rcases ih (h.after event) hw hrelease.2 with ⟨u, hu, hrest⟩
      exact ⟨u, hu, hfollows.trans hrest⟩

/-!
## What the keyboard promises
-/

/-- Holds if, after some events, the keyboard is what its users take it for. -/
structure Faithful (events : List Event) : Prop where
  /-- Ids are given out once, in ascending order. -/
  ids : (issued {} events).Pairwise (· < ·)
  held : ∀ id, id ∈ (run {} events).handleIds ↔ Live events id
  /-- A key is delivered to the owners of the handles that are held, to each of them once and in the
  order of their subscriptions, and nothing else changes. -/
  delivered : .dropHub ∉ events → ∀ key, ∃ ids next,
    (run {} events).dispatch? key = some (ids, next) ∧
    (run {} events).listenerCount? = some ids.length ∧
    (run {} events).deliveries (.dispatch key) = ids.map (fun id => (id, key)) ∧
    ids.Sublist (issued {} events) ∧ (∀ id, id ∈ ids ↔ Live events id) ∧
    next = { run {} events with
      handles := (run {} events).handles.map fun handle => (handle.1, handle.2.press key) }
  /-- In the record of all deliveries, an id has the keys that came while its handle was held, each
  of them once and in their order, and none from before or after. -/
  recorded : ∀ earlier event held rest id, events = earlier ++ event :: (held ++ rest) →
    (run {} earlier).issued? event = some id → .release id ∉ held →
    (∀ first ∈ rest.head?, first = .release id) →
    keysFor id (deliveriesAll {} events) = ((run {} earlier).after event).keysAll held
  unissued : ∀ id ∉ issued {} events, keysFor id (deliveriesAll {} events) = []
  /-- A plain listener that is still there was handed what the record has for it. -/
  listeners : ∀ earlier later id, events = earlier ++ .subscribe :: later →
    (run {} earlier).issued? .subscribe = some id → .release id ∉ later →
    (run {} events).subscriber? id =
      some (.listener (((run {} earlier).after .subscribe).keysAll later))
  /-- A view that is still there is where a navigator is that got its keys and trees directly, and
  its requests are what this navigator opened. -/
  views : ∀ earlier tree later id, events = earlier ++ .mount tree :: later →
    (run {} earlier).issued? (.mount tree) = some id → .release id ∉ later →
    ∃ view, (run {} events).view? id = some view ∧
      (TreeView.ofTree tree).Follows (((run {} earlier).after (.mount tree)).givenAll id later)
        (((run {} earlier).after (.mount tree)).collectedAll id later) view

theorem mem_issued_of_live {events : List Event} (h : Live events id) : id ∈ issued {} events := by
  rcases h with ⟨earlier, event, later, hsplit, hissued, _⟩
  rw [hsplit, issued_append, issued, hissued]
  simp

theorem handleIds_sublist (events : List Event) :
    (run {} events).handleIds.Sublist (issued {} events) := by
  have hascending := (attached_new.run events).ascending
  apply List.sublist_of_subperm_of_pairwise (r := (· < ·)) _ hascending (ids_ascending events)
  apply List.subperm_of_subset (hascending.imp Nat.ne_of_lt)
  intro id hmem
  exact mem_issued_of_live ((mem_handleIds_run events).mp hmem)

/-- A keyboard is faithful, whatever happens to it. -/
theorem faithful_run (events : List Event) : Faithful events where
  ids := ids_ascending events
  held id := mem_handleIds_run events
  delivered := by
    intro hkept key
    rcases exists_hub_run attached_new rfl hkept with ⟨hub, hhub⟩
    have hattached := attached_new.run events
    have hdispatch := hattached.dispatch?_of_hub hhub key
    refine ⟨_, _, hdispatch, ?_, ?_, handleIds_sublist events,
      fun id => mem_handleIds_run events, rfl⟩
    · rw [listenerCount?, hhub, Option.map_some, hattached.subscribers hub hhub]
    · rw [deliveries, hdispatch, Option.elim_some]
  recorded := by
    intro earlier event held rest id hsplit hissued hheld hrest
    rw [hsplit]
    exact keysFor_deliveriesAll_run hissued hheld hrest
  unissued id hissued := attached_new.keysFor_of_not_issued List.not_mem_nil hissued
  listeners := by
    intro earlier later id hsplit hissued hrelease
    have hattached := attached_new.run earlier
    have hheard := (hattached.after .subscribe).heard_run (hattached.subscriber?_issued hissued)
      hrelease
    rw [hsplit, run_append]
    exact hheard
  views := by
    intro earlier tree later id hsplit hissued hrelease
    have hattached := attached_new.run earlier
    rcases (hattached.after (.mount tree)).follows_run (hattached.view?_mount hissued) hrelease
      with ⟨view, hview, hfollows⟩
    refine ⟨view, ?_, hfollows⟩
    rw [hsplit, run_append]
    exact hview

end Keyboard
end StencilDesk
