import StencilDesk.Navigation.Navigator

/-!
# The keyboard

A hub hands every key to those that are subscribed, in the order of their subscriptions. A
subscription lasts as long as its handle is held, and a tree view holds the handle of its own. A
hub can go away while handles are still held; they are then without effect.
-/

namespace StencilDesk

/-- A displayed tree, and the files that were chosen in it but not collected yet. -/
structure TreeView where
  navigator : Navigator
  openRequests : List String := []

namespace TreeView

def ofTree (tree : TreeNode) : TreeView :=
  { navigator := Navigator.ofTree tree }

def press (view : TreeView) (key : NavigationKey) : TreeView :=
  match view.navigator.press key with
  | (.openFile path, navigator) =>
      { navigator, openRequests := view.openRequests ++ [path] }
  | (_, navigator) => { view with navigator }

def setTree (view : TreeView) (tree : TreeNode) : TreeView :=
  { view with navigator := view.navigator.setTree tree }

end TreeView

/-- The ids of those that are subscribed, in order, and the next id. -/
structure KeyboardHub where
  nextId : Nat := 0
  subscribers : List Nat := []
deriving DecidableEq, Repr, Inhabited

/-- Who holds the handle of a subscription: a plain listener with the keys that it was handed, or a
view. -/
inductive Subscriber where
  | listener (heard : List NavigationKey := [])
  | view (view : TreeView)

namespace Subscriber

def press (key : NavigationKey) : Subscriber → Subscriber
  | listener heard => listener (heard ++ [key])
  | view v => view (v.press key)

def setTree (tree : TreeNode) : Subscriber → Subscriber
  | listener heard => listener heard
  | view v => view (v.setTree tree)

def view? : Subscriber → Option TreeView
  | listener _ => none
  | view v => some v

end Subscriber

/-- A hub as long as it is there, and the handles that are held with their holders. -/
structure Keyboard where
  hub : Option KeyboardHub := some {}
  handles : List (Nat × Subscriber) := []

namespace Keyboard

def listenerCount? (k : Keyboard) : Option Nat :=
  k.hub.map fun hub => hub.subscribers.length

def subscriber? (k : Keyboard) (id : Nat) : Option Subscriber :=
  (k.handles.find? fun handle => handle.1 == id).map Prod.snd

def view? (k : Keyboard) (id : Nat) : Option TreeView :=
  (k.subscriber? id).bind Subscriber.view?

/-- Subscribes, and gives the id of the handle; this needs a hub. -/
def subscribe? (k : Keyboard) (subscriber : Subscriber) : Option (Nat × Keyboard) :=
  k.hub.map fun hub =>
    let id := hub.nextId
    (id,
      { hub := some { nextId := id + 1, subscribers := hub.subscribers ++ [id] }
        handles := k.handles ++ [(id, subscriber)] })

def mount? (k : Keyboard) (tree : TreeNode) : Option (Nat × Keyboard) :=
  k.subscribe? (.view (TreeView.ofTree tree))

def release (k : Keyboard) (id : Nat) : Keyboard :=
  { hub := k.hub.map fun hub => { hub with subscribers := hub.subscribers.filter (· != id) }
    handles := k.handles.filter fun handle => handle.1 != id }

def update (k : Keyboard) (id : Nat) (f : Subscriber → Subscriber) : Keyboard :=
  { k with
    handles := k.handles.map fun handle =>
      if handle.1 = id then (handle.1, f handle.2) else handle }

/-- Hands a key to the holder of the handle with an id, and records the id behind those that had the
key before. -/
def deliver (key : NavigationKey) (done : List Nat × Keyboard) (id : Nat) : List Nat × Keyboard :=
  (done.1 ++ [id], done.2.update id (Subscriber.press key))

/-- Hands a key to one subscriber after the other; gives the record of who got it. -/
def dispatch? (k : Keyboard) (key : NavigationKey) : Option (List Nat × Keyboard) :=
  k.hub.map fun hub => hub.subscribers.foldl (deliver key) ([], k)

def setTree (k : Keyboard) (id : Nat) (tree : TreeNode) : Keyboard :=
  k.update id (Subscriber.setTree tree)

def takeRequests (k : Keyboard) (id : Nat) : List String × Keyboard :=
  match k.view? id with
  | none => ([], k)
  | some v => (v.openRequests, k.update id fun _ => .view { v with openRequests := [] })

def dropHub (k : Keyboard) : Keyboard :=
  { k with hub := none }

end Keyboard

end StencilDesk
