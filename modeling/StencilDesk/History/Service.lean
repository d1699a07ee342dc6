import StencilDesk.History.Saving

/-!
# The store as a service

What an editing session asks of a store, whatever the store is: each call may change the store's
state and may fail. One such service keeps its versions in a directory.
-/

namespace StencilDesk

structure StoreService (σ : Type) where
  load : String → Option Serial → StateM σ (Except StoreFault LoadedStencil)
  snapshot : String → Serial → StateM σ (Except StoreFault Snapshot)
  save : SaveRequest → StateM σ (Except StoreFault SaveAnswer)
  history : String → StateM σ (Except StoreFault (List Snapshot))
  /-- The time. -/
  now : StateM σ Timestamp

/-- The calls of a store that can be made to fail, and the one that can be made to refuse. -/
inductive StoreCall where
  | load
  | snapshot
  | save
  | history
  /-- The answer that a save was not accepted. -/
  | accept
deriving DecidableEq, Repr

namespace StoreCall

def text : StoreCall → String
  | load => "load"
  | snapshot => "snapshot"
  | save => "save"
  | history => "history"
  | accept => "accept"

def injected (call : StoreCall) : StoreFault :=
  .rejected s!"injected {call.text} failure"

end StoreCall

/-- A store in a directory, of which calls can be made to fail in order to rehearse failures. -/
structure DirectoryStore where
  directory : Directory := {}
  root : Location := []
  now : Timestamp
  failing : List StoreCall := []
  lastRequest : Option SaveRequest := none

namespace DirectoryStore

def refusedSerial : Serial := ⟨"000000A", by decide⟩

def answer {α : Type} (store : DirectoryStore) (call : StoreCall) (reply : Except StoreFault α) :
    Except StoreFault α :=
  if store.failing.contains call then .error call.injected else reply

def load (store : DirectoryStore) (id : String) (serial : Option Serial) :
    Except StoreFault LoadedStencil :=
  store.answer .load (Store.load store.directory store.root id serial)

def snapshot (store : DirectoryStore) (id : String) (serial : Serial) :
    Except StoreFault Snapshot :=
  store.answer .snapshot (Store.snapshot store.directory store.root id serial)

def history (store : DirectoryStore) (id : String) : Except StoreFault (List Snapshot) :=
  store.answer .history (Store.history store.directory store.root id)

def save (store : DirectoryStore) (request : SaveRequest) :
    Except StoreFault SaveAnswer × DirectoryStore :=
  let store := { store with lastRequest := some request }
  if store.failing.contains .save then (.error StoreCall.save.injected, store)
  else if store.failing.contains .accept then (.ok ⟨refusedSerial, false⟩, store)
  else
    let (directory, answer) := Store.save store.root request store.now store.directory
    (answer, { store with directory })

def service : StoreService DirectoryStore where
  load id serial := fun store => (store.load id serial, store)
  snapshot id serial := fun store => (store.snapshot id serial, store)
  save request := fun store => store.save request
  history id := fun store => (store.history id, store)
  now := fun store => (store.now, store)

end DirectoryStore

end StencilDesk
