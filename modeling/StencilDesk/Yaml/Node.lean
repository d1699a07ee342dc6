import StencilDesk.Yaml.Event

/-!
# Documents

The first document of a stream as a tree of nodes, with the nodes that its aliases stand for. A
document that ends with a fault is kept as far as it goes; the place where it breaks off is a node
of its own, so that a reader meets the fault exactly when it gets there.
-/

namespace StencilDesk
namespace Yaml

inductive Node where
  /-- Stands for the node with the numbered anchor. -/
  | aliasOf (mark : Mark) (anchor : Nat)
  | scalar (mark : Mark) (tag : Option String) (text : String) (plain : Bool)
  | sequence (mark : Mark) (tag : Option String) (items : List Node)
  | mapping (mark : Mark) (tag : Option String) (entries : List (Node × Node))
  /-- The document breaks off here. -/
  | cut
deriving Inhabited

/-- Why a stream has no first document, or why it breaks off. -/
inductive DocumentFault where
  | malformed (fault : Fault)
  | unknownAnchor (mark : Mark)
deriving DecidableEq, Repr

structure Document where
  /-- None for a stream without documents. -/
  root : Option Node
  /-- The anchored nodes, each under the number of the event at which it starts. -/
  anchored : List (Nat × Node)
  /-- For each anchor number the event of its node, latest one first. -/
  anchors : List (Nat × Nat)
  /-- How many events the document has. -/
  size : Nat
  /-- Why the document breaks off. -/
  fault : Option DocumentFault
  /-- Whether the stream goes on behind the document. -/
  continued : Bool

namespace Document

def target? (document : Document) (anchor : Nat) : Option Node :=
  match document.anchors.find? fun entry => entry.1 == anchor with
  | some (_, start) => (document.anchored.find? fun entry => entry.1 == start).map Prod.snd
  | none => none

end Document

structure OpenCollection where
  mark : Mark
  tag : Option String
  isMapping : Bool
  /-- The event at which it starts, if it has an anchor. -/
  anchored : Option Nat
  /-- The nodes so far, last one first; in a mapping, keys and values take turns. -/
  nodes : List Node

namespace OpenCollection

def pairs : List Node → List (Node × Node)
  | key :: value :: rest => (key, value) :: pairs rest
  | _ => []

def close (frame : OpenCollection) : Node :=
  if frame.isMapping then .mapping frame.mark frame.tag (pairs frame.nodes.reverse)
  else .sequence frame.mark frame.tag frame.nodes.reverse

/-- The collection that breaks off where its next node is expected. -/
def breakOff (frame : OpenCollection) : Node :=
  let nodes := .cut :: frame.nodes
  let nodes := if frame.isMapping && nodes.length % 2 == 1 then .cut :: nodes else nodes
  { frame with nodes }.close

end OpenCollection

structure Assembly where
  stack : List OpenCollection := []
  root : Option Node := none
  anchored : List (Nat × Node) := []
  anchors : List (Nat × Nat) := []
  /-- The number of each anchor name in use. -/
  names : List (String × Nat) := []
  size : Nat := 0

namespace Assembly

/-- Adds a finished node to the innermost open collection; without one it is the root. -/
def add (a : Assembly) (node : Node) (anchored : Option Nat) : Assembly :=
  let a := match anchored with
    | some start => { a with anchored := (start, node) :: a.anchored }
    | none => a
  match a.stack with
  | [] => { a with root := some node }
  | frame :: outer => { a with stack := { frame with nodes := node :: frame.nodes } :: outer }

/--
Gives the next node an anchor. The number of an anchor is the count of different names so far, so
after a name was used again the next new name takes over the number of its second use.
-/
def name (a : Assembly) (anchor : Option String) : Assembly × Option Nat :=
  match anchor with
  | none => (a, none)
  | some name =>
      let number := a.names.length
      let names := (a.names.filter fun entry => entry.1 != name) ++ [(name, number)]
      ({ a with names, anchors := (number, a.size) :: a.anchors }, some a.size)

def openCollection (a : Assembly) (mark : Mark) (properties : Properties) (isMapping : Bool) :
    Assembly :=
  let (a, anchored) := a.name properties.anchor
  { a with
    stack := { mark, tag := properties.tag, isMapping, anchored, nodes := [] } :: a.stack
    size := a.size + 1 }

def closeCollection (a : Assembly) (finish : OpenCollection → Node) : Assembly :=
  match a.stack with
  | [] => a
  | frame :: outer =>
      { a with stack := outer, size := a.size + 1 }.add (finish frame) frame.anchored

def breakOff (a : Assembly) : Nat → Assembly
  | 0 => a
  | depth + 1 => (a.closeCollection OpenCollection.breakOff).breakOff depth

def finish (a : Assembly) (fault : Option DocumentFault) (continued : Bool) : Document :=
  let size := a.size
  let a := match fault with
    | none => a
    | some _ =>
        let a := a.breakOff a.stack.length
        { a with root := a.root <|> some Node.cut }
  { root := a.root, anchored := a.anchored, anchors := a.anchors, size, fault, continued }

def read (a : Assembly) (fault : Option Fault) : List Event → Document
  | [] => a.finish (fault.map DocumentFault.malformed) false
  | event :: rest =>
      match event.kind with
      | .documentStart => read a fault rest
      | .documentEnd =>
          let continued := match rest with
            | [⟨.streamEnd, _⟩] => false
            | _ => true
          a.finish none continued
      | .streamEnd => a.finish none false
      | .aliasOf name =>
          match a.names.find? fun entry => entry.1 == name with
          | some (_, number) =>
              read ({ a with size := a.size + 1 }.add (.aliasOf event.mark number) none) fault rest
          | none => a.finish (some (.unknownAnchor event.mark)) false
      | .scalar properties text plain =>
          let (a, anchored) := a.name properties.anchor
          read
            ({ a with size := a.size + 1 }.add
              (.scalar event.mark properties.tag text plain) anchored)
            fault rest
      | .sequenceStart properties => read (a.openCollection event.mark properties false) fault rest
      | .mappingStart properties => read (a.openCollection event.mark properties true) fault rest
      | .sequenceEnd => read (a.closeCollection OpenCollection.close) fault rest
      | .mappingEnd => read (a.closeCollection OpenCollection.close) fault rest

end Assembly

def Document.read (text : List Char) : Document :=
  let (events, fault) := events text
  Assembly.read {} fault events

end Yaml
end StencilDesk
