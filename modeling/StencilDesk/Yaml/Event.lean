import StencilDesk.Yaml.Token

/-!
# Events

The structure of a stream of documents, as a flat list: collections open and close, and every
missing key or value is an explicit empty scalar. The list holds what was complete before the
first fault, and tags are resolved to their full names.
-/

namespace StencilDesk
namespace Yaml

structure Properties where
  anchor : Option String := none
  tag : Option String := none
deriving DecidableEq, Repr

inductive EventKind where
  | documentStart
  | documentEnd
  | aliasOf (name : String)
  | scalar (properties : Properties) (text : String) (plain : Bool)
  | sequenceStart (properties : Properties)
  | sequenceEnd
  | mappingStart (properties : Properties)
  | mappingEnd
  | streamEnd
deriving DecidableEq, Repr

structure Event where
  kind : EventKind
  mark : Mark
deriving DecidableEq, Repr

inductive Expected where
  | document (explicit : Bool)
  | documentContent
  | documentEnd
  | blockNode
  | blockSequenceEntry (first : Bool)
  | indentlessSequenceEntry
  | blockMappingKey (first : Bool)
  | blockMappingValue
  | flowSequenceEntry (first : Bool)
  | flowPairKey
  | flowPairValue
  | flowPairEnd
  | flowMappingKey (first : Bool)
  | flowMappingValue (empty : Bool)
  | nothing
deriving DecidableEq, Repr

structure Outline where
  tokens : List Token
  /-- The fault behind the last token. -/
  tokenFault : Option Fault
  expected : Expected := .document false
  /-- What is expected behind the open nodes, innermost first. -/
  outer : List Expected := []
  /-- Where the open collections start, innermost first. -/
  starts : List Mark := []
  /-- The tag handles of the document. -/
  handles : List (String × String) := []

namespace Outline

def outOfTokens (o : Outline) : Fault :=
  o.tokenFault.getD { problem := .endOfStream, mark := Mark.origin }

def peek (o : Outline) : Except Fault Token :=
  match o.tokens with
  | token :: _ => .ok token
  | [] => .error o.outOfTokens

def skip (o : Outline) : Outline :=
  { o with tokens := o.tokens.drop 1 }

def leave (o : Outline) : Outline :=
  match o.outer with
  | [] => { o with expected := .nothing }
  | expected :: outer => { o with expected, outer }

def enter (o : Outline) (behind : Expected) : Outline :=
  { o with outer := behind :: o.outer }

def leaveCollection (o : Outline) : Outline :=
  { o.leave with starts := o.starts.drop 1 }

def emptyScalar (o : Outline) (mark : Mark) (expected : Expected) : Event × Outline :=
  (⟨.scalar {} "" true, mark⟩, { o with expected })

def resolveTag (o : Outline) (start mark : Mark) (handle suffix : String) : Except Fault String :=
  if handle.isEmpty then .ok suffix
  else
    match o.handles.find? fun entry => entry.1 == handle with
    | some (_, meaning) => .ok (meaning ++ suffix)
    | none => .error { problem := .undefinedTagHandle, mark, context := some (.node, start) }

/-- The properties at the next token: an anchor and a tag, in either order, each at most once. -/
def properties (o : Outline) : Except Fault (Mark × Properties × Outline) := do
  let first ← o.peek
  let start := first.mark
  match first.kind with
  | .anchor name =>
      let o := o.skip
      let second ← o.peek
      match second.kind with
      | .tag handle suffix =>
          let o := o.skip
          let _ ← o.peek
          let tag ← o.resolveTag start second.mark handle suffix
          return (start, { anchor := some name, tag := some tag }, o)
      | _ => return (start, { anchor := some name }, o)
  | .tag handle suffix =>
      let o := o.skip
      let second ← o.peek
      match second.kind with
      | .anchor name =>
          let o := o.skip
          let _ ← o.peek
          let tag ← o.resolveTag start first.mark handle suffix
          return (start, { anchor := some name, tag := some tag }, o)
      | _ =>
          let tag ← o.resolveTag start first.mark handle suffix
          return (start, { tag := some tag }, o)
  | _ => return (start, {}, o)

/-- The node left out before a token: with properties it is an empty scalar, without them a
fault. -/
def emptyNode (o : Outline) (block : Bool) (start : Mark) (properties : Properties)
    (token : Token) : Except Fault (Event × Outline) :=
  if properties.anchor.isSome || properties.tag.isSome then
    .ok (⟨.scalar properties "" true, start⟩, o.leave)
  else
    .error
      { problem := .missingNode, mark := token.mark
        context := some (if block then .blockNode else .flowNode, start) }

def node (o : Outline) (block indentless : Bool) : Except Fault (Event × Outline) := do
  let first ← o.peek
  if let .aliasOf name := first.kind then
    return (⟨.aliasOf name, first.mark⟩, o.skip.leave)
  let (start, properties, o) ← o.properties
  let token ← o.peek
  match token.kind with
  | .blockEntry =>
      if indentless then
        return (⟨.sequenceStart properties, start⟩,
          { o with expected := .indentlessSequenceEntry })
      else o.emptyNode block start properties token
  | .scalar text plain =>
      let properties :=
        if properties.tag = some "!" then { properties with tag := none } else properties
      return (⟨.scalar properties text plain, start⟩, o.skip.leave)
  | .flowSequenceStart =>
      return (⟨.sequenceStart properties, start⟩, { o with expected := .flowSequenceEntry true })
  | .flowMappingStart =>
      return (⟨.mappingStart properties, start⟩, { o with expected := .flowMappingKey true })
  | .blockSequenceStart =>
      if block then
        return (⟨.sequenceStart properties, start⟩,
          { o with expected := .blockSequenceEntry true })
      else o.emptyNode block start properties token
  | .blockMappingStart =>
      if block then
        return (⟨.mappingStart properties, start⟩, { o with expected := .blockMappingKey true })
      else o.emptyNode block start properties token
  | _ => o.emptyNode block start properties token

/-- Adds the handles that every document has, unless it gives them another meaning. -/
def withDefaultHandles (handles : List (String × String)) : List (String × String) :=
  let missing := [("!", "!"), ("!!", "tag:yaml.org,2002:")].filter fun entry =>
    !handles.any fun given => given.1 == entry.1
  handles ++ missing

def directives : List Token → Bool → Outline → Except Fault Outline
  | token :: rest, versioned, o =>
      match token.kind with
      | .versionDirective major minor =>
          if versioned then .error { problem := .repeatedVersion, mark := token.mark }
          else if major ≠ 1 ∨ (minor ≠ 1 ∧ minor ≠ 2) then
            .error { problem := .incompatibleVersion, mark := token.mark }
          else directives rest true { o with tokens := rest }
      | .tagDirective handle meaning =>
          if o.handles.any fun given => given.1 == handle then
            .error { problem := .repeatedTagHandle, mark := token.mark }
          else
            directives rest versioned
              { o with tokens := rest, handles := o.handles ++ [(handle, meaning)] }
      | _ => .ok { o with handles := withDefaultHandles o.handles }
  | [], _, o => .error o.outOfTokens

def skipDocumentEnds (o : Outline) : Outline :=
  { o with tokens := o.tokens.dropWhile fun token => token.kind == .documentEnd }

def document (o : Outline) (explicit : Bool) : Except Fault (Event × Outline) := do
  let o := if explicit then o.skipDocumentEnds else o
  let token ← o.peek
  let announced := match token.kind with
    | .versionDirective .. | .tagDirective .. | .documentStart => true
    | _ => false
  if token.kind = .streamEnd then
    return (⟨.streamEnd, token.mark⟩, { o with expected := .nothing })
  else if explicit || announced then
    let o ← directives o.tokens false o
    let start ← o.peek
    if start.kind ≠ .documentStart then
      throw { problem := .missingDocumentStart, mark := start.mark }
    return (⟨.documentStart, token.mark⟩,
      { o.skip.enter .documentEnd with expected := .documentContent })
  else
    let o := { o with handles := withDefaultHandles o.handles }
    return (⟨.documentStart, token.mark⟩, { o.enter .documentEnd with expected := .blockNode })

def documentContent (o : Outline) : Except Fault (Event × Outline) := do
  let token ← o.peek
  match token.kind with
  | .versionDirective .. | .tagDirective .. | .documentStart | .documentEnd | .streamEnd =>
      return (⟨.scalar {} "" true, token.mark⟩, o.leave)
  | _ => o.node true false

def documentEnd (o : Outline) : Except Fault (Event × Outline) := do
  let token ← o.peek
  let o := if token.kind = .documentEnd then o.skip else o
  return (⟨.documentEnd, token.mark⟩, { o with handles := [], expected := .document true })

/-- Moves past the token that opens a collection, if this is its first entry. -/
def openCollection (o : Outline) (first : Bool) : Except Fault Outline :=
  if first then do
    let token ← o.peek
    return { o.skip with starts := token.mark :: o.starts }
  else .ok o

def broken (o : Outline) (problem : Problem) (activity : Activity) (mark : Mark) : Fault :=
  { problem, mark, context := o.starts.head?.map fun start => (activity, start) }

def blockSequenceEntry (o : Outline) (first : Bool) : Except Fault (Event × Outline) := do
  let o ← o.openCollection first
  let token ← o.peek
  match token.kind with
  | .blockEntry =>
      let o := o.skip
      match (← o.peek).kind with
      | .blockEntry | .blockEnd => return o.emptyScalar token.mark (.blockSequenceEntry false)
      | _ => (o.enter (.blockSequenceEntry false)).node true false
  | .blockEnd => return (⟨.sequenceEnd, token.mark⟩, o.skip.leaveCollection)
  | _ => throw (o.broken .missingEntry .blockCollection token.mark)

/-- Reads an entry of a sequence that is indented no deeper than its key, or its end. -/
def indentlessSequenceEntry (o : Outline) : Except Fault (Event × Outline) := do
  let token ← o.peek
  match token.kind with
  | .blockEntry =>
      let o := o.skip
      match (← o.peek).kind with
      | .blockEntry | .key | .value | .blockEnd =>
          return o.emptyScalar token.mark .indentlessSequenceEntry
      | _ => (o.enter .indentlessSequenceEntry).node true false
  | _ => return (⟨.sequenceEnd, token.mark⟩, o.leave)

def blockMappingKey (o : Outline) (first : Bool) : Except Fault (Event × Outline) := do
  let o ← o.openCollection first
  let token ← o.peek
  match token.kind with
  | .key =>
      let o := o.skip
      match (← o.peek).kind with
      | .key | .value | .blockEnd => return o.emptyScalar token.mark .blockMappingValue
      | _ => (o.enter .blockMappingValue).node true true
  | .blockEnd => return (⟨.mappingEnd, token.mark⟩, o.skip.leaveCollection)
  | _ => throw (o.broken .missingKey .blockMapping token.mark)

def blockMappingValue (o : Outline) : Except Fault (Event × Outline) := do
  let token ← o.peek
  match token.kind with
  | .value =>
      let o := o.skip
      match (← o.peek).kind with
      | .key | .value | .blockEnd => return o.emptyScalar token.mark (.blockMappingKey false)
      | _ => (o.enter (.blockMappingKey false)).node true true
  | _ => return o.emptyScalar token.mark (.blockMappingKey false)

def flowSeparator (o : Outline) (first : Bool) (problem : Problem) (activity : Activity) :
    Except Fault Outline := do
  if first then
    return o
  let token ← o.peek
  if token.kind = .flowEntry then
    return o.skip
  throw (o.broken problem activity token.mark)

def flowSequenceEntry (o : Outline) (first : Bool) : Except Fault (Event × Outline) := do
  let o ← o.openCollection first
  let token ← o.peek
  if token.kind = .flowSequenceEnd then
    return (⟨.sequenceEnd, token.mark⟩, o.skip.leaveCollection)
  let o ← o.flowSeparator first .unclosedFlowSequence .flowSequence
  let token ← o.peek
  match token.kind with
  | .key => return (⟨.mappingStart {}, token.mark⟩, { o.skip with expected := .flowPairKey })
  | .flowSequenceEnd => return (⟨.sequenceEnd, token.mark⟩, o.skip.leaveCollection)
  | _ => (o.enter (.flowSequenceEntry false)).node false false

/-- Reads the key of a single pair in a flow sequence; a token in place of a key is dropped. -/
def flowPairKey (o : Outline) : Except Fault (Event × Outline) := do
  let token ← o.peek
  match token.kind with
  | .value | .flowEntry | .flowSequenceEnd => return o.skip.emptyScalar token.mark .flowPairValue
  | _ => (o.enter .flowPairValue).node false false

def flowPairValue (o : Outline) : Except Fault (Event × Outline) := do
  let token ← o.peek
  match token.kind with
  | .value =>
      let o := o.skip
      let token ← o.peek
      match token.kind with
      | .flowEntry | .flowSequenceEnd => return o.emptyScalar token.mark .flowPairEnd
      | _ => (o.enter .flowPairEnd).node false false
  | _ => return o.emptyScalar token.mark .flowPairEnd

def flowPairEnd (o : Outline) : Except Fault (Event × Outline) := do
  let token ← o.peek
  return (⟨.mappingEnd, token.mark⟩, { o with expected := .flowSequenceEntry false })

def flowMappingKey (o : Outline) (first : Bool) : Except Fault (Event × Outline) := do
  let o ← o.openCollection first
  let token ← o.peek
  if token.kind = .flowMappingEnd then
    return (⟨.mappingEnd, token.mark⟩, o.skip.leaveCollection)
  let o ← o.flowSeparator first .unclosedFlowMapping .flowMapping
  let token ← o.peek
  match token.kind with
  | .key =>
      let o := o.skip
      let token ← o.peek
      match token.kind with
      | .value | .flowEntry | .flowMappingEnd =>
          return o.emptyScalar token.mark (.flowMappingValue false)
      | _ => (o.enter (.flowMappingValue false)).node false false
  | .flowMappingEnd => return (⟨.mappingEnd, token.mark⟩, o.skip.leaveCollection)
  | _ => (o.enter (.flowMappingValue true)).node false false

/-- Reads a value of a flow mapping; a key without a colon has none. -/
def flowMappingValue (o : Outline) (empty : Bool) : Except Fault (Event × Outline) := do
  let token ← o.peek
  if empty then
    return o.emptyScalar token.mark (.flowMappingKey false)
  match token.kind with
  | .value =>
      let o := o.skip
      let token ← o.peek
      match token.kind with
      | .flowEntry | .flowMappingEnd => return o.emptyScalar token.mark (.flowMappingKey false)
      | _ => (o.enter (.flowMappingKey false)).node false false
  | _ => return o.emptyScalar token.mark (.flowMappingKey false)

def next (o : Outline) : Except Fault (Event × Outline) :=
  match o.expected with
  | .document explicit => o.document explicit
  | .documentContent => o.documentContent
  | .documentEnd => o.documentEnd
  | .blockNode => o.node true false
  | .blockSequenceEntry first => o.blockSequenceEntry first
  | .indentlessSequenceEntry => o.indentlessSequenceEntry
  | .blockMappingKey first => o.blockMappingKey first
  | .blockMappingValue => o.blockMappingValue
  | .flowSequenceEntry first => o.flowSequenceEntry first
  | .flowPairKey => o.flowPairKey
  | .flowPairValue => o.flowPairValue
  | .flowPairEnd => o.flowPairEnd
  | .flowMappingKey first => o.flowMappingKey first
  | .flowMappingValue empty => o.flowMappingValue empty
  | .nothing => .error o.outOfTokens

def run : Nat → Outline → List Event × Option Fault
  | 0, _ => ([], none)
  | fuel + 1, o =>
      match o.next with
      | .error fault => ([], some fault)
      | .ok (event, o) =>
          if event.kind = .streamEnd then ([event], none)
          else
            let (later, fault) := run fuel o
            (event :: later, fault)

end Outline

def events (text : List Char) : List Event × Option Fault :=
  let (tokens, tokenFault) := tokens text
  Outline.run (4 * tokens.length + 8) { tokens, tokenFault }

end Yaml
end StencilDesk
