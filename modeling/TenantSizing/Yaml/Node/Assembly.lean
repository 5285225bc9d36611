import TenantSizing.Keyed
import TenantSizing.Yaml.Node
import TenantSizing.Yaml.Token

namespace TenantSizing.Yaml

/-- What is left of the tokens, the nodes so far, and what anchors and tag handles stand for. -/
structure Assembly where
  tokens : List Token
  nodes : Nodes := #[]
  anchors : Keyed Ref := []
  handles : Keyed String
  /-- How many collections are open. -/
  depth : Nat := 0

abbrev Assemble := StateT Assembly (Except Fault)

namespace Assemble

def defaultHandles : Keyed String :=
  [("!", "!"), ("!!", "tag:yaml.org,2002:")]

def stop {α : Type} : Assemble α :=
  throw .malformed

def peek : Assemble Token := do
  match (← get).tokens with
  | .fault fault :: _ => throw fault
  | token :: _ => pure token
  | [] => stop

def drop : Assemble Unit :=
  modify fun a => { a with tokens := a.tokens.tail }

def accept (token : Token) : Assemble Bool := do
  if (← peek) = token then
    drop
    pure true
  else pure false

def sees (tokens : List Token) : Assemble Bool := do
  pure (tokens.contains (← peek))

def tagName (handle : Option String) (rest : String) : Assemble String := do
  match handle with
  | none => pure rest
  | some handle =>
    match (← get).handles.lookup handle with
    | some meaning => pure (meaning ++ rest)
    | none => stop

/-- The anchor and the tag in front of a node, in either order. -/
def properties : Assemble (Option String × Option String) := do
  match ← peek with
  | .anchor name =>
    drop
    match ← peek with
    | .tag handle rest =>
      drop
      pure (some name, some (← tagName handle rest))
    | _ => pure (some name, none)
  | .tag handle rest =>
    drop
    match ← peek with
    | .anchor name =>
      drop
      pure (some name, some (← tagName handle rest))
    | _ => pure (none, some (← tagName handle rest))
  | _ => pure (none, none)

/-- Adds a node, which an anchor may name. An anchor is set once in a document. -/
def add (anchor : Option String) (tag : Tag) (content : Content) : Assemble Ref := do
  match anchor with
  | none => pure ()
  | some name => if Keyed.has (← get).anchors name then stop
  modifyGet fun a =>
    let ref := a.nodes.size
    let anchors := match anchor with
      | none => a.anchors
      | some name => Keyed.insert a.anchors name ref
    (ref, { a with nodes := a.nodes.push { tag, content }, anchors })

def absent : Assemble Ref :=
  add none .null (.scalar "")

/-- The tag of a node that has none by itself. The lone exclamation mark gives it none either. -/
def givenTag (name : Option String) (fallback : Tag) : Tag :=
  match name with
  | none => fallback
  | some "!" => fallback
  | some name => .ofName name

/-- Adds a node of which there is nothing but an anchor or a tag. -/
def empty (anchor tag : Option String) : Assemble Ref := do
  if anchor.isNone && tag.isNone then stop
  else add anchor (givenTag tag .null) (.scalar "")

/-- Adds a collection. It is there before its contents, which may refer to it. -/
def collection (anchor : Option String) (tag : Tag) (start : Content)
    (contents : Assemble Content) : Assemble Ref := do
  let ref ← add anchor tag start
  let depth := (← get).depth
  if maxDepth ≤ depth then throw .tooDeep
  modify fun a => { a with depth := depth + 1 }
  let content ← contents
  modify fun a => { a with nodes := a.nodes.setContent ref content, depth }
  pure ref

def sequence (anchor tag : Option String) (items : Assemble (List Ref)) : Assemble Ref :=
  collection anchor (givenTag tag .seq) (.sequence []) (Content.sequence <$> items)

def mapping (anchor tag : Option String) (entries : Assemble (List (Ref × Ref))) :
    Assemble Ref :=
  collection anchor (givenTag tag .map) (.mapping []) (Content.mapping <$> entries)

/-- Where a node stands decides which collections it may be. -/
inductive Place where
  | flow
  | block
  /-- The value of a block mapping may be a sequence that is not indented. -/
  | blockValue
  deriving DecidableEq, Repr

mutual

/-- One node. `fuel` bounds the depth and the number of the nodes below it. -/
def node (place : Place) : Nat → Assemble Ref
  | 0 => stop
  | fuel + 1 => do
    match ← peek with
    | .alias name =>
      drop
      match (← get).anchors.lookup name with
      | some ref => pure ref
      | none => stop
    | _ =>
      let (anchor, tag) ← properties
      let token ← peek
      if place = .blockValue && token = .blockEntry then
        sequence anchor tag (indentless fuel [])
      else
        match token with
        | .scalar text plain =>
          drop
          let isPlain := (plain && tag.isNone) || tag == some "!"
          add anchor (if isPlain then plainTag text else givenTag tag .str) (.scalar text)
        | .flowSequenceStart =>
          drop
          sequence anchor tag (flowItems fuel [])
        | .flowMappingStart =>
          drop
          mapping anchor tag (flowEntries fuel [])
        | .blockSequenceStart =>
          if place = .flow then empty anchor tag
          else
            drop
            sequence anchor tag (blockItems fuel [])
        | .blockMappingStart =>
          if place = .flow then empty anchor tag
          else
            drop
            mapping anchor tag (blockEntries fuel [])
        | _ => empty anchor tag

/-- A node, or nothing in front of one of the given tokens. -/
def optional (place : Place) (ends : List Token) : Nat → Assemble Ref
  | 0 => stop
  | fuel + 1 => do
    if ← sees ends then absent else node place fuel

def blockItems : Nat → List Ref → Assemble (List Ref)
  | 0, _ => stop
  | fuel + 1, items => do
    if ← accept .blockEntry then
      let item ← optional .block [.blockEntry, .blockEnd] fuel
      blockItems fuel (item :: items)
    else if ← accept .blockEnd then pure items.reverse
    else stop

def indentless : Nat → List Ref → Assemble (List Ref)
  | 0, _ => stop
  | fuel + 1, items => do
    if ← accept .blockEntry then
      let item ← optional .block [.blockEntry, .key, .value, .blockEnd] fuel
      indentless fuel (item :: items)
    else pure items.reverse

def blockEntries : Nat → List (Ref × Ref) → Assemble (List (Ref × Ref))
  | 0, _ => stop
  | fuel + 1, entries => do
    if ← accept .key then
      let key ← optional .blockValue [.key, .value, .blockEnd] fuel
      let value ←
        if ← accept .value then optional .blockValue [.key, .value, .blockEnd] fuel else absent
      blockEntries fuel ((key, value) :: entries)
    else if ← accept .blockEnd then pure entries.reverse
    else stop

/-- The items of a flow sequence. A key among them makes a mapping of one entry. -/
def flowItems : Nat → List Ref → Assemble (List Ref)
  | 0, _ => stop
  | fuel + 1, items => do
    if ← accept .flowSequenceEnd then pure items.reverse
    else
      if !items.isEmpty then
        if !(← accept .flowEntry) then stop
      if ← accept .key then
        let item ← mapping none none do
          let key ← optional .flow [.value, .flowEntry, .flowSequenceEnd] fuel
          let value ←
            if ← accept .value then optional .flow [.flowEntry, .flowSequenceEnd] fuel else absent
          pure [(key, value)]
        flowItems fuel (item :: items)
      else if ← accept .flowSequenceEnd then pure items.reverse
      else
        let item ← node .flow fuel
        flowItems fuel (item :: items)

def flowEntries : Nat → List (Ref × Ref) → Assemble (List (Ref × Ref))
  | 0, _ => stop
  | fuel + 1, entries => do
    if ← accept .flowMappingEnd then pure entries.reverse
    else
      if !entries.isEmpty then
        if !(← accept .flowEntry) then stop
      if ← accept .key then
        let key ← optional .flow [.value, .flowEntry, .flowMappingEnd] fuel
        let value ←
          if ← accept .value then optional .flow [.flowEntry, .flowMappingEnd] fuel else absent
        flowEntries fuel ((key, value) :: entries)
      else if ← accept .flowMappingEnd then pure entries.reverse
      else
        let key ← node .flow fuel
        let value ← absent
        flowEntries fuel ((key, value) :: entries)

end

def directives : Nat → Bool → Keyed String → Assemble (Keyed String)
  | 0, _, _ => stop
  | fuel + 1, versioned, handles => do
    match ← peek with
    | .directive (.version major) =>
      drop
      if versioned || major != 1 then stop else directives fuel true handles
    | .directive (.tag handle uri) =>
      drop
      if Keyed.has handles handle then stop
      else directives fuel versioned (handles ++ [(handle, uri)])
    | .directive .other =>
      drop
      directives fuel versioned handles
    | _ => pure (handles ++ Keyed.without defaultHandles handles)

def skipDocumentEnds : Nat → Assemble Unit
  | 0 => stop
  | fuel + 1 => do
    if ← accept .documentEnd then skipDocumentEnds fuel else pure ()

/-- The root of the only document; none if there is no document. Directives of a document to follow
are read before it is refused. -/
def document (fuel : Nat) : Assemble (Option Ref) := do
  match ← peek with
  | .streamEnd => pure none
  | first =>
    let explicit := match first with
      | .directive _ => true
      | .documentStart => true
      | _ => false
    let root ←
      if explicit then
        let handles ← directives fuel false []
        modify fun a => { a with handles }
        if !(← accept .documentStart) then stop
        match ← peek with
        | .directive _ => absent
        | .documentStart => absent
        | .documentEnd => absent
        | .streamEnd => absent
        | _ => node .block fuel
      else node .block fuel
    skipDocumentEnds fuel
    if ← accept .streamEnd then pure (some root)
    else
      let _ ← directives fuel false []
      stop

end Assemble

def Nodes.ofTokens? (tokens : List Token) : Except Fault (Nodes × Option Ref) :=
  let start : Assembly := { tokens, handles := Assemble.defaultHandles }
  (Assemble.document (2 * tokens.length + 2) start).map fun (root, a) => (a.nodes, root)

end TenantSizing.Yaml
