import Groundwork.Yaml.Token
/-!
The nodes of a YAML document. A stream has to hold one document, or none at all.

An alias stays in its place; what it stands for is kept beside the nodes, since a node may contain an
alias of itself.
-/
namespace Groundwork.Yaml

inductive Node
  /-- The number of the anchor that is meant. -/
  | alias (anchor : Nat)
  | scalar (tag : Option String) (text : String) (style : Style)
  | sequence (items : List Node)
  | mapping (pairs : List (Node × Node))
  deriving Repr

/-- The anchors of a document. An anchor's number is the count of different names before it, so a
name that is used again may share its number with the next one; the node begun last counts. -/
structure Anchors where
  numbers : List (String × Nat) := []
  /-- Which anchored node a number means; the latest first. -/
  places : List (Nat × Nat) := []
  /-- The anchored nodes that are complete. -/
  nodes : List (Nat × Node) := []

namespace Anchors

/-- The number of an anchor that begins a node, and that node's place among the anchored ones. -/
def begin (a : Anchors) (name : String) : Nat × Anchors :=
  let number := a.numbers.length
  let place := a.places.length
  (place, { a with
    numbers := a.numbers.filter (·.1 ≠ name) ++ [(name, number)]
    places := (number, place) :: a.places })

def complete (a : Anchors) (place : Nat) (n : Node) : Anchors :=
  { a with nodes := (place, n) :: a.nodes }

def node? (a : Anchors) (number : Nat) : Option Node :=
  (a.places.lookup number).bind fun place => a.nodes.lookup place

end Anchors

structure Document where
  /-- None in a stream without a document. -/
  root : Option Node
  anchors : Anchors

/-- What an alias stands for; every other node stands for itself. -/
def Document.resolve (d : Document) : Node → Node
  | .alias number => (d.anchors.node? number).getD (.alias number)
  | n => n

/-- How far the tokens are read, and what the document has declared so far. -/
structure Progress where
  tokens : List Token
  handles : List (String × String) := []
  anchors : Anchors := {}

abbrev Parsing (α : Type) := StateT Progress (Except String) α

namespace Parsing

def peek : Parsing Token := do
  match (← get).tokens with
  | t :: _ => return t
  | [] => return .streamEnd

def advance : Parsing Unit := modify fun p => { p with tokens := p.tokens.tail }

/-- Handles that every document has. -/
def standardHandles : List (String × String) := [("!", "!"), ("!!", "tag:yaml.org,2002:")]

/-- The full name of a tag. A tag without a handle is written in full. -/
def fullTag (handle suffix : String) : Parsing String := do
  if handle = "" then return suffix
  else
    let p ← get
    match (p.handles ++ standardHandles).lookup handle with
    | some lead => return lead ++ suffix
    | none => throw "found undefined tag handle"

/-- What stands before the content of a node: an anchor and a tag, in either order. -/
def properties : Parsing (Option String × Option String) := do
  let anchor? : Parsing (Option String) := do
    match ← peek with
    | .anchor name => advance; return some name
    | _ => return none
  let tag? : Parsing (Option String) := do
    match ← peek with
    | .tag handle suffix => advance; return some (← fullTag handle suffix)
    | _ => return none
  match ← anchor? with
  | some name => return (some name, ← tag?)
  | none =>
    match ← tag? with
    | some tag => return (← anchor?, some tag)
    | none => return (none, none)

def emptyScalar (tag : Option String) : Node := .scalar tag "" .plain

/-- Whether a node is left out before this token of a mapping in blocks. -/
def endsBlockNode : Token → Bool
  | .key | .value | .blockEnd => true
  | _ => false

/-- Whether a node is left out before this token of a sequence without indentation. -/
def endsEntry : Token → Bool
  | .blockEntry | .key | .value | .blockEnd => true
  | _ => false

def endsFlowItem : Token → Bool
  | .flowEntry | .flowSequenceEnd => true
  | _ => false

def endsFlowPair : Token → Bool
  | .flowEntry | .flowMappingEnd => true
  | _ => false

def overflow : String := "the document is nested too deeply"

mutual

/-- The node that begins here. The first argument bounds the depth of the calls. -/
def node : Nat → (block indentless : Bool) → Parsing Node
  | 0, _, _ => throw overflow
  | fuel + 1, block, indentless => do
    match ← peek with
    | .alias name =>
      match (← get).anchors.numbers.lookup name with
      | some number => advance; return .alias number
      | none => throw "unknown anchor"
    | _ =>
      let (anchor, tag) ← properties
      match anchor with
      | none => content fuel block indentless false tag
      | some name =>
        let p ← get
        let (place, anchors) := p.anchors.begin name
        set { p with anchors }
        let n ← content fuel block indentless true tag
        modify fun p => { p with anchors := p.anchors.complete place n }
        return n

/-- The content of a node. It may be left out after an anchor or a tag. -/
def content : Nat → (block indentless anchored : Bool) → Option String → Parsing Node
  | 0, _, _, _, _ => throw overflow
  | fuel + 1, block, indentless, anchored, tag => do
    match ← peek with
    | .scalar text style => advance; return .scalar tag text style
    | .flowSequence => advance; return .sequence (← flowItems fuel true)
    | .flowMapping => advance; return .mapping (← flowPairs fuel true)
    | t =>
      if indentless && t == .blockEntry then return .sequence (← entries fuel)
      else if block && t == .blockSequence then advance; return .sequence (← blockItems fuel)
      else if block && t == .blockMapping then advance; return .mapping (← blockPairs fuel)
      else if anchored || tag.isSome then return emptyScalar tag
      else throw "did not find expected node content"

/-- The items of a sequence in a block of its own. -/
def blockItems : Nat → Parsing (List Node)
  | 0 => throw overflow
  | fuel + 1 => do
    match ← peek with
    | .blockEntry =>
      advance
      let t ← peek
      let n ← if t == .blockEntry || t == .blockEnd then pure (emptyScalar none)
        else node fuel true false
      return n :: (← blockItems fuel)
    | .blockEnd => advance; return []
    | _ => throw "did not find expected '-' indicator"

/-- The items of a sequence that stands at the indentation of the mapping around it. -/
def entries : Nat → Parsing (List Node)
  | 0 => throw overflow
  | fuel + 1 => do
    match ← peek with
    | .blockEntry =>
      advance
      let n ← if endsEntry (← peek) then pure (emptyScalar none) else node fuel true false
      return n :: (← entries fuel)
    | _ => return []

def blockPairs : Nat → Parsing (List (Node × Node))
  | 0 => throw overflow
  | fuel + 1 => do
    match ← peek with
    | .key =>
      advance
      let k ← if endsBlockNode (← peek) then pure (emptyScalar none) else node fuel true true
      let v ← blockValue fuel
      return (k, v) :: (← blockPairs fuel)
    | .blockEnd => advance; return []
    | _ => throw "did not find expected key"

def blockValue : Nat → Parsing Node
  | 0 => throw overflow
  | fuel + 1 => do
    match ← peek with
    | .value =>
      advance
      if endsBlockNode (← peek) then return emptyScalar none else node fuel true true
    | _ => return emptyScalar none

/-- The items of a sequence in brackets. A pair without braces is a mapping of its own. -/
def flowItems : Nat → (first : Bool) → Parsing (List Node)
  | 0, _ => throw overflow
  | fuel + 1, first => do
    if (← peek) == .flowSequenceEnd then advance; return []
    else
      if !first then
        if (← peek) == .flowEntry then advance
        else throw "did not find expected ',' or ']'"
      match ← peek with
      | .key =>
        advance
        let pair ← flowPair fuel
        return .mapping [pair] :: (← flowItems fuel false)
      | .flowSequenceEnd => advance; return []
      | _ =>
        let n ← node fuel false false
        return n :: (← flowItems fuel false)

/-- A pair inside brackets. A missing key takes the token in its place with it. -/
def flowPair : Nat → Parsing (Node × Node)
  | 0 => throw overflow
  | fuel + 1 => do
    let t ← peek
    let k ←
      if t == .value || endsFlowItem t then do advance; pure (emptyScalar none)
      else node fuel false false
    if (← peek) == .value then
      advance
      if endsFlowItem (← peek) then return (k, emptyScalar none)
      else return (k, ← node fuel false false)
    else return (k, emptyScalar none)

/-- The pairs of a mapping in braces. -/
def flowPairs : Nat → (first : Bool) → Parsing (List (Node × Node))
  | 0, _ => throw overflow
  | fuel + 1, first => do
    if (← peek) == .flowMappingEnd then advance; return []
    else
      if !first then
        if (← peek) == .flowEntry then advance
        else throw "did not find expected ',' or '\x7d'"
      match ← peek with
      | .key =>
        advance
        let t ← peek
        let k ← if t == .value || endsFlowPair t then pure (emptyScalar none)
          else node fuel false false
        let v ← flowValue fuel
        return (k, v) :: (← flowPairs fuel false)
      | .flowMappingEnd => advance; return []
      | _ =>
        let k ← node fuel false false
        return (k, emptyScalar none) :: (← flowPairs fuel false)

def flowValue : Nat → Parsing Node
  | 0 => throw overflow
  | fuel + 1 => do
    if (← peek) == .value then
      advance
      if endsFlowPair (← peek) then return emptyScalar none else node fuel false false
    else return emptyScalar none

end

/-- The directives before a document; whether a version was among them decides on the next one. -/
def directives : Nat → (versioned : Bool) → Parsing Unit
  | 0, _ => throw overflow
  | fuel + 1, versioned => do
    match ← peek with
    | .version major minor =>
      if versioned then throw "found duplicate %YAML directive"
      else if major ≠ 1 ∨ (minor ≠ 1 ∧ minor ≠ 2) then throw "found incompatible YAML document"
      else
        advance
        directives fuel true
    | .tagHandle handle lead =>
      if ((← get).handles.lookup handle).isSome then throw "found duplicate %TAG directive"
      else
        modify fun p => { p with handles := p.handles ++ [(handle, lead)] }
        advance
        directives fuel versioned
    | _ => return

/-- The root of a document that may be left out before a mark. -/
def rootNode (fuel : Nat) : Parsing Node := do
  match ← peek with
  | .version .. | .tagHandle .. | .documentStart | .documentEnd | .streamEnd =>
    return emptyScalar none
  | _ => node fuel true false

def skipDocumentEnds : Nat → Parsing Unit
  | 0 => throw overflow
  | fuel + 1 => do
    if (← peek) == .documentEnd then
      advance
      skipDocumentEnds fuel

/-- The only document of a stream. -/
def document (fuel : Nat) : Parsing (Option Node) := do
  match ← peek with
  | .streamEnd => return none
  | t =>
    let root ← match t with
      | .version .. | .tagHandle .. | .documentStart => do
        directives fuel false
        if (← peek) == .documentStart then
          advance
          rootNode fuel
        else throw "did not find expected <document start>"
      | _ => node fuel true false
    skipDocumentEnds fuel
    if (← peek) == .streamEnd then return some root
    else throw "more than one document"

end Parsing

namespace Document

def ofTokens (ts : List Token) : Reading Document := do
  let (root, p) ← (Parsing.document (3 * ts.length + 8)).run { tokens := ts }
  return ⟨root, p.anchors⟩

def parse (text : String) : Reading Document := do ofTokens (← tokens text)

end Document

end Groundwork.Yaml
