import SqlWorkflow.Yaml.Layout

/-!
# YAML nodes

A document is a node: a scalar, a sequence or a mapping, perhaps with a tag. A
node may stand for an earlier one that has an anchor, which is thereby repeated;
a document with too many repetitions for its size is refused. A text holds at
most one document here.
-/

namespace SqlWorkflow.Yaml

inductive Node
  | scalar (tag : Option String) (text : String) (isPlain : Bool)
  | sequence (tag : Option String) (items : List Node)
  | mapping (tag : Option String) (entries : List (Node × Node))

/-- The node that stands where none is written. -/
def Node.absent : Node := .scalar none "" true

/-- A node that can be repeated, with the number of repetitions in it. -/
structure Anchored where
  node : Node
  repetitions : Nat

/-- The tokens that are left, with the anchors before them. -/
structure Stream where
  tokens : List Token
  /-- The anchors, latest first; the node of an anchor is unknown until it
  ends. -/
  anchors : List (String × Option Anchored)
  /-- What the handles of tags stand for. -/
  handles : List (String × String)
  /-- The size of what was read: one for each scalar and each place of a
  repeated node, two for each collection. -/
  size : Nat
  /-- The number of repetitions in what was read, with those in repeated
  nodes. -/
  repetitions : Nat

namespace Stream

/-- Before the first token. -/
def start (handles : List (String × String)) (tokens : List Token) : Stream :=
  ⟨tokens, [], handles, 0, 0⟩

def tail (s : Stream) : Stream := { s with tokens := s.tokens.drop 1 }

def grow (size : Nat) (s : Stream) : Stream := { s with size := s.size + size }

/-- Whether the next token is one of some; the end of the stream is none. -/
def isAt (s : Stream) (choice : List Token) : Bool :=
  s.tokens.head?.any (· ∈ choice)

def declare (name : Option String) (s : Stream) : Stream :=
  match name with
  | some n => { s with anchors := (n, none) :: s.anchors }
  | none => s

/-- Gives the node to the latest declaration of an anchor. -/
def define (name : String) (node : Anchored) :
    List (String × Option Anchored) → List (String × Option Anchored)
  | [] => []
  | (n, known) :: rest =>
    if n = name then (n, known.or (some node)) :: rest
    else (n, known) :: define name node rest

/-- Ends a node that may have an anchor and began after `before` repetitions. -/
def complete (name : Option String) (before : Nat) (node : Node)
    (s : Stream) : Node × Stream :=
  match name with
  | some n =>
    (node,
      { s with anchors := define n ⟨node, s.repetitions - before⟩ s.anchors })
  | none => (node, s)

/-- The node that an anchor stands for, and the stream after its repetition. -/
def again (name : String) (s : Stream) : Option (Node × Stream) :=
  match s.anchors.lookup name with
  | some (some known) =>
    let repetitions := s.repetitions + 1 + known.repetitions
    some (known.node, { s.tail.grow 1 with repetitions := repetitions })
  | _ => none

def fullTag (s : Stream) (handle suffix : String) : Option String :=
  if handle.isEmpty then some suffix
  else (s.handles.lookup handle).map (· ++ suffix)

end Stream

structure Properties where
  anchor : Option String
  tag : Option String

/-- Reads the anchor and the tag before a node, in any order. -/
def readProperties (s : Stream) : Option (Properties × Stream) :=
  match s.tokens with
  | .anchor name :: .tag handle suffix :: _ =>
    (s.fullTag handle suffix).map fun tag =>
      (⟨some name, some tag⟩, s.tail.tail)
  | .tag handle suffix :: .anchor name :: _ =>
    (s.fullTag handle suffix).map fun tag =>
      (⟨some name, some tag⟩, s.tail.tail)
  | .anchor name :: _ => some (⟨some name, none⟩, s.tail)
  | .tag handle suffix :: _ =>
    (s.fullTag handle suffix).map fun tag => (⟨none, some tag⟩, s.tail)
  | _ => some (⟨none, none⟩, s)

inductive Flow
  | sequence
  | mapping
  deriving DecidableEq

/-- The token that ends a flow collection. -/
def Flow.closing : Flow → Token
  | .sequence => .flowSequenceEnd
  | .mapping => .flowMappingEnd

/-- The node that is left out after its properties; without properties there is
none. -/
def absent (properties : Properties) (s : Stream) : Option (Node × Stream) :=
  if properties.anchor.isSome || properties.tag.isSome then
    some (.scalar properties.tag "" true, s.grow 1)
  else none

/-- Passes over the comma before all items of a flow collection but the
first. -/
def flowSeparator (isFirst : Bool) (s : Stream) : Option Stream :=
  if isFirst then some s else if s.isAt [.flowEntry] then some s.tail else none

mutual

/-- A node. `block` admits collections in block style, and `dashes` a sequence
that is not indented. -/
def readNode (fuel : Nat) (block dashes : Bool)
    (s : Stream) : Option (Node × Stream) :=
  match fuel with
  | 0 => none
  | fuel + 1 =>
    match s.tokens with
    | .again name :: _ => s.again name
    | _ =>
      match readProperties s with
      | none => none
      | some (properties, s) =>
        (readContent fuel block dashes properties
          (s.declare properties.anchor)).map fun (node, after) =>
            after.complete properties.anchor s.repetitions node

def readContent (fuel : Nat) (block dashes : Bool) (properties : Properties)
    (s : Stream) : Option (Node × Stream) :=
  match fuel with
  | 0 => none
  | fuel + 1 =>
    let tag := properties.tag
    match s.tokens with
    | .scalar text isPlain :: _ =>
      some (.scalar (if tag = some "!" then none else tag) text isPlain,
        s.tail.grow 1)
    | .flowSequence :: _ =>
      (readFlowItems fuel true (s.tail.grow 2)).map fun (items, s) =>
        (.sequence tag items, s)
    | .flowMapping :: _ =>
      (readFlowEntries fuel true (s.tail.grow 2)).map fun (entries, s) =>
        (.mapping tag entries, s)
    | .blockSequence :: _ =>
      if block then
        (readItems fuel true (s.tail.grow 2)).map fun (items, s) =>
          (.sequence tag items, s)
      else absent properties s
    | .blockMapping :: _ =>
      if block then
        (readEntries fuel (s.tail.grow 2)).map fun (entries, s) =>
          (.mapping tag entries, s)
      else absent properties s
    | .blockEntry :: _ =>
      if dashes then
        (readItems fuel false (s.grow 2)).map fun (items, s) =>
          (.sequence tag items, s)
      else absent properties s
    | _ => absent properties s

/-- A node, unless the next token is one of those that leave it out. -/
def readOptional (fuel : Nat) (block dashes : Bool) (without : List Token)
    (s : Stream) : Option (Node × Stream) :=
  match fuel with
  | 0 => none
  | fuel + 1 =>
    if s.isAt without then
      some (.absent, s.grow 1) else readNode fuel block dashes s

/-- The items of a sequence in block style; `indented` ones have a token at
their end. -/
def readItems (fuel : Nat) (indented : Bool)
    (s : Stream) : Option (List Node × Stream) :=
  match fuel with
  | 0 => none
  | fuel + 1 =>
    match s.tokens with
    | .blockEntry :: _ =>
      let without :=
        [.blockEntry, .blockEnd] ++ (if indented then [] else [.key, .value])
      match readOptional fuel true false without s.tail with
      | none => none
      | some (item, s) =>
        (readItems fuel indented s).map fun (items, s) => (item :: items, s)
    | .blockEnd :: _ => some ([], if indented then s.tail else s)
    | _ => if indented then none else some ([], s)

def readEntries (fuel : Nat)
    (s : Stream) : Option (List (Node × Node) × Stream) :=
  match fuel with
  | 0 => none
  | fuel + 1 =>
    match s.tokens with
    | .key :: _ =>
      match readOptional fuel true true [.key, .value, .blockEnd] s.tail with
      | none => none
      | some (key, s) =>
        match readValue fuel true [.key, .value, .blockEnd] s with
        | none => none
        | some (value, s) =>
          (readEntries fuel s).map fun (entries, s) =>
            ((key, value) :: entries, s)
    | .blockEnd :: _ => some ([], s.tail)
    | _ => none

/-- The value of an entry, which may be left out. -/
def readValue (fuel : Nat) (block : Bool) (without : List Token) (s : Stream) :
    Option (Node × Stream) :=
  match fuel with
  | 0 => none
  | fuel + 1 =>
    match s.tokens with
    | .value :: _ => readOptional fuel block block without s.tail
    | _ => some (.absent, s.grow 1)

/-- The items of a sequence in flow style. An item may be a mapping with one
entry. -/
def readFlowItems (fuel : Nat) (isFirst : Bool)
    (s : Stream) : Option (List Node × Stream) :=
  match fuel with
  | 0 => none
  | fuel + 1 =>
    if s.isAt [.flowSequenceEnd] then some ([], s.tail)
    else
      match flowSeparator isFirst s with
      | none => none
      | some s =>
        if s.isAt [.flowSequenceEnd] then some ([], s.tail)
        else
          let item :=
            if s.isAt [.key] then
              (readFlowPair fuel .sequence (s.tail.grow 2)).map
                fun (entry, s) => (.mapping none [entry], s)
            else readNode fuel false false s
          match item with
          | none => none
          | some (item, s) =>
            (readFlowItems fuel false s).map fun (items, s) =>
              (item :: items, s)

/-- An entry of a collection in flow style, after its mark. In a sequence the
token that shows that the key is left out is passed over with it. -/
def readFlowPair (fuel : Nat) (flow : Flow)
    (s : Stream) : Option ((Node × Node) × Stream) :=
  match fuel with
  | 0 => none
  | fuel + 1 =>
    let without := [.value, .flowEntry, flow.closing]
    let key :=
      if flow = .sequence && s.isAt without then some (.absent, s.tail.grow 1)
      else readOptional fuel false false without s
    match key with
    | none => none
    | some (key, s) =>
      (readValue fuel false [.flowEntry, flow.closing] s).map fun (value, s) =>
        ((key, value), s)

/-- The entries of a mapping in flow style. An entry without a mark is a key
without a value. -/
def readFlowEntries (fuel : Nat) (isFirst : Bool) (s : Stream) :
    Option (List (Node × Node) × Stream) :=
  match fuel with
  | 0 => none
  | fuel + 1 =>
    if s.isAt [.flowMappingEnd] then some ([], s.tail)
    else
      match flowSeparator isFirst s with
      | none => none
      | some s =>
        if s.isAt [.flowMappingEnd] then some ([], s.tail)
        else
          let entry :=
            if s.isAt [.key] then readFlowPair fuel .mapping s.tail
            else (readNode fuel false false s).map fun (key, s) =>
              ((key, .absent), s.grow 1)
          match entry with
          | none => none
          | some (entry, s) =>
            (readFlowEntries fuel false s).map fun (entries, s) =>
              (entry :: entries, s)

end

/-- The directives before a document, which declare its version and handles for
tags. -/
def readDirectives : List Token → Option Nat → List (String × String) →
    Option (List (String × String) × List Token)
  | .version major minor :: rest, seen, handles =>
    if seen.isSome || major != 1 || (minor != 1 && minor != 2) then none
    else readDirectives rest (some minor) handles
  | .tagHandle handle expansion :: rest, seen, handles =>
    if (handles.lookup handle).isSome then none
    else readDirectives rest seen ((handle, expansion) :: handles)
  | tokens, _, handles => some (handles, tokens)

def isDirective : Token → Bool
  | .version _ _ | .tagHandle _ _ => true
  | _ => false

/-- The handles that need no directive. -/
def defaultHandles : List (String × String) :=
  [("!", "!"), ("!!", "tag:yaml.org,2002:")]

/-- Whether nothing but ends of documents is left. -/
def isOver (tokens : List Token) : Bool :=
  tokens.all (· == .documentEnd)

/-- The document that begins after its marks, if nothing follows it and it has
at most a hundred repetitions for each unit of its size. -/
def readDocument (handles : List (String × String))
    (tokens : List Token) : Option Node :=
  match readNode (8 * tokens.length + 8) true false
    (.start (handles ++ defaultHandles) tokens) with
  | some (node, s) =>
    if isOver s.tokens && s.repetitions ≤ 100 * s.size then some node else none
  | none => none

/-- The document of a text with marks, which may hold nothing. -/
def readMarked (tokens : List Token) : Option Node :=
  match readDirectives tokens none [] with
  | some (handles, .documentStart :: rest) =>
    if isOver rest then some .absent else readDocument handles rest
  | _ => none

/-- The document of a text; none if the text is not YAML or holds several
documents, and nothing if it holds none. -/
def document? (text : String) : Option (Option Node) :=
  match tokens? text.toList with
  | none => none
  | some [] => some none
  | some (first :: rest) =>
    if first = .documentStart || isDirective first then
      (readMarked (first :: rest)).map some
    else (readDocument [] (first :: rest)).map some

end SqlWorkflow.Yaml
