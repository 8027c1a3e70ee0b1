import Conformance.Yaml.Token
/-!
# Nodes of a YAML document

A node is a scalar, a sequence, a mapping or an alias of a node with an anchor. Nodes are read from
tokens by recursive descent; a function takes the tokens still to be read and gives the rest with
what it found. A node that has nothing but an anchor or a tag is an empty scalar, and so is an absent
key, value or item: it lies where the node was due.

All of these functions call each other, and every call but a bounded number in a row takes a token,
so the depth of the calls is bounded by the number of tokens.
-/

namespace Conformance.Yaml

inductive Node where
  | scalar (mark : Mark) (anchor tag : Option String) (style : Style) (text : String)
  | sequence (mark : Mark) (anchor : Option String) (items : List Node)
  | mapping (mark : Mark) (anchor : Option String) (entries : List (Node × Node))
  | alias (mark : Mark) (name : String)
  deriving Repr

namespace Node

def absent (m : Mark) : Node := .scalar m none none .plain ""

def anchor : Node → Option String
  | .scalar _ anchor .. => anchor
  | .sequence _ anchor _ => anchor
  | .mapping _ anchor _ => anchor
  | .alias .. => none

/-- The nodes that a node is made of, itself first, in the order of the text. -/
def preorder : Node → List Node
  | .sequence m anchor items => .sequence m anchor items :: preorderItems items
  | .mapping m anchor entries => .mapping m anchor entries :: preorderEntries entries
  | n => [n]
where
  /-- The nodes that the items of a sequence are made of. -/
  preorderItems : List Node → List Node
    | [] => []
    | n :: ns => n.preorder ++ preorderItems ns
  /-- The nodes that the entries of a mapping are made of. -/
  preorderEntries : List (Node × Node) → List Node
    | [] => []
    | (k, v) :: es => k.preorder ++ v.preorder ++ preorderEntries es

/-! ## Properties -/

/-- What stands before the content of a node. -/
structure Properties where
  /-- Where the first property begins, or else the content. -/
  mark : Mark
  anchor : Option String
  tag : Option TagText
  deriving DecidableEq, Repr

/-- Reads an anchor and a tag in either order. -/
def properties : List Token → Option (Properties × List Token)
  | ⟨.anchor a, m, _⟩ :: ⟨.tag t, _, _⟩ :: r => some (⟨m, some a, some t⟩, r)
  | ⟨.anchor a, m, _⟩ :: r => some (⟨m, some a, none⟩, r)
  | ⟨.tag t, m, _⟩ :: ⟨.anchor a, _, _⟩ :: r => some (⟨m, some a, some t⟩, r)
  | ⟨.tag t, m, _⟩ :: r => some (⟨m, none, some t⟩, r)
  | t :: r => some (⟨t.start, none, none⟩, t :: r)
  | [] => none

/-- The full text of a tag that may be absent. An unknown handle is an error. -/
def expandTag (handles : List (String × String)) : Option TagText → Option (Option String)
  | none => some none
  | some t => (Tag.expand? handles t).map some

/-- A node that has properties but no content. Without properties it is an error. -/
def empty (p : Properties) (tag : Option String) (ts : List Token) :
    Option (Node × List Token) :=
  if p.anchor.isSome || tag.isSome then some (.scalar p.mark p.anchor tag .plain "", ts) else none

/-! ## Content -/

/-- Whether a token can follow an absent key or value of a mapping that is marked by indentation. -/
def endsBlockEntry : Token.Kind → Bool
  | .key | .value | .blockEnd => true
  | _ => false

mutual

/-- Reads a node. `inBlock` allows collections marked by indentation, and `allowsItems` a sequence
that is not indented. -/
def read (handles : List (String × String)) (inBlock allowsItems : Bool) :
    Nat → List Token → Option (Node × List Token)
  | 0, _ => none
  | _ + 1, ⟨.alias name, m, _⟩ :: r => some (.alias m name, r)
  | fuel + 1, ts => do
    let (p, ts) ← properties ts
    let tag ← expandTag handles p.tag
    match ts with
    | [] => none
    | t :: r =>
      match t.kind with
      | .item =>
        if allowsItems then do
          let (items, r) ← readLooseItems handles fuel (t :: r)
          return (.sequence p.mark p.anchor items, r)
        else empty p tag (t :: r)
      | .scalar style text => some (.scalar p.mark p.anchor tag style text, r)
      | .flowSequenceStart => do
        let (items, r) ← readFlowItems handles true fuel r
        return (.sequence p.mark p.anchor items, r)
      | .flowMappingStart => do
        let (entries, r) ← readFlowEntries handles true fuel r
        return (.mapping p.mark p.anchor entries, r)
      | .blockSequenceStart =>
        if inBlock then do
          let (items, r) ← readItems handles fuel r
          return (.sequence p.mark p.anchor items, r)
        else empty p tag (t :: r)
      | .blockMappingStart =>
        if inBlock then do
          let (entries, r) ← readEntries handles fuel r
          return (.mapping p.mark p.anchor entries, r)
        else empty p tag (t :: r)
      | _ => empty p tag (t :: r)

/-- Reads the items of an indented sequence, with its end. -/
def readItems (handles : List (String × String)) : Nat → List Token → Option (List Node × List Token)
  | 0, _ => none
  | fuel + 1, ⟨.item, _, m⟩ :: t :: r => do
    let (n, r) ← match t.kind with
      | .item | .blockEnd => some (absent m, t :: r)
      | _ => read handles true false fuel (t :: r)
    let (ns, r) ← readItems handles fuel r
    return (n :: ns, r)
  | _ + 1, ⟨.blockEnd, _, _⟩ :: r => some ([], r)
  | _ + 1, _ => none

/-- Reads the items of a sequence that is not indented. It ends before the first token that is no
item. -/
def readLooseItems (handles : List (String × String)) :
    Nat → List Token → Option (List Node × List Token)
  | 0, _ => none
  | fuel + 1, ⟨.item, _, m⟩ :: t :: r => do
    let (n, r) ← if t.kind = .item || endsBlockEntry t.kind then some (absent m, t :: r)
      else read handles true false fuel (t :: r)
    let (ns, r) ← readLooseItems handles fuel r
    return (n :: ns, r)
  | _ + 1, r => some ([], r)

/-- Reads the entries of a mapping that is marked by indentation, with its end. -/
def readEntries (handles : List (String × String)) :
    Nat → List Token → Option (List (Node × Node) × List Token)
  | 0, _ => none
  | fuel + 1, ⟨.key, _, m⟩ :: t :: r => do
    let (k, r) ← if endsBlockEntry t.kind then some (absent m, t :: r)
      else read handles true true fuel (t :: r)
    let (v, r) ← match r with
      | ⟨.value, _, m⟩ :: t :: r =>
        if endsBlockEntry t.kind then some (absent m, t :: r)
        else read handles true true fuel (t :: r)
      | t :: r => some (absent t.start, t :: r)
      | [] => none
    let (es, r) ← readEntries handles fuel r
    return ((k, v) :: es, r)
  | _ + 1, ⟨.blockEnd, _, _⟩ :: r => some ([], r)
  | _ + 1, _ => none

/-- Reads the items of a sequence in brackets, with the closing bracket. Commas stand before all
items but the first. -/
def readFlowItems (handles : List (String × String)) (isFirst : Bool) :
    Nat → List Token → Option (List Node × List Token)
  | 0, _ => none
  | _ + 1, ⟨.flowSequenceEnd, _, _⟩ :: r => some ([], r)
  | fuel + 1, ts => do
    let ts ← if isFirst then some ts else match ts with
      | ⟨.comma, _, _⟩ :: r => some r
      | _ => none
    match ts with
    | ⟨.flowSequenceEnd, _, _⟩ :: r => some ([], r)
    | ⟨.key, m, _⟩ :: r => do
      let (e, r) ← readPair handles fuel r
      let (ns, r) ← readFlowItems handles false fuel r
      return (.mapping m none [e] :: ns, r)
    | ts => do
      let (n, r) ← read handles false false fuel ts
      let (ns, r) ← readFlowItems handles false fuel r
      return (n :: ns, r)

/-- Reads a key and its value inside a sequence in brackets, after the token of the key. Where the
key is absent, the token there is passed over. -/
def readPair (handles : List (String × String)) :
    Nat → List Token → Option ((Node × Node) × List Token)
  | 0, _ => none
  | _ + 1, [] => none
  | fuel + 1, t :: r => do
    let (k, r) ← match t.kind with
      | .value | .comma | .flowSequenceEnd => some (absent t.stop, r)
      | _ => read handles false false fuel (t :: r)
    let (v, r) ← readFlowValue handles .flowSequenceEnd fuel r
    return ((k, v), r)

/-- Reads the value of a key inside brackets that end with the token `closing`. -/
def readFlowValue (handles : List (String × String)) (closing : Token.Kind) :
    Nat → List Token → Option (Node × List Token)
  | 0, _ => none
  | fuel + 1, ⟨.value, _, _⟩ :: t :: r =>
    if t.kind = .comma || t.kind = closing then some (absent t.start, t :: r)
    else read handles false false fuel (t :: r)
  | _ + 1, t :: r => some (absent t.start, t :: r)
  | _ + 1, [] => none

/-- Reads the entries of a mapping in brackets, with the closing bracket. Commas stand before all
entries but the first. A node that is not marked as a key is a key without a value. -/
def readFlowEntries (handles : List (String × String)) (isFirst : Bool) :
    Nat → List Token → Option (List (Node × Node) × List Token)
  | 0, _ => none
  | _ + 1, ⟨.flowMappingEnd, _, _⟩ :: r => some ([], r)
  | fuel + 1, ts => do
    let ts ← if isFirst then some ts else match ts with
      | ⟨.comma, _, _⟩ :: r => some r
      | _ => none
    match ts with
    | ⟨.flowMappingEnd, _, _⟩ :: r => some ([], r)
    | ⟨.key, _, _⟩ :: t :: r => do
      let (k, r) ← match t.kind with
        | .value | .comma | .flowMappingEnd => some (absent t.start, t :: r)
        | _ => read handles false false fuel (t :: r)
      let (v, r) ← readFlowValue handles .flowMappingEnd fuel r
      let (es, r) ← readFlowEntries handles false fuel r
      return ((k, v) :: es, r)
    | ts => do
      let (k, r) ← read handles false false fuel ts
      let m ← (r.head?).map (·.start)
      let (es, r) ← readFlowEntries handles false fuel r
      return ((k, absent m) :: es, r)

end

/-- The node at the start of a document. -/
def root? (handles : List (String × String)) (ts : List Token) : Option (Node × List Token) :=
  read handles true false (4 * ts.length + 4) ts

end Node

end Conformance.Yaml
