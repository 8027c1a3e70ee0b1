import Conformance.Yaml.Node
/-!
# YAML documents

A text is well-formed if it can be cut into tokens, the tokens are one document, and every alias
names an anchor that stands before it.

## Anchors

An anchor gets the number of different anchor names that stand before it, and an alias refers to the
number that its name has at the alias. Of two nodes with one number the later counts, also for
aliases before it. Two nodes have one number only if the name of the first was in use already.
-/

namespace Conformance.Yaml

/-- What a value is, as seen from outside: what collections hold is left out. -/
inductive Shape where
  | scalar (tag : Option String) (style : Style) (text : String)
  | sequence
  | mapping
  deriving DecidableEq, Repr

/-- A value and the place where it begins. -/
structure Value where
  mark : Mark
  shape : Shape
  deriving DecidableEq, Repr

inductive Document where
  /-- Nothing but white space and comments. -/
  | blank
  /-- A single value that is no mapping. -/
  | single (value : Value)
  | mapping (mark : Mark) (entries : List (Value × Value))
  deriving DecidableEq, Repr

/-- The nodes with anchors up to some place. -/
structure Anchors where
  /-- The number of every name, each name once. -/
  numbers : List (String × Nat)
  /-- The nodes by number, the latest first. -/
  nodes : List (Nat × Node)

namespace Anchors

def none : Anchors := ⟨[], []⟩

def define (a : Anchors) (name : String) (n : Node) : Anchors :=
  let number := a.numbers.length
  ⟨(name, number) :: a.numbers.filter (·.1 ≠ name), (number, n) :: a.nodes⟩

/-- The anchors after a node, apart from what the node is made of. -/
def visit (a : Anchors) (n : Node) : Option Anchors :=
  match n with
  | .alias _ name => if (a.numbers.lookup name).isSome then some a else .none
  | n => match n.anchor with
    | .none => some a
    | some name => some (a.define name n)

/-- The anchors after a node and all that it is made of. -/
def visitAll (a : Anchors) (n : Node) : Option Anchors := n.preorder.foldlM visit a

end Anchors

/-- A node, or the number of the node that an alias stands for. -/
abbrev Reference := Node ⊕ Nat

/-- What a node refers to, with the anchors before it. -/
def Node.reference (a : Anchors) : Node → Option Reference
  | .alias _ name => (a.numbers.lookup name).map .inr
  | n => some (.inl n)

/-- The references of the entries of a mapping, and the anchors after them. -/
def references (a : Anchors) :
    List (Node × Node) → Option (List (Reference × Reference) × Anchors)
  | [] => some ([], a)
  | (k, v) :: es => do
    let key ← k.reference a
    let a ← a.visitAll k
    let value ← v.reference a
    let a ← a.visitAll v
    let (rest, a) ← references a es
    return ((key, value) :: rest, a)

/-- What a node is, seen from outside. -/
def Node.value? : Node → Option Value
  | .scalar m _ tag style text => some ⟨m, .scalar tag style text⟩
  | .sequence m .. => some ⟨m, .sequence⟩
  | .mapping m .. => some ⟨m, .mapping⟩
  | .alias .. => none

def Reference.value? (a : Anchors) : Reference → Option Value
  | .inl n => n.value?
  | .inr number => (a.nodes.lookup number).bind Node.value?

namespace Document

def ofNode? (n : Node) : Option Document :=
  match n with
  | .mapping m _ entries => do
    let (refs, a) ← references (← Anchors.none.visit n) entries
    let values ← refs.mapM fun (k, v) ↦ do return (← k.value? a, ← v.value? a)
    return .mapping m values
  | n => do
    let _ ← Anchors.none.visitAll n
    return .single (← n.value?)

/-! ## Where a document begins and ends -/

/-- What the directives before a document say. -/
structure Prologue where
  hasVersion : Bool
  handles : List (String × String)
  deriving DecidableEq, Repr

/-- Takes a directive into account. There is at most one for the version, which must be known, and
one for each handle. -/
def Prologue.add? (p : Prologue) : Directive → Option Prologue
  | .version major minor =>
    if p.hasVersion || major ≠ 1 || (minor ≠ 1 && minor ≠ 2) then none
    else some { p with hasVersion := true }
  | .handle name expansion =>
    if (p.handles.lookup name).isSome then none
    else some { p with handles := p.handles ++ [(name, expansion)] }

/-- Reads the directives before a document. -/
def prologue? (p : Prologue) : List Token → Option (Prologue × List Token)
  | ⟨.directive d, _, _⟩ :: r => do prologue? (← p.add? d) r
  | r => some (p, r)

/-- Whether a token ends a document or begins another. -/
def isBoundary : Token.Kind → Bool
  | .directive _ | .documentStart | .documentEnd | .streamEnd => true
  | _ => false

/-- Whether nothing follows a document but its end. -/
def isFinished (ts : List Token) : Bool :=
  match ts.dropWhile (·.kind = .documentEnd) with
  | ⟨.streamEnd, _, _⟩ :: _ => true
  | _ => false

/-- Reads the content of a document that begins with a line of its own. It may be absent. -/
def content? (handles : List (String × String)) : List Token → Option (Node × List Token)
  | [] => none
  | t :: r =>
    if isBoundary t.kind then some (Node.absent t.start, t :: r)
    else Node.root? handles (t :: r)

/-- The document of a list of tokens, which must be the only one. -/
def ofTokens? (ts : List Token) : Option Document :=
  match ts with
  | [] => none
  | t :: _ =>
    if t.kind = .streamEnd then some .blank
    else do
      let (p, ts) ← prologue? ⟨false, []⟩ ts
      let handles := p.handles ++ Tag.standardHandles
      let (n, ts) ← match t.kind, ts with
        | .directive _, ⟨.documentStart, _, _⟩ :: r => content? handles r
        | .directive _, _ => none
        | _, ⟨.documentStart, _, _⟩ :: r => content? handles r
        | _, ts => Node.root? handles ts
      if isFinished ts then ofNode? n else none

/-- The document of a text, if it is well-formed. -/
def ofText? (s : String) : Option Document := do ofTokens? (← tokens? s.toList)

end Document

end Conformance.Yaml
