/-!
# Arithmetic of the shell

Expressions over the integers of 64 bits, as they stand between the double parentheses of a script.
An expression is read into a tree first and then evaluated, because it may assign to variables.
-/

namespace Conformance.Machine.Shell

namespace Arithmetic

/-- A binary operation that always needs both of its operands. -/
inductive Operation where
  | add | sub | mul | div | rem
  | shiftLeft | shiftRight
  | less | lessEqual | greater | greaterEqual | equal | different
  | bitAnd | bitOr | bitXor
  deriving DecidableEq, Repr

inductive Expr where
  | number (n : Int)
  | variable (name : String)
  | negated (e : Expr)
  | complement (e : Expr)
  | not (e : Expr)
  | binary (op : Operation) (a b : Expr)
  | and (a b : Expr)
  | or (a b : Expr)
  | choice (condition yes no : Expr)
  /-- Sets a variable to a value, or to an operation on its own value and another. -/
  | assign (name : String) (op : Option Operation) (e : Expr)
  deriving Repr

/-! ## Reading -/

inductive Token where
  | number (n : Nat)
  | name (s : String)
  | symbol (s : String)
  deriving DecidableEq, Repr

/-- The symbols of expressions, longer ones first. -/
def symbols : List String :=
  ["<<=", ">>=", "<<", ">>", "<=", ">=", "==", "!=", "&&", "||", "+=", "-=", "*=", "/=", "%=",
    "&=", "^=", "|=", "+", "-", "*", "/", "%", "<", ">", "=", "!", "~", "&", "|", "^", "?", ":",
    "(", ")"]

def digit? (c : Char) : Option Nat :=
  if c.isDigit then some (c.toNat - '0'.toNat)
  else if 'a' ≤ c && c ≤ 'f' then some (c.toNat - 'a'.toNat + 10)
  else if 'A' ≤ c && c ≤ 'F' then some (c.toNat - 'A'.toNat + 10)
  else none

/-- The number that digits spell in a base. -/
def ofDigits? (base : Nat) (cs : List Char) : Option Nat :=
  cs.foldlM (fun n c ↦ do
    let d ← digit? c
    if d < base then return n * base + d else none) 0

/-- The number that a text spells: decimal, or with a leading zero octal or hexadecimal. -/
def number? : List Char → Option Nat
  | [] => none
  | '0' :: 'x' :: r | '0' :: 'X' :: r => if r.isEmpty then none else ofDigits? 16 r
  | '0' :: r => ofDigits? 8 r
  | cs => ofDigits? 10 cs

def tokens : Nat → List Char → Option (List Token)
  | 0, _ | _, [] => some []
  | fuel + 1, c :: r => do
    if c == ' ' || c == '\t' || c == '\n' then tokens fuel r
    else if c.isDigit then
      let cs := (c :: r).takeWhile Char.isAlphanum
      return .number (← number? cs) :: (← tokens fuel ((c :: r).drop cs.length))
    else if c.isAlpha || c == '_' then
      let cs := (c :: r).takeWhile fun c ↦ c.isAlphanum || c == '_'
      return .name (String.ofList cs) :: (← tokens fuel ((c :: r).drop cs.length))
    else
      let s ← symbols.find? fun s ↦ s.toList.isPrefixOf (c :: r)
      return .symbol s :: (← tokens fuel ((c :: r).drop s.length))

/-- The binary operations by how weakly they bind, the weakest first. -/
def levels : List (List (String × Operation)) :=
  [[("|", .bitOr)], [("^", .bitXor)], [("&", .bitAnd)],
    [("==", .equal), ("!=", .different)],
    [("<", .less), ("<=", .lessEqual), (">", .greater), (">=", .greaterEqual)],
    [("<<", .shiftLeft), (">>", .shiftRight)], [("+", .add), ("-", .sub)],
    [("*", .mul), ("/", .div), ("%", .rem)]]

/-- The assignments that also operate. -/
def assignments : List (String × Operation) :=
  [("+=", .add), ("-=", .sub), ("*=", .mul), ("/=", .div), ("%=", .rem), ("&=", .bitAnd),
    ("|=", .bitOr), ("^=", .bitXor), ("<<=", .shiftLeft), (">>=", .shiftRight)]

mutual

/-- Reads an assignment, or anything that binds more strongly. -/
def assignment : Nat → List Token → Option (Expr × List Token)
  | 0, _ => none
  | fuel + 1, .name x :: .symbol s :: r =>
    if s = "=" then (assignment fuel r).map fun (e, r) ↦ (.assign x none e, r)
    else
      match assignments.lookup s with
      | some op => (assignment fuel r).map fun (e, r) ↦ (.assign x (some op) e, r)
      | none => choice fuel (.name x :: .symbol s :: r)
  | fuel + 1, ts => choice fuel ts

/-- Reads a choice. -/
def choice : Nat → List Token → Option (Expr × List Token)
  | 0, _ => none
  | fuel + 1, ts => do
    match ← disjunction fuel ts with
    | (c, .symbol "?" :: r) =>
      match ← assignment fuel r with
      | (a, .symbol ":" :: r) =>
        let (b, r) ← choice fuel r
        return (.choice c a b, r)
      | _ => none
    | x => return x

/-- Reads terms joined by `||`. -/
def disjunction : Nat → List Token → Option (Expr × List Token)
  | 0, _ => none
  | fuel + 1, ts => do
    match ← conjunction fuel ts with
    | (a, .symbol "||" :: r) =>
      let (b, r) ← disjunction fuel r
      return (.or a b, r)
    | x => return x

/-- Reads terms joined by `&&`. -/
def conjunction : Nat → List Token → Option (Expr × List Token)
  | 0, _ => none
  | fuel + 1, ts => do
    match ← binary fuel levels ts with
    | (a, .symbol "&&" :: r) =>
      let (b, r) ← conjunction fuel r
      return (.and a b, r)
    | x => return x

/-- Reads terms joined by the operations of a level, or of a stronger one. -/
def binary : Nat → List (List (String × Operation)) → List Token → Option (Expr × List Token)
  | 0, _, _ => none
  | fuel + 1, [], ts => unary fuel ts
  | fuel + 1, level :: stronger, ts => do
    let (a, r) ← binary fuel stronger ts
    further fuel level stronger a r

/-- Reads on after the first term of a level. -/
def further : Nat → List (String × Operation) → List (List (String × Operation)) → Expr →
    List Token → Option (Expr × List Token)
  | 0, _, _, _, _ => none
  | fuel + 1, level, stronger, a, ts => do
    match ts with
    | .symbol s :: r =>
      match level.lookup s with
      | some op =>
        let (b, r) ← binary fuel stronger r
        further fuel level stronger (.binary op a b) r
      | none => return (a, ts)
    | _ => return (a, ts)

/-- Reads a term with the signs before it. -/
def unary : Nat → List Token → Option (Expr × List Token)
  | 0, _ => none
  | fuel + 1, ts =>
    match ts with
    | .symbol "-" :: r => (unary fuel r).map fun (e, r) ↦ (.negated e, r)
    | .symbol "+" :: r => unary fuel r
    | .symbol "!" :: r => (unary fuel r).map fun (e, r) ↦ (.not e, r)
    | .symbol "~" :: r => (unary fuel r).map fun (e, r) ↦ (.complement e, r)
    | .symbol "(" :: r =>
      match assignment fuel r with
      | some (e, .symbol ")" :: r) => some (e, r)
      | _ => none
    | .number n :: r => some (.number n, r)
    | .name x :: r => some (.variable x, r)
    | _ => none

end

/-- Reads a whole expression; no expression at all is zero. -/
def read? (text : String) : Option Expr := do
  let ts ← tokens text.length text.toList
  if ts.isEmpty then return .number 0
  match ← assignment (16 * ts.length + 32) ts with
  | (e, []) => return e
  | _ => none

/-! ## Evaluating -/

/-- An integer cut to 64 bits. -/
def wrap (n : Int) : Int := (Int64.ofInt n).toInt

/-- One for what is so and zero for what is not. -/
def ofBool (b : Bool) : Int := if b then 1 else 0

def Operation.apply : Operation → Int → Int → Except String Int
  | .add, a, b => .ok (wrap (a + b))
  | .sub, a, b => .ok (wrap (a - b))
  | .mul, a, b => .ok (wrap (a * b))
  | .div, a, b => if b = 0 then .error "division by zero" else .ok (wrap (a.tdiv b))
  | .rem, a, b => if b = 0 then .error "division by zero" else .ok (wrap (a.tmod b))
  | .shiftLeft, a, b => .ok (Int64.ofInt a <<< Int64.ofInt b).toInt
  | .shiftRight, a, b => .ok (Int64.ofInt a >>> Int64.ofInt b).toInt
  | .less, a, b => .ok (ofBool (a < b))
  | .lessEqual, a, b => .ok (ofBool (a ≤ b))
  | .greater, a, b => .ok (ofBool (b < a))
  | .greaterEqual, a, b => .ok (ofBool (b ≤ a))
  | .equal, a, b => .ok (ofBool (a = b))
  | .different, a, b => .ok (ofBool (a ≠ b))
  | .bitAnd, a, b => .ok (Int64.ofInt a &&& Int64.ofInt b).toInt
  | .bitOr, a, b => .ok (Int64.ofInt a ||| Int64.ofInt b).toInt
  | .bitXor, a, b => .ok (Int64.ofInt a ^^^ Int64.ofInt b).toInt

/-- The integer that the text of a variable spells; no text is zero. -/
def integer? (s : String) : Option Int :=
  match s.trimAscii.toString.toList with
  | [] => some 0
  | '-' :: r => (number? r).map fun n ↦ wrap (-n)
  | '+' :: r => (number? r).map fun n ↦ wrap n
  | cs => (number? cs).map fun n ↦ wrap n

/-- The value of an expression. The state holds the variables that were assigned on the way, the
latest first. -/
def Expr.eval (values : String → Option String) :
    Expr → StateT (List (String × Int)) (Except String) Int
  | .number n => return wrap n
  | .variable x => do
    match (← get).lookup x with
    | some n => return n
    | none =>
      let s := (values x).getD ""
      match integer? s with
      | some n => return n
      | none => throw ("Illegal number: " ++ s)
  | .negated e => do return wrap (-(← e.eval values))
  | .complement e => do return (~~~ Int64.ofInt (← e.eval values)).toInt
  | .not e => do return ofBool ((← e.eval values) = 0)
  | .binary op a b => do
    let x ← a.eval values
    let y ← b.eval values
    op.apply x y
  | .and a b => do
    if (← a.eval values) = 0 then return 0
    return ofBool ((← b.eval values) ≠ 0)
  | .or a b => do
    if (← a.eval values) ≠ 0 then return 1
    return ofBool ((← b.eval values) ≠ 0)
  | .choice c a b => do
    if (← c.eval values) ≠ 0 then a.eval values else b.eval values
  | .assign x op e => do
    let y ← e.eval values
    let n ← match op with
      | none => pure y
      | some op => do
        let v ← match (← get).lookup x with
          | some n => pure n
          | none =>
            match integer? ((values x).getD "") with
            | some n => pure n
            | none => throw ("Illegal number: " ++ (values x).getD "")
        op.apply v y
    modify ((x, n) :: ·)
    return n

/-- The value of the expression that a text spells, with the variables assigned in it, the latest
first. -/
def evaluate (values : String → Option String) (text : String) :
    Except String (Int × List (String × Int)) :=
  match read? text with
  | none => .error ("arithmetic expression: expecting primary: \"" ++ text ++ "\"")
  | some e =>
    match (e.eval values).run [] with
    | .ok r => .ok r
    | .error "division by zero" =>
      .error ("arithmetic expression: division by zero: \"" ++ text ++ "\"")
    | .error t => .error t

end Arithmetic

end Conformance.Machine.Shell
