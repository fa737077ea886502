import L1Agent.Engine.Journal
import L1Agent.Library.JsonEq
import L1Agent.Library.PyText
import Mathlib.Algebra.Order.Ring.Rat
import Mathlib.Data.List.Infix
import Mathlib.Data.String.Basic

/-! # Expressions (`engine/expressions.py`)

The language of DECISION rules and VERIFY assertions: a text is cut into tokens (`tokenize`), the
tokens are read by recursive descent (`parse`), and the tree is evaluated in a context
(`evaluate`).

The type `F` of the numbers with a point is left open for the parser, which never looks at them.
Its functions take a depth, and a run that reaches the end of it raises a RecursionError;
`parse` gives a depth that is never reached.

The errors have their texts as in the source, and all of them are ExpressionErrors but that one.
What the tokeniser, the parser and the evaluator accept is the subject of `Engine/Lexemes.lean`,
`Engine/Grammar.lean` and `Engine/Comparisons.lean`.
-/
namespace L1Agent

/-! ## The tree -/

/-- A literal that a list may hold. -/
inductive Scalar (F : Type) where
  | null
  | bool (b : Bool)
  | int (n : Int)
  | float (x : F)
  | str (s : String)
  deriving DecidableEq, Repr

inductive Order where
  | le | ge | lt | gt
  deriving DecidableEq, Repr

inductive Symbol where
  | eq | ne
  | order (o : Order)
  deriving DecidableEq, Repr

inductive Comparison where
  | symbol (s : Symbol)
  | isIn
  | notIn
  deriving DecidableEq, Repr

/-- A segment of a path. -/
inductive Key where
  | name (s : String)
  | index (n : Int)
  deriving DecidableEq, Repr

inductive Expr (F : Type) where
  | scalar (v : Scalar F)
  | list (items : List (Scalar F))
  | path (root : String) (keys : List Key)
  | not (a : Expr F)
  | and (a b : Expr F)
  | or (a b : Expr F)
  | cmp (op : Comparison) (a b : Expr F)
  deriving DecidableEq, Repr

/-! ## Tokens -/

inductive Punct where
  | openParen | closeParen | openBracket | closeBracket | dot | comma
  deriving DecidableEq, Repr

/-- `_KEYWORDS` -/
inductive Keyword where
  | and | or | not | in | true | false | null
  deriving DecidableEq, Repr

inductive Token (F : Type) where
  | lit (v : Scalar F)
  | op (s : Symbol)
  | punct (p : Punct)
  | kw (k : Keyword)
  | name (s : String)
  deriving DecidableEq, Repr

def Symbol.text : Symbol → String
  | eq => "=="
  | ne => "!="
  | order .le => "<="
  | order .ge => ">="
  | order .lt => "<"
  | order .gt => ">"

def Punct.char : Punct → Char
  | openParen => '('
  | closeParen => ')'
  | openBracket => '['
  | closeBracket => ']'
  | dot => '.'
  | comma => ','

def Keyword.text : Keyword → String
  | and => "and"
  | or => "or"
  | not => "not"
  | .in => "in"
  | true => "true"
  | false => "false"
  | null => "null"

def Keyword.all : List Keyword := [.and, .or, .not, .in, .true, .false, .null]

/-- The second part of a token. -/
def Token.value {F : Type} : Token F → Scalar F
  | lit v => v
  | op s => .str s.text
  | punct p => .str (String.singleton p.char)
  | kw k => .str k.text
  | name s => .str s

/-- The value of a literal; a float is finite. -/
def Scalar.json : Scalar Rat → Json
  | null => .null
  | bool b => .bool b
  | int n => .int n
  | float q => .float q
  | str s => .str s

def Key.text : Key → String
  | name s => s
  | index n => toString n

/-- What the language's library does with numbers and texts. -/
structure Reader (F : Type) where
  /-- `float(text)` -/
  float : List Char → F
  /-- `repr(value)` -/
  repr : Scalar F → String

namespace Expressions
variable {F : Type} (r : Reader F)

/-- `MAX_EXPRESSION_LENGTH` -/
def maxExpressionLength : Nat := 500

/-- `int(text)` of decimal digits after a sign or none. -/
def whole (negative : Bool) (digits : List Char) : Int :=
  let n := digits.foldl (fun n c => 10 * n + (PyText.decimal? c).getD 0) 0
  if negative then -(n : Int) else n

/-- `-` or nothing. -/
def signText (negative : Bool) : List Char := if negative then ['-'] else []

/-- `\d+(?:\.\d+)?` after the sign. -/
def unsigned? (negative : Bool) (text : List Char) : Option (Token F × List Char) :=
  let digits := text.takeWhile PyText.isDecimal
  if digits = [] then none
  else
    match text.dropWhile PyText.isDecimal with
    | '.' :: rest =>
      let fraction := rest.takeWhile PyText.isDecimal
      if fraction = [] then some (.lit (.int (whole negative digits)), '.' :: rest)
      else some (.lit (.float (r.float (signText negative ++ digits ++ '.' :: fraction))),
        rest.dropWhile PyText.isDecimal)
    | rest => some (.lit (.int (whole negative digits)), rest)

def number? : List Char → Option (Token F × List Char)
  | '-' :: rest => unsigned? r true rest
  | text => unsigned? r false text

/-- `(?:[^q\\]|\\.)*q`: the text up to the quotation mark `q`, and what comes after it. -/
def quoted? (quote : Char) : List Char → Option (List Char × List Char)
  | [] => none
  | '\\' :: c :: rest =>
    if c = '\n' then none
    else (quoted? quote rest).map fun (body, rest) => ('\\' :: c :: body, rest)
  | c :: rest =>
    if c = quote then some ([], rest)
    else if c = '\\' then none
    else (quoted? quote rest).map fun (body, rest) => (c :: body, rest)

/-- `re.sub(r"\\(.)", r"\1", body)` -/
def unescape : List Char → List Char
  | [] => []
  | '\\' :: c :: rest => if c = '\n' then '\\' :: c :: unescape rest else c :: unescape rest
  | c :: rest => c :: unescape rest

def isQuote (c : Char) : Bool := c == '"' || c == '\''

def string? : List Char → Option (Token F × List Char)
  | [] => none
  | c :: rest =>
    if isQuote c then
      (quoted? c rest).map fun (body, rest) => (.lit (.str (String.ofList (unescape body))), rest)
    else none

def symbol? : List Char → Option (Token F × List Char)
  | '=' :: '=' :: rest => some (.op .eq, rest)
  | '!' :: '=' :: rest => some (.op .ne, rest)
  | '<' :: '=' :: rest => some (.op (.order .le), rest)
  | '>' :: '=' :: rest => some (.op (.order .ge), rest)
  | '<' :: rest => some (.op (.order .lt), rest)
  | '>' :: rest => some (.op (.order .gt), rest)
  | _ => none

def punct? : List Char → Option (Token F × List Char)
  | '(' :: rest => some (.punct .openParen, rest)
  | ')' :: rest => some (.punct .closeParen, rest)
  | '[' :: rest => some (.punct .openBracket, rest)
  | ']' :: rest => some (.punct .closeBracket, rest)
  | '.' :: rest => some (.punct .dot, rest)
  | ',' :: rest => some (.punct .comma, rest)
  | _ => none

def isNameStart (c : Char) : Bool := c.isAlpha || c == '_'

def isNameChar (c : Char) : Bool := c.isAlphanum || c == '_'

/-- A name, or the keyword that it is. -/
def word (name : String) : Token F :=
  match Keyword.all.find? fun k => k.text == name with
  | some k => .kw k
  | none => .name name

def name? : List Char → Option (Token F × List Char)
  | [] => none
  | c :: rest =>
    if isNameStart c then
      some (word (String.ofList (c :: rest.takeWhile isNameChar)), rest.dropWhile isNameChar)
    else none

/-- `_TOKEN_RE`, after the white space. -/
def lexeme? (text : List Char) : Option (Token F × List Char) :=
  (number? r text).or ((string? text).or ((symbol? text).or ((punct? text).or (name? text))))

/-- The loop of `_tokenize`, for a text with at most so many characters left. -/
def tokensFrom (total : Nat) : Nat → List Char → Except Exn (List (Token F))
  | 0, _ => pure []
  | left + 1, text =>
    if PyText.strip text = [] then pure []
    else
      match lexeme? r (text.dropWhile PyText.isSpace) with
      | some (token, rest) => do
        let tokens ← tokensFrom total left rest
        pure (token :: tokens)
      | none => throw (.expression (s!"unexpected character at position {total - text.length}: " ++
          r.repr (.str (String.ofList (text.take 10)))))

/-- `_tokenize` -/
def tokenize : Json → Except Exn (List (Token F))
  | .str text =>
    if PyText.strip text.toList = [] then .error (.expression "expression is empty")
    else if maxExpressionLength < text.length then .error (.expression "expression is too long")
    else tokensFrom r text.length text.length text.toList
  | _ => .error (.expression "expression is empty")

/-! ## The parser -/

/-- `self._peek()[1]` -/
def found : List (Token F) → Scalar F
  | [] => .null
  | t :: _ => t.value

/-- `_expect`, where it raises. -/
def unexpected {α : Type} (value : String) (ts : List (Token F)) : Except Exn α :=
  .error (.expression (s!"expected {r.repr (.str value)} but found " ++ r.repr (found ts)))

/-- The scalar literal that a token is. -/
def scalar? : Token F → Option (Scalar F)
  | .lit v => some v
  | .kw .true => some (.bool true)
  | .kw .false => some (.bool false)
  | .kw .null => some .null
  | _ => none

/-- The rest of a list, from an element on. -/
def listItems : List (Token F) → Except Exn (List (Scalar F) × List (Token F))
  | [] => .error (.expression "list literals may contain only literals")
  | t :: rest =>
    match scalar? t with
    | none => .error (.expression "list literals may contain only literals")
    | some v =>
      match rest with
      | .punct .closeBracket :: rest => .ok ([v], rest)
      | .punct .comma :: rest => do
        let (vs, rest) ← listItems rest
        pure (v :: vs, rest)
      | rest => unexpected r "," rest

/-- The index that a token is. -/
def index? : Token F → Option Key
  | .lit (.str s) => some (.name s)
  | .lit (.int n) => some (.index n)
  | _ => none

/-- The segment that a token is after a dot. -/
def segment? : Token F → Option Key
  | .name s => some (.name s)
  | .kw k => some (.name k.text)
  | _ => none

/-- The segments of a path after its first. -/
def pathKeys : List (Token F) → Except Exn (List Key × List (Token F))
  | .punct .dot :: t :: rest =>
    match segment? t with
    | none => .error (.expression "expected a name after '.'")
    | some key => do
      let (keys, rest) ← pathKeys rest
      pure (key :: keys, rest)
  | [.punct .dot] => .error (.expression "expected a name after '.'")
  | .punct .openBracket :: t :: rest =>
    match index? t with
    | none => .error (.expression "index must be a string or an integer")
    | some key =>
      match rest with
      | .punct .closeBracket :: rest => do
        let (keys, rest) ← pathKeys rest
        pure (key :: keys, rest)
      | rest => unexpected r "]" rest
  | [.punct .openBracket] => .error (.expression "index must be a string or an integer")
  | ts => .ok ([], ts)

/-- The depth is reached. -/
def tooDeep : Exn := .other "RecursionError" "maximum recursion depth exceeded"

mutual

/-- `_or` -/
def orExpr : Nat → List (Token F) → Except Exn (Expr F × List (Token F))
  | 0, _ => .error tooDeep
  | depth + 1, ts => do
    let (node, ts) ← andExpr depth ts
    orMore depth node ts

/-- The loop of `_or`. -/
def orMore : Nat → Expr F → List (Token F) → Except Exn (Expr F × List (Token F))
  | 0, _, _ => .error tooDeep
  | depth + 1, node, .kw .or :: ts => do
    let (right, ts) ← andExpr depth ts
    orMore depth (.or node right) ts
  | _ + 1, node, ts => .ok (node, ts)

/-- `_and` -/
def andExpr : Nat → List (Token F) → Except Exn (Expr F × List (Token F))
  | 0, _ => .error tooDeep
  | depth + 1, ts => do
    let (node, ts) ← unary depth ts
    andMore depth node ts

/-- The loop of `_and`. -/
def andMore : Nat → Expr F → List (Token F) → Except Exn (Expr F × List (Token F))
  | 0, _, _ => .error tooDeep
  | depth + 1, node, .kw .and :: ts => do
    let (right, ts) ← unary depth ts
    andMore depth (.and node right) ts
  | _ + 1, node, ts => .ok (node, ts)

/-- `_unary` -/
def unary : Nat → List (Token F) → Except Exn (Expr F × List (Token F))
  | 0, _ => .error tooDeep
  | depth + 1, .kw .not :: ts => do
    let (node, ts) ← unary depth ts
    pure (.not node, ts)
  | depth + 1, ts => comparison depth ts

/-- `_compare` -/
def comparison : Nat → List (Token F) → Except Exn (Expr F × List (Token F))
  | 0, _ => .error tooDeep
  | depth + 1, ts => do
    let (left, ts) ← operand depth ts
    match ts with
    | .op s :: ts => do
      let (right, ts) ← operand depth ts
      pure (.cmp (.symbol s) left right, ts)
    | .kw .in :: ts => do
      let (right, ts) ← operand depth ts
      pure (.cmp .isIn left right, ts)
    | .kw .not :: .kw .in :: ts => do
      let (right, ts) ← operand depth ts
      pure (.cmp .notIn left right, ts)
    | .kw .not :: ts => unexpected r "in" ts
    | ts => pure (left, ts)

/-- `_operand` -/
def operand : Nat → List (Token F) → Except Exn (Expr F × List (Token F))
  | 0, _ => .error tooDeep
  | _ + 1, [] => .error (.expression s!"unexpected token {r.repr .null}")
  | depth + 1, t :: rest =>
    match t with
    | .punct .openParen => do
      let (node, rest) ← orExpr depth rest
      match rest with
      | .punct .closeParen :: rest => pure (node, rest)
      | rest => unexpected r ")" rest
    | .punct .openBracket =>
      match rest with
      | .punct .closeBracket :: rest => .ok (.list [], rest)
      | rest => do
        let (items, rest) ← listItems r rest
        pure (.list items, rest)
    | .name s => do
      let (keys, rest) ← pathKeys r rest
      pure (.path s keys, rest)
    | t =>
      match scalar? t with
      | some v => .ok (.scalar v, rest)
      | none => .error (.expression s!"unexpected token {r.repr t.value}")

end

/-- `_Parser.parse` -/
def parseTokens (ts : List (Token F)) : Except Exn (Expr F) := do
  let (node, rest) ← orExpr r (6 * ts.length + 5) ts
  match rest with
  | [] => pure node
  | rest => throw (.expression s!"unexpected token {r.repr (found rest)}")

/-- `parse` -/
def parse (text : Json) : Except Exn (Expr F) := do
  let ts ← tokenize r text
  parseTokens r ts

/-! ## Evaluation -/

/-- The texts of the segments walked, with dots between them. -/
def walkedText (walked : List Key) : String := ".".intercalate (walked.map Key.text)

/-- One segment of `_resolve`; `walked` ends with it. -/
def child (walked : List Key) (current : Json) (part : Key) : Except Exn Json :=
  match current, part with
  | .obj fields, .name s =>
    match fields.lookup s with
    | some value => .ok value
    | none => .error (.expression s!"'{walkedText walked}' is not present")
  | .obj _, .index _ => .error (.expression s!"'{walkedText walked}' is not present")
  | .arr items, .index n =>
    let size : Int := items.length
    if -size ≤ n ∧ n < size then
      .ok (items.getD (if n < 0 then size + n else n).toNat .null)
    else .error (.expression s!"index out of range at '{walkedText walked}'")
  | _, part =>
    .error (.expression s!"cannot read '{part.text}' at '{walkedText walked}'")

/-- `_resolve`, from a segment on. -/
def resolve (walked : List Key) (current : Json) : List Key → Except Exn Json
  | [] => .ok current
  | part :: keys => do
    let next ← child (walked ++ [part]) current part
    resolve (walked ++ [part]) next keys

/-- `_is_number` -/
def isNumber : Json → Bool
  | .int _ | .float _ => true
  | _ => false

/-- `_as_bool` -/
def asBool (value : Json) (what : String) : Except Exn Bool :=
  match value with
  | .bool b => .ok b
  | value => .error (.expression s!"{what} must be true or false, got {value.typeName}")

/-- `left in right` -/
def contains (left right : Json) : Except Exn Bool :=
  match right with
  | .arr items => .ok (left.isIn items)
  | .str text =>
    match left with
    | .str part => .ok (decide (part.toList <:+: text.toList))
    | _ => .error (.expression "left side of 'in' must be a string for a string search")
  | _ => .error (.expression "right side of 'in' must be a list or a string")

/-- `left == right` in the expression language. -/
def equals (left right : Json) : Except Exn Bool :=
  if left = .null ∨ right = .null ∨ (isNumber left ∧ isNumber right) ∨
      left.typeName = right.typeName then .ok (left.same right)
  else .error (.expression s!"cannot compare {left.typeName} with {right.typeName}")

/-- The answer of `<`, `<=`, `>` or `>=` for two values of a linear order. -/
def ordered {α : Type} [LinearOrder α] (o : Order) (a b : α) : Bool :=
  match o with
  | .lt => a < b
  | .le => a ≤ b
  | .gt => b < a
  | .ge => b ≤ a

/-- `left < right`, and the other three. -/
def orders (o : Order) (left right : Json) : Except Exn Bool :=
  match left, right with
  | .str a, .str b => .ok (ordered o a b)
  | left, right =>
    match isNumber left && isNumber right, left.number?, right.number? with
    | true, some p, some q => .ok (ordered o p q)
    | _, _, _ => .error (.expression s!"cannot order {left.typeName} against {right.typeName}")

/-- The comparison of two values. -/
def compareValues (op : Comparison) (left right : Json) : Except Exn Bool :=
  match op with
  | .isIn => contains left right
  | .notIn => (contains left right).map not
  | .symbol .eq => equals left right
  | .symbol .ne => (equals left right).map not
  | .symbol (.order o) => orders o left right

/-- `_eval` -/
def eval (context : Json) : Expr Rat → Except Exn Json
  | .scalar v => .ok v.json
  | .list items => .ok (.arr (items.map Scalar.json))
  | .path root keys => resolve [] context (.name root :: keys)
  | .not a => do
    let value ← eval context a
    let b ← asBool value "operand of 'not'"
    pure (.bool !b)
  | .and a b => do
    let left ← eval context a
    if ← asBool left "operand of 'and'" then
      let right ← eval context b
      return .bool (← asBool right "operand of 'and'")
    else return .bool false
  | .or a b => do
    let left ← eval context a
    if ← asBool left "operand of 'or'" then return .bool true
    else
      let right ← eval context b
      return .bool (← asBool right "operand of 'or'")
  | .cmp op a b => do
    let left ← eval context a
    let right ← eval context b
    return .bool (← compareValues op left right)

/-- `evaluate` -/
def evaluate (r : Reader Rat) (text context : Json) : Except Exn Bool := do
  let tree ← parse r text
  let value ← eval context tree
  asBool value "expression result"

end Expressions
end L1Agent
