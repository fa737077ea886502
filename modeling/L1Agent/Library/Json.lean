import Mathlib.Data.Rat.Defs
import Mathlib.Data.Rat.Floor

/-! # JSON values

The values that travel between the database, the connectors and the engine.  A
whole number and a float are different values, as they are for the reader of a
JSON text; a float is finite, so it is a rational.  The fields of an object are
an association list in the order in which they were written.
-/

/-- A JSON value. -/
inductive Json where
  | null
  | bool (b : Bool)
  | int (n : Int)
  | float (q : Rat)
  | str (s : String)
  | arr (items : List Json)
  | obj (fields : List (String × Json))
  deriving Repr, Inhabited

namespace Json

/-! ### Equality is decidable -/

mutual

/-- Equality of values, decided by walking both. -/
def beq : Json → Json → Bool
  | null, null => true
  | bool a, bool b => a == b
  | int a, int b => a == b
  | float a, float b => a == b
  | str a, str b => a == b
  | arr a, arr b => beqItems a b
  | obj a, obj b => beqFields a b
  | _, _ => false

def beqItems : List Json → List Json → Bool
  | [], [] => true
  | a :: as, b :: bs => beq a b && beqItems as bs
  | _, _ => false

def beqFields : List (String × Json) → List (String × Json) → Bool
  | [], [] => true
  | (k, a) :: as, (l, b) :: bs => k == l && (beq a b && beqFields as bs)
  | _, _ => false

end

mutual

theorem beq_iff : ∀ a b : Json, beq a b = true ↔ a = b
  | null, b => by cases b <;> simp [beq]
  | bool _, b => by cases b <;> simp [beq]
  | int _, b => by cases b <;> simp [beq]
  | float _, b => by cases b <;> simp [beq]
  | str _, b => by cases b <;> simp [beq]
  | arr as, b => by cases b <;> simp [beq, beqItems_iff as]
  | obj as, b => by cases b <;> simp [beq, beqFields_iff as]

theorem beqItems_iff : ∀ as bs : List Json, beqItems as bs = true ↔ as = bs
  | [], bs => by cases bs <;> simp [beqItems]
  | a :: as, bs => by
    cases bs with
    | nil => simp [beqItems]
    | cons b bs => simp [beqItems, beq_iff a b, beqItems_iff as bs]

theorem beqFields_iff : ∀ as bs : List (String × Json), beqFields as bs = true ↔ as = bs
  | [], bs => by cases bs <;> simp [beqFields]
  | (k, a) :: as, bs => by
    cases bs with
    | nil => simp [beqFields]
    | cons b bs =>
      obtain ⟨l, b⟩ := b
      simp [beqFields, beq_iff a b, beqFields_iff as bs, and_assoc]

end

instance : DecidableEq Json := fun a b => decidable_of_iff _ (beq_iff a b)

/-! ### Reading -/

/-- `value.get(key)` on an object; `none` for a missing key and for anything that
is no object. -/
def get? (key : String) : Json → Option Json
  | obj fields => fields.lookup key
  | _ => none

/-- `value.get(key, default)`. -/
def getD (v : Json) (key : String) (default : Json) : Json := (v.get? key).getD default

/-- Whether a value counts as true where a condition is expected. -/
def truthy : Json → Bool
  | null => false
  | bool b => b
  | int n => n != 0
  | float q => q != 0
  | str s => s != ""
  | arr items => !items.isEmpty
  | obj fields => !fields.isEmpty

/-- `type(value).__name__` -/
def typeName : Json → String
  | null => "NoneType"
  | bool _ => "bool"
  | int _ => "int"
  | float _ => "float"
  | str _ => "str"
  | arr _ => "list"
  | obj _ => "dict"

/-- The fields of a mapping in which `key` has been set to `value`. -/
def setField (fields : List (String × Json)) (key : String) (value : Json) :
    List (String × Json) :=
  if fields.any (·.1 == key) then fields.map fun f => if f.1 == key then (key, value) else f
  else fields ++ [(key, value)]

/-- The mapping of these pairs, in which a later pair replaces an earlier one. -/
def ofPairs (pairs : List (String × Json)) : Json :=
  obj (pairs.foldl (fun fields p => setField fields p.1 p.2) [])

/-- `a or b` on values. -/
def orElse (a b : Json) : Json := if a.truthy then a else b

/-- `value[:n]`: the first `n` characters or items; `none` where the value cannot
be sliced. -/
def slice (n : Nat) : Json → Option Json
  | str s => some (str (String.ofList (s.toList.take n)))
  | arr items => some (arr (items.take n))
  | _ => none

/-- What a `for` loop over the value visits; `none` where it cannot be iterated. -/
def elements : Json → Option (List Json)
  | str s => some (s.toList.map fun c => str (String.singleton c))
  | arr items => some items
  | obj fields => some (fields.map fun f => str f.1)
  | _ => none

/-- Whether the value is an object. -/
def isObj : Json → Bool
  | obj _ => true
  | _ => false

/-- The keys of an object. -/
def keys : Json → List String
  | obj fields => fields.map (·.1)
  | _ => []

end Json

/-- What the language does with texts that no property here depends on: how a
value prints, and which texts read as numbers. -/
structure Builtins where
  /-- `repr(value)` -/
  repr : Json → String
  /-- `int(text)`; `none` where it raises. -/
  parseInt : String → Option Int
  /-- Whether `float(text)` returns. -/
  isFloat : String → Bool

namespace Builtins
variable (b : Builtins)

/-- `str(value)` -/
def str : Json → String
  | .str s => s
  | v => b.repr v

/-- How a list of texts prints. -/
def reprTexts (texts : List String) : String := b.repr (.arr (texts.map .str))

/-- `int(value)`; `none` where it raises. -/
def toInt : Json → Option Int
  | .int n => some n
  | .bool v => some (if v then 1 else 0)
  | .float q => some (if 0 ≤ q then q.floor else q.ceil)
  | .str s => b.parseInt s
  | _ => none

/-- Whether `float(value)` returns. -/
def isNumber : Json → Bool
  | .int _ | .bool _ | .float _ => true
  | .str s => b.isFloat s
  | _ => false

end Builtins
