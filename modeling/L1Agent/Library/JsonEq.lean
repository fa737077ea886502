import L1Agent.Library.Json

/-! # Equality of values as Python has it

`same` is `==` between two values read from JSON.  Numbers are compared by their value, whatever
their type, and a boolean is the number 0 or 1; two mappings are equal that have the same keys
with equal values, in any order.

`isIn` is `in` for a list of values, which goes by `same` too: 1 is in a list that has `true`.
-/
namespace Json

/-- The number that a value counts as. -/
def number? : Json → Option Rat
  | bool b => some (if b then 1 else 0)
  | int n => some n
  | float q => some q
  | _ => none

mutual

/-- `a == b` -/
def same : Json → Json → Bool
  | null, null => true
  | str a, str b => a == b
  | arr as, arr bs => sameItems as bs
  | obj as, obj bs => as.length == bs.length && sameFields as bs
  | a, b => match a.number?, b.number? with
    | some p, some q => p == q
    | _, _ => false

def sameItems : List Json → List Json → Bool
  | [], [] => true
  | a :: as, b :: bs => same a b && sameItems as bs
  | _, _ => false

/-- Each field of the first mapping is one of the second. -/
def sameFields : List (String × Json) → List (String × Json) → Bool
  | [], _ => true
  | (key, a) :: as, bs =>
    (match bs.lookup key with
      | some b => same a b
      | none => false) && sameFields as bs

end

/-- `value in items` -/
def isIn (value : Json) (items : List Json) : Bool := items.any fun item => same value item

end Json
