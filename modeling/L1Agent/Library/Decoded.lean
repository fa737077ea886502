import L1Agent.Library.JsonText
import Mathlib.Order.Defs.LinearOrder
import Mathlib.Data.List.Lex

/-! # What a lenient decoder gives

A decoder of JSON that takes `NaN` and the infinities, and `\u` escapes that are half of a
surrogate pair, gives more than a `Json`.  A text is a list of code points (`Text`), which has no
UTF-8 form when a surrogate is among them; a number is a whole number of any size or a float
(`Number`); `Value.dumps` writes a value again, as long as it is not nested too deeply.

What raises here raises in the language: a text with a surrogate has no bytes, an integer may be
too large for a float (`toFloat`), a float may be infinite or no number when it is rounded
(`Double.round`).  `encodes_ofChars` says which texts never raise, and `ok_of_bind` takes a
computation that ends well apart.
-/
namespace Decoded
open Json (DumpOptions hex4)

/-! ## Texts -/

/-- A code point, which may be a surrogate. -/
abbrev CodePoint := Fin 0x110000

/-- A text. -/
abbrev Text := List CodePoint

def CodePoint.ofChar (c : Char) : CodePoint := ⟨c.toNat, Json.toNat_lt c⟩

/-- A text of characters. -/
def ofChars (cs : List Char) : Text := cs.map CodePoint.ofChar

/-- A text that stands in the code. -/
def text (s : String) : Text := ofChars s.toList

def CodePoint.surrogate (c : CodePoint) : Bool := 0xD800 ≤ c.val && c.val ≤ 0xDFFF

/-- The text has a UTF-8 form. -/
def Encodes (t : Text) : Prop := ∀ c ∈ t, c.surrogate = false

instance (t : Text) : Decidable (Encodes t) := List.decidableBAll _ _

theorem ofChar_not_surrogate (c : Char) : (CodePoint.ofChar c).surrogate = false := by
  have hscalar : c.toNat < 0xD800 ∨ 0xDFFF < c.toNat := Json.not_surrogate c
  unfold CodePoint.surrogate CodePoint.ofChar
  simp only [Bool.and_eq_false_iff, decide_eq_false_iff_not]
  omega

theorem encodes_ofChars (cs : List Char) : Encodes (ofChars cs) := by
  intro c hc
  obtain ⟨d, -, rfl⟩ := List.mem_map.mp hc
  exact ofChar_not_surrogate d

/-! ## Numbers -/

/-- A float; a finite one is a rational. -/
inductive Double where
  | finite (q : Rat)
  | infinite (negative : Bool)
  | nan
  deriving DecidableEq, Repr

/-- A number of either type. -/
inductive Number where
  | int (n : Int)
  | float (x : Double)
  deriving DecidableEq, Repr

/-- The largest double is `2 ^ 1024 - 2 ^ 971`; what is nearer to `2 ^ 1024`, or as near, has no
float. -/
def floatLimit : Nat := 2 ^ 1024 - 2 ^ 970

/-- `float(n)` raises `OverflowError`. -/
def Overflows (n : Int) : Prop := floatLimit ≤ n.natAbs

instance (n : Int) : Decidable (Overflows n) := inferInstanceAs (Decidable (floatLimit ≤ _))

/-- `a < b`, which compares the values exactly; a `NaN` is not less than anything. -/
def Number.lt : Number → Number → Bool
  | .int a, .int b => a < b
  | .int a, .float (.finite q) => (a : Rat) < q
  | .float (.finite p), .int b => p < (b : Rat)
  | .float (.finite p), .float (.finite q) => p < q
  | .float (.infinite true), .float (.infinite true) => false
  | .float (.infinite true), .float .nan => false
  | .float (.infinite true), _ => true
  | .float (.infinite false), _ => false
  | .float .nan, _ => false
  | _, .float .nan => false
  | _, .float (.infinite negative) => !negative

/-- `min(a, b)` -/
def Number.min (a b : Number) : Number := if b.lt a then b else a

/-- Whether the number is of type `int`. -/
def Number.isInt : Number → Bool
  | .int _ => true
  | .float _ => false

/-! ## Exceptions -/

/-- An exception, by the name of its class. -/
structure Raised where
  typeName : String
  deriving DecidableEq, Repr

def recursionError : Raised := ⟨"RecursionError"⟩
def overflowError : Raised := ⟨"OverflowError"⟩
def valueError : Raised := ⟨"ValueError"⟩
def keyError : Raised := ⟨"KeyError"⟩
def unicodeEncodeError : Raised := ⟨"UnicodeEncodeError"⟩

theorem ok_bind {ε α β : Type} (a : α) (f : α → Except ε β) : (Except.ok a >>= f) = f a := rfl

/-- What comes first in a computation that ends well has ended well. -/
theorem ok_of_bind {ε α β : Type} {x : Except ε α} {f : α → Except ε β} {b : β}
    (h : (x >>= f) = .ok b) : ∃ a, x = .ok a ∧ f a = .ok b := by
  cases x with
  | error e => cases h
  | ok a => exact ⟨a, rfl, h⟩

/-- `math.isfinite`, which goes by the float of an integer. -/
def isFinite : Number → Except Raised Bool
  | .int n => if Overflows n then .error overflowError else .ok true
  | .float (.finite _) => .ok true
  | .float _ => .ok false

/-! ## Floats

`nearest` rounds a rational to a float: an infinity, where it is out of range. -/

section
variable (nearest : Rat → Double)

/-- `float(n)` -/
def toFloat (n : Int) : Except Raised Double :=
  if Overflows n then .error overflowError else .ok (nearest n)

/-- `x * y` -/
def Double.mul : Double → Double → Double
  | .finite p, .finite q => nearest (p * q)
  | .finite p, .infinite negative | .infinite negative, .finite p =>
    if p = 0 then .nan else .infinite (negative != decide (p < 0))
  | .infinite a, .infinite b => .infinite (a != b)
  | _, _ => .nan

/-- `x + y` -/
def Double.add : Double → Double → Double
  | .finite p, .finite q => nearest (p + q)
  | .finite _, .infinite negative | .infinite negative, .finite _ => .infinite negative
  | .infinite a, .infinite b => if a = b then .infinite a else .nan
  | _, _ => .nan

end

/-- To the nearest whole number, and to the even one from the middle of two. -/
def roundHalfEven (q : Rat) : Int :=
  let below := q.floor
  if q - below < 1 / 2 then below
  else if 1 / 2 < q - below then below + 1
  else if below % 2 = 0 then below
  else below + 1

/-- `round(x)` -/
def Double.round : Double → Except Raised Int
  | .finite q => .ok (roundHalfEven q)
  | .infinite _ => .error overflowError
  | .nan => .error valueError

/-! ## Values -/

/-- What the decoder gives. -/
inductive Value where
  | null
  | bool (b : Bool)
  | num (n : Number)
  | str (t : Text)
  | arr (items : List Value)
  | obj (fields : List (Text × Value))
  deriving Repr, Inhabited

namespace Value

/-- The value is this text. -/
def isText (t : Text) : Value → Bool
  | str u => u == t
  | _ => false

mutual

/-- How deeply arrays and objects are nested. -/
def depth : Value → Nat
  | arr items => depthItems items + 1
  | obj fields => depthFields fields + 1
  | _ => 0

def depthItems : List Value → Nat
  | [] => 0
  | v :: vs => max (depth v) (depthItems vs)

def depthFields : List (Text × Value) → Nat
  | [] => 0
  | (_, v) :: fields => max (depth v) (depthFields fields)

end

/-- A field put into its place among fields sorted by key. -/
def insertField (key : Text) (value : Value) : List (Text × Value) → List (Text × Value)
  | [] => [(key, value)]
  | (k, v) :: fields =>
    if key ≤ k then (key, value) :: (k, v) :: fields
    else (k, v) :: insertField key value fields

mutual

/-- The value with the fields of every object sorted by key. -/
def sorted : Value → Value
  | arr items => arr (sortedItems items)
  | obj fields => obj (sortedFields fields)
  | v => v

def sortedItems : List Value → List Value
  | [] => []
  | v :: vs => sorted v :: sortedItems vs

def sortedFields : List (Text × Value) → List (Text × Value)
  | [] => []
  | (k, v) :: fields => insertField k (sorted v) (sortedFields fields)

end

/-- The units of UTF-16 that a code point consists of. -/
def units (c : CodePoint) : List Nat :=
  if c.val < 0x10000 then [c.val]
  else [0xD800 + (c.val - 0x10000) / 1024, 0xDC00 + (c.val - 0x10000) % 1024]

/-- A code point in a string that is written in ASCII. -/
def escape (c : CodePoint) : List Char :=
  match Json.shortEscapes.lookup (Char.ofNat c.val) with
  | some e => ['\\', e]
  | none =>
    if 32 ≤ c.val ∧ c.val ≤ 126 then [Char.ofNat c.val]
    else (units c).flatMap fun n => '\\' :: 'u' :: hex4 n

/-- A string with its quotes. -/
def renderText (t : Text) : List Char := '"' :: (t.flatMap escape ++ ['"'])

section
variable (repr : Rat → List Char)

/-- A number as the encoder writes it; `repr` is `float.__repr__`. -/
def renderNumber : Number → List Char
  | .int n => (toString n).toList
  | .float (.finite q) => repr q
  | .float (.infinite false) => "Infinity".toList
  | .float (.infinite true) => "-Infinity".toList
  | .float .nan => "NaN".toList

variable (options : DumpOptions)

mutual

/-- The text of a value in ASCII, its keys in the order that they stand in. -/
def render : Value → List Char
  | null => "null".toList
  | bool true => "true".toList
  | bool false => "false".toList
  | num n => renderNumber repr n
  | str t => renderText t
  | arr items => '[' :: renderItems items
  | obj fields => '{' :: renderFields fields

/-- What comes after the opening bracket. -/
def renderItems : List Value → List Char
  | [] => [']']
  | v :: vs => render v ++ renderMoreItems vs

def renderMoreItems : List Value → List Char
  | [] => [']']
  | v :: vs => options.itemSeparator.toList ++ (render v ++ renderMoreItems vs)

/-- What comes after the opening brace. -/
def renderFields : List (Text × Value) → List Char
  | [] => ['}']
  | (k, v) :: fields =>
    renderText k ++ (options.keySeparator.toList ++ (render v ++ renderMoreFields fields))

def renderMoreFields : List (Text × Value) → List Char
  | [] => ['}']
  | (k, v) :: fields => options.itemSeparator.toList ++
      (renderText k ++ (options.keySeparator.toList ++ (render v ++ renderMoreFields fields)))

end

end

end Value

/-- `json.dumps`, in ASCII, where the interpreter has room for this many nested calls. -/
def Value.dumps (repr : Rat → List Char) (options : DumpOptions) (room : Nat) (v : Value) :
    Except Raised (List Char) :=
  if v.depth ≤ room then .ok (render repr options (if options.sortKeys then v.sorted else v))
  else .error recursionError

end Decoded
