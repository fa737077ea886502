import Mathlib.Data.List.Basic
import Mathlib.Data.UInt

/-! # Texts of numbers and of bytes

How a decimal number and a string of bytes are written and read: `parseInt` is `int(text)` and
`fromHex` is `bytes.fromhex(text)`, both for texts that a header can hold (Latin-1), and `toHex` is
`bytes.hex()`.  Reading is more generous than writing: `fromHex` takes capital digits and skips
white space, so a string of bytes has many spellings, one of which (`toHex`) is `Spelled`.
-/
namespace Literals

abbrev Bytes := List UInt8

/-- The bytes of an ASCII text. -/
def ascii? (text : String) : Option Bytes :=
  text.toList.mapM fun c => if c.toNat < 128 then some (UInt8.ofNat c.toNat) else none

/-! ## Decimal numbers -/

/-- `str.isspace`, of a Latin-1 character. -/
def isSpace (c : Char) : Bool :=
  let n := c.toNat
  (9 ≤ n && n ≤ 13) || (28 ≤ n && n ≤ 32) || n == 0x85 || n == 0xa0

/-- No number has more digits than this. -/
def maxStrDigits : Nat := 4300

/-- The rest of a number, after a digit: underscores stand between digits only. -/
def digitsFrom : Nat → List Char → Option Nat
  | n, [] => some n
  | n, '_' :: c :: rest => if c.isDigit then digitsFrom (10 * n + (c.toNat - 48)) rest else none
  | n, c :: rest => if c.isDigit then digitsFrom (10 * n + (c.toNat - 48)) rest else none

/-- An unsigned number. -/
def digits? : List Char → Option Nat
  | [] => none
  | c :: rest =>
    if c.isDigit ∧ (c :: rest).countP Char.isDigit ≤ maxStrDigits then
      digitsFrom (c.toNat - 48) rest
    else none

/-- `text.strip()`. -/
def strip (text : List Char) : List Char :=
  ((text.dropWhile isSpace).reverse.dropWhile isSpace).reverse

/-- `int(text)`; `none` is a ValueError. -/
def parseInt (text : String) : Option Int :=
  match strip text.toList with
  | '-' :: rest => (digits? rest).map fun n => -(n : Int)
  | '+' :: rest => (digits? rest).map fun n => (n : Int)
  | rest => (digits? rest).map fun n => (n : Int)

/-! ## Bytes in hexadecimal -/

def hexDigit (n : Nat) : Char := "0123456789abcdef".toList.getD n '0'

/-- The value of a digit, in either case. -/
def hexValue (c : Char) : Option Nat :=
  let n := c.toNat
  if 48 ≤ n ∧ n ≤ 57 then some (n - 48)
  else if 97 ≤ n ∧ n ≤ 102 then some (n - 87)
  else if 65 ≤ n ∧ n ≤ 70 then some (n - 55)
  else none

def hexOf (bytes : Bytes) : List Char :=
  bytes.flatMap fun b => [hexDigit (b.toNat / 16), hexDigit (b.toNat % 16)]

/-- `bytes.hex()`. -/
def toHex (bytes : Bytes) : String := String.ofList (hexOf bytes)

/-- White space that `bytes.fromhex` skips. -/
def isAsciiSpace (c : Char) : Bool := c == ' ' || (9 ≤ c.toNat && c.toNat ≤ 13)

/-- What is left to read, after the first digit of a byte or between two bytes. -/
def bytesFrom : Option Nat → List Char → Option Bytes
  | none, [] => some []
  | some _, [] => none
  | none, c :: rest =>
    if isAsciiSpace c then bytesFrom none rest
    else (hexValue c).bind fun high => bytesFrom (some high) rest
  | some high, c :: rest => (hexValue c).bind fun low =>
      (bytesFrom none rest).map (UInt8.ofNat (16 * high + low) :: ·)

/-- `bytes.fromhex(text)`; `none` is a ValueError. -/
def fromHex (text : String) : Option Bytes := bytesFrom none text.toList

/-- The text is the one that `toHex` writes, if it can be read at all. -/
def Spelled (text : String) : Prop := ∀ bytes, fromHex text = some bytes → text = toHex bytes

instance (text : String) : Decidable (Spelled text) := by
  unfold Spelled
  cases fromHex text with
  | none => exact .isTrue fun _ h => nomatch h
  | some bytes =>
    exact decidable_of_iff (text = toHex bytes)
      ⟨fun h _ hb => Option.some_inj.mp hb ▸ h, fun h => h bytes rfl⟩

/-- Two texts in that spelling that stand for the same bytes are the same. -/
theorem Spelled.eq {s t : String} {bytes : Bytes} (hs : Spelled s) (ht : Spelled t)
    (hs' : fromHex s = some bytes) (ht' : fromHex t = some bytes) : s = t :=
  (hs bytes hs').trans (ht bytes ht').symm

theorem hexValue_hexDigit : ∀ n < 16, hexValue (hexDigit n) = some n ∧
    isAsciiSpace (hexDigit n) = false := by
  decide

example : parseInt " +1_7 " = some 17 ∧ parseInt "1__7" = none := by decide
example : fromHex "Ab 0c" = some [0xab, 0x0c] ∧ toHex [0xab, 0x0c] = "ab0c" := by decide

end Literals
