import Mathlib.Algebra.Group.Nat.Defs
import Mathlib.Data.List.DropRight

/-! # Texts and numbers as Python reads them

White space, the decimal digits of every script (Unicode 14), `str.strip` and `int`.  Reading a
number is more generous than writing it: `parseInt` takes digits of any script, leading zeros,
underscores and a plus sign.  What it reads it reads again from the number's own text
(`parseInt_again`).

Taking off the blanks a second time changes nothing (`strip_strip`), and the blanks around a number
do not count (`parseInt_strip`).
-/
namespace PyText

/-- `str.isspace` of one character. -/
def isSpace (c : Char) : Bool :=
  let n := c.toNat
  (9 ≤ n && n ≤ 13) || (28 ≤ n && n ≤ 32) || n == 0x85 || n == 0xa0 || n == 0x1680 ||
    (0x2000 ≤ n && n ≤ 0x200a) || n == 0x2028 || n == 0x2029 || n == 0x202f || n == 0x205f ||
    n == 0x3000

/-- The zeros of the scripts that have decimal digits, but for ours. -/
def otherZeros : List Nat :=
  [0x660, 0x6f0, 0x7c0, 0x966, 0x9e6, 0xa66, 0xae6, 0xb66, 0xbe6, 0xc66, 0xce6, 0xd66, 0xde6,
    0xe50, 0xed0, 0xf20, 0x1040, 0x1090, 0x17e0, 0x1810, 0x1946, 0x19d0, 0x1a80, 0x1a90, 0x1b50,
    0x1bb0, 0x1c40, 0x1c50, 0xa620, 0xa8d0, 0xa900, 0xa9d0, 0xa9f0, 0xaa50, 0xabf0, 0xff10,
    0x104a0, 0x10d30, 0x11066, 0x110f0, 0x11136, 0x111d0, 0x112f0, 0x11450, 0x114d0, 0x11650,
    0x116c0, 0x11730, 0x118e0, 0x11950, 0x11c50, 0x11d50, 0x11da0, 0x16a60, 0x16ac0, 0x16b50,
    0x1d7ce, 0x1d7d8, 0x1d7e2, 0x1d7ec, 0x1d7f6, 0x1e140, 0x1e2f0, 0x1e950, 0x1fbf0]

/-- The zeros; the other nine digits follow each. -/
def zeros : List Nat := 0x30 :: otherZeros

/-- `unicodedata.decimal`: the value of a digit. -/
def decimal? (c : Char) : Option Nat :=
  (zeros.find? fun first => first ≤ c.toNat && c.toNat < first + 10).map
    fun first => c.toNat - first

/-- The character is a decimal digit: `\d` of a regular expression. -/
def isDecimal (c : Char) : Bool := (decimal? c).isSome

/-- `text.strip()` -/
def strip (text : List Char) : List Char := (text.dropWhile isSpace).rdropWhile isSpace

/-- No number has more digits than this (`sys.int_info.default_max_str_digits`). -/
def maxStrDigits : Nat := 4300

/-- The rest of a number, after a digit: underscores stand between digits only. -/
def digitsFrom : Nat → List Char → Option Nat
  | n, [] => some n
  | n, '_' :: c :: rest => (decimal? c).bind fun d => digitsFrom (10 * n + d) rest
  | n, c :: rest => (decimal? c).bind fun d => digitsFrom (10 * n + d) rest

/-- An unsigned number. -/
def digits? : List Char → Option Nat
  | [] => none
  | c :: rest =>
    if (c :: rest).countP isDecimal ≤ maxStrDigits then
      (decimal? c).bind fun d => digitsFrom d rest
    else none

/-- `int(text.strip())`; `none` is a ValueError. -/
def parseInt (text : List Char) : Option Int :=
  match strip text with
  | '-' :: rest => (digits? rest).map fun n : Nat => -(n : Int)
  | '+' :: rest => (digits? rest).map fun n : Nat => (n : Int)
  | rest => (digits? rest).map fun n : Nat => (n : Int)

/-! ## Stripping -/

theorem strip_strip (text : List Char) : strip (strip text) = strip text := by
  unfold strip
  have hleft : ((text.dropWhile isSpace).rdropWhile isSpace).dropWhile isSpace =
      (text.dropWhile isSpace).rdropWhile isSpace := by
    refine List.dropWhile_eq_self_iff.mpr fun hpos => ?_
    have hinit := List.rdropWhile_prefix isSpace (l := text.dropWhile isSpace)
    have hlen : 0 < (text.dropWhile isSpace).length := lt_of_lt_of_le hpos hinit.length_le
    rw [hinit.getElem hpos]
    exact List.dropWhile_eq_self_iff.mp (List.dropWhile_idempotent isSpace text) hlen
  rw [hleft, List.rdropWhile_idempotent]

/-- A text without white space is stripped already. -/
theorem strip_of_none {text : List Char} (h : ∀ c ∈ text, isSpace c = false) :
    strip text = text := by
  have hleft : text.dropWhile isSpace = text := by
    refine List.dropWhile_eq_self_iff.mpr fun hpos => ?_
    rw [h _ (List.getElem_mem hpos)]
    exact Bool.false_ne_true
  unfold strip
  rw [hleft]
  refine (List.rdropWhile_eq_self_iff ..).mpr fun hne => ?_
  rw [h _ (List.getLast_mem hne)]
  exact Bool.false_ne_true

/-- Nothing is left of white space. -/
theorem strip_eq_nil {text : List Char} : strip text = [] ↔ text.dropWhile isSpace = [] := by
  unfold strip
  rw [List.rdropWhile_eq_nil_iff]
  constructor
  · intro h
    refine List.dropWhile_eq_nil_iff.mpr fun c hc => ?_
    rw [← List.takeWhile_append_dropWhile (p := isSpace) (l := text)] at hc
    rcases List.mem_append.mp hc with hc | hc
    · exact List.mem_takeWhile_imp hc
    · exact h c hc
  · intro h c hc
    rw [h] at hc
    cases hc

/-! ## Numbers -/

theorem decimal?_lt {c : Char} {d : Nat} (h : decimal? c = some d) : d < 10 := by
  obtain ⟨first, hfirst, rfl⟩ := Option.map_eq_some_iff.mp h
  have hrange := List.find?_some hfirst
  rw [Bool.and_eq_true, decide_eq_true_eq, decide_eq_true_eq] at hrange
  omega

/-- A digit follows one of the zeros. -/
theorem isDecimal_iff {c : Char} :
    isDecimal c = true ↔ ∃ first ∈ zeros, first ≤ c.toNat ∧ c.toNat < first + 10 := by
  unfold isDecimal decimal?
  rw [Option.isSome_map, List.find?_isSome]
  simp only [Bool.and_eq_true, decide_eq_true_eq]

/-- A digit is no white space. -/
theorem isSpace_decimal {c : Char} (h : isDecimal c = true) : isSpace c = false := by
  obtain ⟨first, hfirst, hle, hlt⟩ := isDecimal_iff.mp h
  have hapart : ∀ first ∈ zeros, 0x30 ≤ first ∧ (first + 10 ≤ 0x85 ∨ 0xa0 < first) ∧
      (first + 10 ≤ 0x1680 ∨ 0x1680 < first) ∧ (first + 10 ≤ 0x2000 ∨ 0x200a < first) ∧
      (first + 10 ≤ 0x2028 ∨ 0x205f < first) ∧ (first + 10 ≤ 0x3000 ∨ 0x3000 < first) := by
    decide
  have h := hapart first hfirst
  simp only [isSpace, Bool.or_eq_false_iff, Bool.and_eq_false_iff, decide_eq_false_iff_not,
    beq_eq_false_iff_ne]
  omega

/-- The only digits that a short code has are ours. -/
theorem not_isDecimal {c : Char} (h : c.toNat < 0x30 ∨ 0x39 < c.toNat) (hshort : c.toNat < 0x660) :
    isDecimal c = false := by
  refine Bool.eq_false_iff.mpr fun hdecimal => ?_
  obtain ⟨first, hfirst, hle, hlt⟩ := isDecimal_iff.mp hdecimal
  have hother : ∀ first ∈ zeros, first = 0x30 ∨ 0x660 ≤ first := by decide
  have := hother first hfirst
  omega

theorem isDecimal_of {c : Char} {d : Nat} (h : decimal? c = some d) : isDecimal c = true := by
  unfold isDecimal
  rw [h]
  rfl

/-- What is read after a digit is bounded by the number of digits. -/
theorem digitsFrom_lt {n m : Nat} {text : List Char} (h : digitsFrom n text = some m) :
    m < (n + 1) * 10 ^ text.countP isDecimal := by
  have hstep : ∀ {n d k : Nat}, d < 10 → m < (10 * n + d + 1) * 10 ^ k →
      m < (n + 1) * 10 ^ (k + 1) := by
    intro n d k hd hm
    refine lt_of_lt_of_le hm ?_
    rw [Nat.pow_succ', ← Nat.mul_assoc]
    exact Nat.mul_le_mul_right _ (by omega)
  fun_induction digitsFrom n text with
  | case1 n =>
    cases h
    simp
  | case2 n c rest ih =>
    obtain ⟨d, hd, h⟩ := Option.bind_eq_some_iff.mp h
    have hunderscore : isDecimal '_' = false := by decide
    rw [List.countP_cons_of_neg (by simp [hunderscore]), List.countP_cons_of_pos (isDecimal_of hd)]
    exact hstep (decimal?_lt hd) (ih d h)
  | case3 n c rest _ ih =>
    obtain ⟨d, hd, h⟩ := Option.bind_eq_some_iff.mp h
    rw [List.countP_cons_of_pos (isDecimal_of hd)]
    exact hstep (decimal?_lt hd) (ih d h)

/-- A number that is read has no more digits than can be read. -/
theorem digits?_length {m : Nat} {text : List Char} (h : digits? text = some m) :
    (Nat.toDigits 10 m).length ≤ maxStrDigits := by
  cases text with
  | nil => cases h
  | cons c rest =>
    simp only [digits?] at h
    by_cases hcount : (c :: rest).countP isDecimal ≤ maxStrDigits
    · rw [if_pos hcount] at h
      obtain ⟨d, hd, h⟩ := Option.bind_eq_some_iff.mp h
      rw [List.countP_cons_of_pos (isDecimal_of hd)] at hcount
      have hd' := decimal?_lt hd
      refine (Nat.length_toDigits_le_iff (by decide) (by decide)).mpr ?_
      calc m < (d + 1) * 10 ^ rest.countP isDecimal := digitsFrom_lt h
        _ ≤ 10 * 10 ^ rest.countP isDecimal := Nat.mul_le_mul_right _ (by omega)
        _ = 10 ^ (rest.countP isDecimal + 1) := Nat.pow_succ'.symm
        _ ≤ 10 ^ maxStrDigits := Nat.pow_le_pow_right (by decide) hcount
    · rw [if_neg hcount] at h
      cases h

theorem decimal?_digit {c : Char} (h : c.isDigit = true) : decimal? c = some (c.toNat - 48) := by
  have hrange : 48 ≤ c.toNat ∧ c.toNat ≤ 57 := by
    simpa [Char.isDigit, UInt32.le_iff_toNat_le] using h
  have hfirst : (0x30 ≤ c.toNat && c.toNat < 0x30 + 10) = true := by
    rw [Bool.and_eq_true, decide_eq_true_eq, decide_eq_true_eq]
    omega
  unfold decimal? zeros
  have hfound : ((0x30 :: otherZeros).find? fun first =>
      first ≤ c.toNat && c.toNat < first + 10) = some 0x30 := List.find?_cons_of_pos hfirst
  rw [hfound]
  rfl

theorem digitsFrom_digits {n : Nat} {text : List Char} (h : ∀ c ∈ text, c.isDigit = true) :
    digitsFrom n text = some (Nat.ofDigitChars 10 text n) := by
  induction text generalizing n with
  | nil => simp [digitsFrom]
  | cons c rest ih =>
    have hc := h c (List.mem_cons_self ..)
    have hne : c ≠ '_' := by
      rintro rfl
      cases hc
    rw [digitsFrom.eq_3 _ _ _ (by rintro c' rest' rfl; exact absurd rfl hne), decimal?_digit hc,
      Option.bind_some, ih fun c' hc' => h c' (List.mem_cons_of_mem _ hc'), Nat.ofDigitChars_cons]
    rfl

/-- The digits of a number that is not too long are read. -/
theorem digits?_toDigits {m : Nat} (h : (Nat.toDigits 10 m).length ≤ maxStrDigits) :
    digits? (Nat.toDigits 10 m) = some m := by
  have hdigits : ∀ c ∈ Nat.toDigits 10 m, c.isDigit = true := fun c hc =>
    Nat.isDigit_of_mem_toDigits (by decide) (by decide) hc
  have hvalue : Nat.ofDigitChars 10 (Nat.toDigits 10 m) 0 = m :=
    Nat.ofDigitChars_toDigits (by decide) (by decide)
  have hne : Nat.toDigits 10 m ≠ [] := Nat.toDigits_ne_nil
  generalize Nat.toDigits 10 m = text at h hdigits hvalue hne
  cases text with
  | nil => exact absurd rfl hne
  | cons c rest =>
    simp only [digits?]
    rw [if_pos (List.countP_le_length.trans h), decimal?_digit (hdigits c (List.mem_cons_self ..)),
      Option.bind_some, digitsFrom_digits fun c' hc' => hdigits c' (List.mem_cons_of_mem _ hc')]
    rw [Nat.ofDigitChars_cons] at hvalue
    simpa using hvalue

/-- The text of an integer: a sign or none, and digits. -/
theorem toList_toString (n : Int) :
    (toString n).toList = Nat.toDigits 10 n.toNat ∧ 0 ≤ n ∨
      (toString n).toList = '-' :: Nat.toDigits 10 (-n).toNat ∧ n < 0 := by
  show n.repr.toList = _ ∧ _ ∨ n.repr.toList = _ ∧ _
  rw [Int.repr_eq_if]
  by_cases hn : 0 ≤ n
  · rw [if_pos hn]
    exact .inl ⟨Nat.toList_repr, hn⟩
  · rw [if_neg hn, String.toList_append, Nat.toList_repr]
    exact .inr ⟨rfl, by omega⟩

theorem isSpace_digit {c : Char} (h : c.isDigit = true) : isSpace c = false := by
  have hrange : 48 ≤ c.toNat ∧ c.toNat ≤ 57 := by
    simpa [Char.isDigit, UInt32.le_iff_toNat_le] using h
  simp only [isSpace, Bool.or_eq_false_iff, Bool.and_eq_false_iff, decide_eq_false_iff_not,
    beq_eq_false_iff_ne]
  omega

/-- The text of a number is stripped. -/
theorem strip_toString (n : Int) : strip (toString n).toList = (toString n).toList := by
  have hdigits : ∀ m, ∀ c ∈ Nat.toDigits 10 m, isSpace c = false := fun m c hc =>
    isSpace_digit (Nat.isDigit_of_mem_toDigits (by decide) (by decide) hc)
  refine strip_of_none fun c hc => ?_
  rcases toList_toString n with ⟨htext, -⟩ | ⟨htext, -⟩
  · exact hdigits _ c (htext ▸ hc)
  · rw [htext] at hc
    rcases List.mem_cons.mp hc with rfl | hc
    · decide
    · exact hdigits _ c hc

theorem parseInt_strip (text : List Char) : parseInt (strip text) = parseInt text := by
  unfold parseInt
  rw [strip_strip]

/-- **What is read is read again** from the number's own text. -/
theorem parseInt_again {text : List Char} {n : Int} (h : parseInt text = some n) :
    parseInt (toString n).toList = some n := by
  have hlength : (Nat.toDigits 10 n.natAbs).length ≤ maxStrDigits := by
    unfold parseInt at h
    split at h
    all_goals
      obtain ⟨m, hm, rfl⟩ := Option.map_eq_some_iff.mp h
      have hm' := digits?_length hm
    · rwa [Int.natAbs_neg, Int.natAbs_natCast]
    · rwa [Int.natAbs_natCast]
    · rwa [Int.natAbs_natCast]
  unfold parseInt
  rw [strip_toString]
  rcases toList_toString n with ⟨htext, hn⟩ | ⟨htext, hn⟩
  · rw [htext]
    have habs : n.toNat = n.natAbs := by omega
    rw [habs]
    have hread := digits?_toDigits hlength
    have hsign : ∀ c ∈ Nat.toDigits 10 n.natAbs, c.isDigit = true := fun c hc =>
      Nat.isDigit_of_mem_toDigits (by decide) (by decide) hc
    have hback : ((n.natAbs : Nat) : Int) = n := by omega
    split
    · rename_i rest heq
      have hminus := hsign '-' (heq ▸ List.mem_cons_self ..)
      cases hminus
    · rename_i rest heq
      have hplus := hsign '+' (heq ▸ List.mem_cons_self ..)
      cases hplus
    · rw [hread, Option.map_some, hback]
  · rw [htext]
    have habs : (-n).toNat = n.natAbs := by omega
    have hback : -((n.natAbs : Nat) : Int) = n := by omega
    show (digits? (Nat.toDigits 10 (-n).toNat)).map _ = _
    rw [habs, digits?_toDigits hlength, Option.map_some, hback]

example : parseInt "+0_07 ".toList = some 7 ∧ parseInt "1__7".toList = none := by decide

end PyText
