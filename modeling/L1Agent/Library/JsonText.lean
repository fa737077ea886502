import L1Agent.Library.JsonOrder
import L1Agent.Library.Literals
import Mathlib.Data.Bool.AllAny

/-! # JSON texts

`dumps` writes a value as a text, and `loads` reads one.  A text that is written without blanks
is read as it was written (`loads_render`): the strings are escaped, and everything else is told
apart by its first character.  How a number is printed is left open; what is needed of it is that
it is read again, and that its characters are those of numbers.

The proof goes by the reader's own structure: the units of a character (`readUnits_escapeChar`), a
string (`readString_renderString`), a value up to the end of its text (`readValue_render`).  With
it equal texts are of equal values (`dumps_injective`), and a text that was asked for in ASCII is
ASCII (`ascii_render`).  Such a text is read by its bytes as well (`loads_eq_loadsAscii`).
-/
namespace Json
open Literals

/-! ## Strings -/

/-- The escapes of one letter. -/
def shortEscapes : List (Char × Char) :=
  [('"', '"'), ('\\', '\\'), ('\n', 'n'), ('\r', 'r'), ('\t', 't'), ('\x0c', 'f'), ('\x08', 'b')]

/-- Four digits. -/
def hex4 (n : Nat) : List Char :=
  [hexDigit (n / 4096 % 16), hexDigit (n / 256 % 16), hexDigit (n / 16 % 16), hexDigit (n % 16)]

/-- The units of UTF-16 that a character consists of. -/
def codeUnits (c : Char) : List Nat :=
  if c.toNat < 0x10000 then [c.toNat]
  else [0xD800 + (c.toNat - 0x10000) / 1024, 0xDC00 + (c.toNat - 0x10000) % 1024]

/-- A character, as it stands in a string. -/
def escapeChar (ensureAscii : Bool) (c : Char) : List Char :=
  match shortEscapes.lookup c with
  | some e => ['\\', e]
  | none =>
    if 32 ≤ c.toNat ∧ (c.toNat ≤ 126 ∨ ensureAscii = false) then [c]
    else (codeUnits c).flatMap fun n => '\\' :: 'u' :: hex4 n

/-- A string with its quotes. -/
def renderString (ensureAscii : Bool) (s : String) : List Char :=
  '"' :: (s.toList.flatMap (escapeChar ensureAscii) ++ ['"'])

/-- The characters that stand behind a backslash, and what they stand for. -/
def unescape (e : Char) : Option Char :=
  (('/', '/') :: shortEscapes.map Prod.swap).lookup e

def readHex4 (a b c d : Char) : Option Nat :=
  (hexValue a).bind fun a => (hexValue b).bind fun b => (hexValue c).bind fun c =>
    (hexValue d).map fun d => 4096 * a + 256 * b + 16 * c + d

/-- The units of a string, up to its closing quote, and what comes after it. -/
def readUnits : List Char → Option (List Nat × List Char)
  | [] => none
  | c :: rest =>
    if c = '"' then some ([], rest)
    else if c = '\\' then
      match rest with
      | [] => none
      | e :: rest =>
        if e = 'u' then
          match rest with
          | a :: b :: c :: d :: rest => (readHex4 a b c d).bind fun n =>
              (readUnits rest).map fun r => (n :: r.1, r.2)
          | _ => none
        else (unescape e).bind fun c => (readUnits rest).map fun r => (c.toNat :: r.1, r.2)
    else if c.toNat < 32 then none
    else (readUnits rest).map fun r => (c.toNat :: r.1, r.2)

/-- The characters that the units are; `none` where a surrogate stands alone. -/
def joinUnits : List Nat → Option (List Char)
  | [] => some []
  | n :: ns =>
    if 0xD800 ≤ n ∧ n ≤ 0xDBFF then
      match ns with
      | [] => none
      | m :: ms =>
        if 0xDC00 ≤ m ∧ m ≤ 0xDFFF then (joinUnits ms).map
          (Char.ofNat (0x10000 + 1024 * (n - 0xD800) + (m - 0xDC00)) :: ·)
        else none
    else if 0xDC00 ≤ n ∧ n ≤ 0xDFFF then none
    else (joinUnits ns).map (Char.ofNat n :: ·)

/-- The string, after its opening quote, and what comes after it. -/
def readString (rest : List Char) : Option (String × List Char) :=
  (readUnits rest).bind fun r => (joinUnits r.1).map fun cs => (String.ofList cs, r.2)

theorem readHex4_hex4 {n : Nat} (h : n < 65536) :
    readHex4 (hexDigit (n / 4096 % 16)) (hexDigit (n / 256 % 16)) (hexDigit (n / 16 % 16))
      (hexDigit (n % 16)) = some n := by
  have hdigit : ∀ m, hexValue (hexDigit (m % 16)) = some (m % 16) := fun m =>
    (hexValue_hexDigit _ (Nat.mod_lt _ (by decide))).1
  unfold readHex4
  rw [hdigit, hdigit, hdigit, hdigit]
  simp only [Option.bind_some, Option.map_some, Option.some_inj]
  omega

/-- A unit that is written with its number. -/
theorem readUnits_number {n : Nat} (h : n < 65536) (rest : List Char) :
    readUnits ('\\' :: 'u' :: (hex4 n ++ rest)) =
      (readUnits rest).map fun r => (n :: r.1, r.2) := by
  rw [readUnits.eq_def]
  dsimp only
  rw [if_neg (by decide), if_pos rfl, if_pos rfl]
  show (readHex4 _ _ _ _).bind _ = _
  rw [readHex4_hex4 h]
  rfl

/-- A character that is written with a letter. -/
theorem readUnits_short {c e : Char} (h : shortEscapes.lookup c = some e) (rest : List Char) :
    readUnits ('\\' :: e :: rest) = (readUnits rest).map fun r => (c.toNat :: r.1, r.2) := by
  have hback : e ≠ 'u' ∧ unescape e = some c := by
    have hall : ∀ p ∈ shortEscapes, p.2 ≠ 'u' ∧ unescape p.2 = some p.1 := by decide
    obtain ⟨before, after, hsplit, -⟩ := List.lookup_eq_some_iff.mp h
    exact hall (c, e) (by rw [hsplit]; simp)
  rw [readUnits.eq_def]
  dsimp only
  rw [if_neg (by decide), if_pos rfl, if_neg hback.1, hback.2]
  rfl

/-- A character that stands for itself. -/
theorem readUnits_plain {c : Char} (h : shortEscapes.lookup c = none) (h32 : 32 ≤ c.toNat)
    (rest : List Char) :
    readUnits (c :: rest) = (readUnits rest).map fun r => (c.toNat :: r.1, r.2) := by
  have hquote : c ≠ '"' := by
    rintro rfl
    exact absurd h (by decide)
  have hbackslash : c ≠ '\\' := by
    rintro rfl
    exact absurd h (by decide)
  rw [readUnits.eq_def]
  dsimp only
  rw [if_neg hquote, if_neg hbackslash, if_neg (by omega)]

theorem toNat_lt (c : Char) : c.toNat < 0x110000 := by
  rcases c.valid with h | h
  · have hsmall : c.toNat < 0xd800 := h
    omega
  · exact h.2

theorem codeUnits_lt (c : Char) : ∀ n ∈ codeUnits c, n < 65536 := by
  intro n hn
  unfold codeUnits at hn
  have hvalid := toNat_lt c
  split at hn
  · rename_i hlt
    rw [List.mem_singleton.mp hn]
    exact hlt
  · rcases List.mem_cons.mp hn with hn | hn
    · omega
    · have hlow := List.mem_singleton.mp hn
      omega

theorem readUnits_numbers {ns : List Nat} (h : ∀ n ∈ ns, n < 65536) (rest : List Char) :
    readUnits ((ns.flatMap fun n => '\\' :: 'u' :: hex4 n) ++ rest) =
      (readUnits rest).map fun r => (ns ++ r.1, r.2) := by
  induction ns with
  | nil => simp
  | cons n ns ih =>
    rw [List.flatMap_cons, List.append_assoc]
    show readUnits ('\\' :: 'u' :: (hex4 n ++ (_ ++ rest))) = _
    rw [readUnits_number (h n (List.mem_cons_self ..)),
      ih fun m hm => h m (List.mem_cons_of_mem _ hm), Option.map_map]
    rfl

/-- **The units of a character** are read as they were written. -/
theorem readUnits_escapeChar (ensureAscii : Bool) (c : Char) (rest : List Char) :
    ∃ ns, readUnits (escapeChar ensureAscii c ++ rest) =
      (readUnits rest).map (fun r => (ns ++ r.1, r.2)) ∧ (ns = [c.toNat] ∨ ns = codeUnits c) := by
  unfold escapeChar
  cases hshort : shortEscapes.lookup c with
  | some e => exact ⟨[c.toNat], readUnits_short hshort rest, .inl rfl⟩
  | none =>
    dsimp only
    split
    · rename_i hplain
      exact ⟨[c.toNat], readUnits_plain hshort hplain.1 rest, .inl rfl⟩
    · exact ⟨codeUnits c, readUnits_numbers (codeUnits_lt c) rest, .inr rfl⟩

/-- A character is no surrogate. -/
theorem not_surrogate (c : Char) : c.toNat < 0xD800 ∨ 0xDFFF < c.toNat := by
  rcases c.valid with h | h
  · exact .inl h
  · exact .inr h.1

theorem joinUnits_single (c : Char) (ns : List Nat) :
    joinUnits (c.toNat :: ns) = (joinUnits ns).map (c :: ·) := by
  have hc := not_surrogate c
  rw [joinUnits.eq_def]
  dsimp only
  rw [if_neg (by omega), if_neg (by omega), Char.ofNat_toNat]

theorem joinUnits_codeUnits (c : Char) (ns : List Nat) :
    joinUnits (codeUnits c ++ ns) = (joinUnits ns).map (c :: ·) := by
  unfold codeUnits
  have hc := toNat_lt c
  split
  · exact joinUnits_single c ns
  · rename_i hlarge
    show joinUnits ((0xD800 + (c.toNat - 0x10000) / 1024) ::
      (0xDC00 + (c.toNat - 0x10000) % 1024) :: ns) = _
    have hvalue : 0x10000 + 1024 * (0xD800 + (c.toNat - 0x10000) / 1024 - 0xD800) +
        (0xDC00 + (c.toNat - 0x10000) % 1024 - 0xDC00) = c.toNat := by omega
    rw [joinUnits.eq_def]
    dsimp only
    rw [if_pos (by omega), if_pos (by omega), hvalue, Char.ofNat_toNat]

/-- **A string is read as it was written.** -/
theorem readString_renderString (ensureAscii : Bool) (s : String) (rest : List Char) :
    readString (s.toList.flatMap (escapeChar ensureAscii) ++ '"' :: rest) = some (s, rest) := by
  have hunits : ∀ cs : List Char, ∃ ns,
      readUnits (cs.flatMap (escapeChar ensureAscii) ++ '"' :: rest) = some (ns, rest) ∧
        joinUnits ns = some cs := by
    intro cs
    induction cs with
    | nil =>
      refine ⟨[], ?_, rfl⟩
      rw [List.flatMap_nil, List.nil_append, readUnits.eq_def]
      dsimp only
      rw [if_pos rfl]
    | cons c cs ih =>
      obtain ⟨ns, hread, hjoin⟩ := ih
      obtain ⟨ms, hchar, hms⟩ := readUnits_escapeChar ensureAscii c
        (cs.flatMap (escapeChar ensureAscii) ++ '"' :: rest)
      refine ⟨ms ++ ns, ?_, ?_⟩
      · rw [List.flatMap_cons, List.append_assoc, hchar, hread]
        rfl
      · rcases hms with rfl | rfl
        · exact (joinUnits_single c ns).trans (by rw [hjoin]; rfl)
        · exact (joinUnits_codeUnits c ns).trans (by rw [hjoin]; rfl)
  obtain ⟨ns, hread, hjoin⟩ := hunits s.toList
  unfold readString
  rw [hread, Option.bind_some, hjoin]
  simp

/-! ## Numbers -/

/-- How numbers are printed and read. -/
structure Numbers where
  /-- The numbers that are printed: the integers and the finite floats. -/
  has : Json → Prop
  text : Json → String
  parse : String → Option Json

/-- The characters of numbers. -/
def isNumberChar (c : Char) : Bool := "0123456789+-.eE".toList.contains c

/-- **A number is read as it was printed.** -/
structure Numbers.Faithful (numbers : Numbers) : Prop where
  parse_text : ∀ v, numbers.has v → numbers.parse (numbers.text v) = some v
  chars : ∀ v, numbers.has v → ∀ c ∈ (numbers.text v).toList, isNumberChar c = true
  nonempty : ∀ v, numbers.has v → numbers.text v ≠ ""

/-! ## Writing a value -/

/-- The settings of `json.dumps`. -/
structure DumpOptions where
  sortKeys : Bool := false
  itemSeparator : String := ", "
  keySeparator : String := ": "
  ensureAscii : Bool := true
  deriving DecidableEq, Repr

section Render
variable (numbers : Numbers) (options : DumpOptions)

mutual

/-- The text of a value, its keys in the order that they stand in. -/
def render : Json → List Char
  | null => "null".toList
  | bool true => "true".toList
  | bool false => "false".toList
  | int n => (numbers.text (int n)).toList
  | float q => (numbers.text (float q)).toList
  | str s => renderString options.ensureAscii s
  | arr items => '[' :: renderItems items
  | obj fields => '{' :: renderFields fields

/-- What comes after the opening bracket. -/
def renderItems : List Json → List Char
  | [] => [']']
  | v :: vs => render v ++ renderMoreItems vs

def renderMoreItems : List Json → List Char
  | [] => [']']
  | v :: vs => options.itemSeparator.toList ++ (render v ++ renderMoreItems vs)

/-- What comes after the opening brace. -/
def renderFields : List (String × Json) → List Char
  | [] => ['}']
  | (k, v) :: fields => renderString options.ensureAscii k ++
      (options.keySeparator.toList ++ (render v ++ renderMoreFields fields))

def renderMoreFields : List (String × Json) → List Char
  | [] => ['}']
  | (k, v) :: fields => options.itemSeparator.toList ++ (renderString options.ensureAscii k ++
      (options.keySeparator.toList ++ (render v ++ renderMoreFields fields)))

end

/-- `json.dumps` -/
def dumps (v : Json) : String :=
  String.ofList (render numbers options (if options.sortKeys then v.canonical else v))

end Render

/-! ## Reading a value -/

def isBlank (c : Char) : Bool := c = ' ' || c = '\n' || c = '\r' || c = '\t'

def skip (cs : List Char) : List Char := cs.dropWhile isBlank

/-- A number, and what comes after it. -/
def readNumber (numbers : Numbers) (cs : List Char) : Option (Json × List Char) :=
  (numbers.parse (String.ofList (cs.takeWhile isNumberChar))).map fun v =>
    (v, cs.dropWhile isNumberChar)

/-- A key with its colon, and what comes after it. -/
def readKey : List Char → Option (String × List Char)
  | '"' :: rest => (readString rest).bind fun k => match skip k.2 with
    | ':' :: rest => some (k.1, rest)
    | _ => none
  | _ => none

section Read
variable (numbers : Numbers)

mutual

/-- A value, and what comes after it; the values in it are at most so deep and so many. -/
def readValue : Nat → List Char → Option (Json × List Char)
  | 0, _ => none
  | n + 1, cs => match skip cs with
    | '"' :: rest => (readString rest).map fun r => (str r.1, r.2)
    | '[' :: rest => match skip rest with
      | ']' :: rest => some (arr [], rest)
      | _ => (readItems n rest).map fun r => (arr r.1, r.2)
    | '{' :: rest => match skip rest with
      | '}' :: rest => some (obj [], rest)
      | _ => (readFields n rest).map fun r => (ofPairs r.1, r.2)
    | 'n' :: 'u' :: 'l' :: 'l' :: rest => some (null, rest)
    | 't' :: 'r' :: 'u' :: 'e' :: rest => some (bool true, rest)
    | 'f' :: 'a' :: 'l' :: 's' :: 'e' :: rest => some (bool false, rest)
    | cs => readNumber numbers cs

/-- The items of a list up to its closing bracket; there is one at least. -/
def readItems : Nat → List Char → Option (List Json × List Char)
  | 0, _ => none
  | n + 1, cs => (readValue n cs).bind fun v => match skip v.2 with
    | ']' :: rest => some ([v.1], rest)
    | ',' :: rest => (readItems n rest).map fun r => (v.1 :: r.1, r.2)
    | _ => none

/-- The fields of an object up to its closing brace; there is one at least. -/
def readFields : Nat → List Char → Option (List (String × Json) × List Char)
  | 0, _ => none
  | n + 1, cs => (readKey (skip cs)).bind fun k => (readValue n k.2).bind fun v =>
    match skip v.2 with
    | '}' :: rest => some ([(k.1, v.1)], rest)
    | ',' :: rest => (readFields n rest).map fun r => ((k.1, v.1) :: r.1, r.2)
    | _ => none

end

/-- `json.loads` -/
def loads (text : String) : Option Json :=
  (readValue numbers (text.toList.length + 1) text.toList).bind fun r =>
    if skip r.2 = [] then some r.1 else none

end Read

/-! ## A value is read as it was written -/

variable {numbers : Numbers} {options : DumpOptions}

/-- Nothing comes after a number that could be part of it. -/
def Ends (rest : List Char) : Prop := ∀ c ∈ rest.head?, isNumberChar c = false

theorem ends_nil : Ends [] := fun _ h => nomatch h

theorem ends_cons {c : Char} (h : isNumberChar c = false) (rest : List Char) : Ends (c :: rest) := by
  intro c' hc'
  cases Option.mem_some.mp hc'
  exact h

/-- The text is written without blanks. -/
structure DumpOptions.Compact (options : DumpOptions) : Prop where
  item : options.itemSeparator = ","
  key : options.keySeparator = ":"

theorem skip_cons {c : Char} (h : isBlank c = false) (rest : List Char) :
    skip (c :: rest) = c :: rest := by
  unfold skip
  rw [List.dropWhile_cons_of_neg (by simp [h])]

/-- A character of numbers begins nothing else. -/
theorem numberChar_facts {c : Char} (h : isNumberChar c = true) :
    isBlank c = false ∧ c ≠ ']' ∧ c ≠ '"' ∧ c ≠ '[' ∧ c ≠ '{' ∧ c ≠ 'n' ∧ c ≠ 't' ∧ c ≠ 'f' := by
  have hall : ∀ c ∈ "0123456789+-.eE".toList, isBlank c = false ∧ c ≠ ']' ∧ c ≠ '"' ∧ c ≠ '[' ∧
      c ≠ '{' ∧ c ≠ 'n' ∧ c ≠ 't' ∧ c ≠ 'f' :=
    List.all_iff_forall_prop.mp (by decide)
  exact hall c (List.contains_iff_mem.mp h)

theorem readNumber_text (hnumbers : numbers.Faithful) {v : Json} (hv : numbers.has v)
    {rest : List Char} (hrest : Ends rest) :
    readNumber numbers ((numbers.text v).toList ++ rest) = some (v, rest) := by
  have hchars := hnumbers.chars v hv
  have hends : rest.takeWhile isNumberChar = [] ∧ rest.dropWhile isNumberChar = rest := by
    cases rest with
    | nil => exact ⟨rfl, rfl⟩
    | cons c rest =>
      have hc := hrest c rfl
      exact ⟨List.takeWhile_cons_of_neg (by simp [hc]), List.dropWhile_cons_of_neg (by simp [hc])⟩
  unfold readNumber
  rw [List.takeWhile_append_of_pos hchars, List.dropWhile_append_of_pos hchars, hends.1, hends.2,
    List.append_nil, String.ofList_toList, hnumbers.parse_text v hv]
  rfl

theorem readValue_numberChar {n : Nat} {c : Char} {cs : List Char} (h : isNumberChar c = true) :
    readValue numbers (n + 1) (c :: cs) = readNumber numbers (c :: cs) := by
  obtain ⟨hblank, -, hquote, hbracket, hbrace, hn, ht, hf⟩ := numberChar_facts h
  rw [readValue.eq_def]
  dsimp only
  rw [skip_cons hblank]
  split
  all_goals first | rfl | (rename_i heq; cases heq; contradiction)

theorem readValue_number (hnumbers : numbers.Faithful) {v : Json} (hv : numbers.has v)
    {rest : List Char} (hrest : Ends rest) (n : Nat) :
    readValue numbers (n + 1) ((numbers.text v).toList ++ rest) = some (v, rest) := by
  rw [← readNumber_text hnumbers hv hrest]
  cases htext : (numbers.text v).toList with
  | nil => exact absurd (String.toList_inj.mp htext) (hnumbers.nonempty v hv)
  | cons c cs =>
    exact readValue_numberChar (hnumbers.chars v hv c (htext ▸ List.mem_cons_self ..))

/-- What a value begins with. -/
theorem render_head (hnumbers : numbers.Faithful) {v : Json} (hv : Proper numbers.has v) :
    ∃ c cs, render numbers options v = c :: cs ∧ isBlank c = false ∧ c ≠ ']' := by
  have hnumber : ∀ w, numbers.has w →
      ∃ c cs, (numbers.text w).toList = c :: cs ∧ isBlank c = false ∧ c ≠ ']' := by
    intro w hw
    cases htext : (numbers.text w).toList with
    | nil => exact absurd (String.toList_inj.mp htext) (hnumbers.nonempty w hw)
    | cons c cs =>
      obtain ⟨hblank, hbracket, -⟩ :=
        numberChar_facts (hnumbers.chars w hw c (htext ▸ List.mem_cons_self ..))
      exact ⟨c, cs, rfl, hblank, hbracket⟩
  cases v with
  | null => exact ⟨'n', _, rfl, by decide, by decide⟩
  | bool b => cases b <;> exact ⟨_, _, rfl, by decide, by decide⟩
  | int n => exact hnumber _ hv
  | float q => exact hnumber _ hv
  | str s => exact ⟨'"', _, rfl, by decide, by decide⟩
  | arr items => exact ⟨'[', _, rfl, by decide, by decide⟩
  | obj fields => exact ⟨'{', _, rfl, by decide, by decide⟩

theorem readKey_renderString (h : options.Compact) (k : String) (rest : List Char) :
    readKey (renderString options.ensureAscii k ++ (options.keySeparator.toList ++ rest)) =
      some (k, rest) := by
  rw [h.key]
  unfold renderString
  rw [List.cons_append, List.append_assoc]
  show (readString (_ ++ '"' :: ':' :: rest)).bind _ = _
  rw [readString_renderString]
  rfl

theorem skip_renderString (ensureAscii : Bool) (k : String) (rest : List Char) :
    skip (renderString ensureAscii k ++ rest) = renderString ensureAscii k ++ rest :=
  skip_cons (by decide) _

theorem readValue_bracket {n : Nat} {c : Char} {cs : List Char} (hblank : isBlank c = false)
    (hc : c ≠ ']') : readValue numbers (n + 1) ('[' :: c :: cs) =
      (readItems numbers n (c :: cs)).map fun r => (arr r.1, r.2) := by
  show (match skip (c :: cs) with
    | ']' :: rest => some (arr [], rest)
    | _ => (readItems numbers n (c :: cs)).map fun r : List Json × List Char =>
      (arr r.1, r.2)) = _
  rw [skip_cons hblank]
  split
  · rename_i heq
    cases heq
    contradiction
  · rfl

theorem setField_new {fields : List (String × Json)} {key : String} {value : Json}
    (h : key ∉ fields.map Prod.fst) : setField fields key value = fields ++ [(key, value)] := by
  unfold setField
  rw [if_neg]
  intro hany
  obtain ⟨f, hf, hkey⟩ := List.any_eq_true.mp hany
  exact h (List.mem_map.mpr ⟨f, hf, eq_of_beq hkey⟩)

/-- A mapping of pairs with distinct keys. -/
theorem ofPairs_of_nodup {pairs : List (String × Json)} (h : (pairs.map Prod.fst).Nodup) :
    ofPairs pairs = obj pairs := by
  have hfold : ∀ (rest fields : List (String × Json)),
      ((fields ++ rest).map Prod.fst).Nodup →
      rest.foldl (fun fields p => setField fields p.1 p.2) fields = fields ++ rest := by
    intro rest
    induction rest with
    | nil => simp
    | cons p rest ih =>
      intro fields hkeys
      have hnew : p.1 ∉ fields.map Prod.fst := by
        rw [List.map_append, List.map_cons, List.nodup_append] at hkeys
        exact fun hmem => hkeys.2.2 p.1 hmem p.1 (List.mem_cons_self ..) rfl
      have hkeys' : ((fields ++ [p] ++ rest).map Prod.fst).Nodup := by simpa using hkeys
      rw [List.foldl_cons, setField_new hnew, ih _ hkeys']
      simp
  unfold ofPairs
  rw [hfold pairs [] h]
  rfl

mutual

/-- **A value is read as it was written**, up to the end of its text. -/
theorem readValue_render (hnumbers : numbers.Faithful) (h : options.Compact) :
    ∀ (v : Json) (n : Nat) (rest : List Char), Proper numbers.has v →
      (render numbers options v).length < n → Ends rest →
      readValue numbers n (render numbers options v ++ rest) = some (v, rest)
  | _, 0, _, _, hn, _ => absurd hn (Nat.not_lt_zero _)
  | null, n + 1, rest, _, _, _ => rfl
  | bool b, n + 1, rest, _, _, _ => by cases b <;> rfl
  | int m, n + 1, rest, hv, _, hrest => readValue_number hnumbers hv hrest n
  | float q, n + 1, rest, hv, _, hrest => readValue_number hnumbers hv hrest n
  | str s, n + 1, rest, _, _, _ => by
    have htext : render numbers options (str s) ++ rest =
        '"' :: (s.toList.flatMap (escapeChar options.ensureAscii) ++ '"' :: rest) := by
      simp [render, renderString]
    rw [htext]
    show (readString _).map _ = _
    rw [readString_renderString]
    rfl
  | arr [], n + 1, rest, _, _, _ => rfl
  | arr (v :: vs), n + 1, rest, hv, hn, _ => by
    obtain ⟨c, cs, hhead, hblank, hbracket⟩ := @render_head numbers options hnumbers v hv.1
    have hitems := readItems_render hnumbers h (v :: vs) n rest hv (by simp)
      (by rw [render, List.length_cons] at hn; omega)
    have htext : renderItems numbers options (v :: vs) ++ rest =
        c :: (cs ++ renderMoreItems numbers options vs ++ rest) := by
      simp [renderItems, hhead]
    rw [render, List.cons_append, htext, readValue_bracket hblank hbracket, ← htext, hitems]
    rfl
  | obj [], n + 1, rest, _, _, _ => rfl
  | obj (f :: fields), n + 1, rest, hv, hn, _ => by
    have hfields := readFields_render hnumbers h (f :: fields) n rest hv.2 (by simp)
      (by rw [render, List.length_cons] at hn; omega)
    have hpairs : ofPairs (f :: fields) = obj (f :: fields) := ofPairs_of_nodup hv.1
    rw [render, List.cons_append]
    show (readFields numbers n (renderFields numbers options (f :: fields) ++ rest)).map _ = _
    rw [hfields, Option.map_some, hpairs]

theorem readItems_render (hnumbers : numbers.Faithful) (h : options.Compact) :
    ∀ (vs : List Json) (n : Nat) (rest : List Char), ProperItems numbers.has vs → vs ≠ [] →
      (renderItems numbers options vs).length < n →
      readItems numbers n (renderItems numbers options vs ++ rest) = some (vs, rest)
  | [], _, _, _, hne, _ => absurd rfl hne
  | _ :: _, 0, _, _, _, hn => absurd hn (Nat.not_lt_zero _)
  | [v], n + 1, rest, hvs, _, hn => by
    have hv := readValue_render hnumbers h v n (']' :: rest) hvs.1
      (by simp only [renderItems, renderMoreItems, List.length_append, List.length_singleton] at hn
          omega)
      (ends_cons (by decide) rest)
    have htext : renderItems numbers options [v] ++ rest =
        render numbers options v ++ ']' :: rest := by
      simp [renderItems, renderMoreItems]
    rw [htext, readItems, hv]
    rfl
  | v :: w :: vs, n + 1, rest, hvs, _, hn => by
    have htext : renderItems numbers options (v :: w :: vs) =
        render numbers options v ++ ',' :: renderItems numbers options (w :: vs) := by
      simp [renderItems, renderMoreItems, h.item]
    rw [htext, List.length_append, List.length_cons] at hn
    have hv := readValue_render hnumbers h v n (',' :: (renderItems numbers options (w :: vs) ++
      rest)) hvs.1 (by omega) (ends_cons (by decide) _)
    have hmore := readItems_render hnumbers h (w :: vs) n rest hvs.2 (by simp) (by omega)
    rw [htext, List.append_assoc, List.cons_append, readItems, hv]
    show (readItems numbers n (renderItems numbers options (w :: vs) ++ rest)).map _ = _
    rw [hmore]
    rfl

theorem readFields_render (hnumbers : numbers.Faithful) (h : options.Compact) :
    ∀ (fields : List (String × Json)) (n : Nat) (rest : List Char),
      ProperFields numbers.has fields → fields ≠ [] →
      (renderFields numbers options fields).length < n →
      readFields numbers n (renderFields numbers options fields ++ rest) = some (fields, rest)
  | [], _, _, _, hne, _ => absurd rfl hne
  | _ :: _, 0, _, _, _, hn => absurd hn (Nat.not_lt_zero _)
  | [(k, v)], n + 1, rest, hfields, _, hn => by
    have htext : renderFields numbers options [(k, v)] =
        renderString options.ensureAscii k ++ (options.keySeparator.toList ++
          (render numbers options v ++ ['}'])) := by
      simp [renderFields, renderMoreFields]
    rw [htext] at hn
    simp only [List.length_append, List.length_singleton] at hn
    have hv := readValue_render hnumbers h v n ('}' :: rest) hfields.1 (by omega)
      (ends_cons (by decide) rest)
    have hkey := readKey_renderString h k (render numbers options v ++ '}' :: rest)
    rw [htext]
    simp only [List.append_assoc, List.singleton_append]
    rw [readFields, skip_renderString, hkey, Option.bind_some, hv]
    rfl
  | (k, v) :: f :: fields, n + 1, rest, hfields, _, hn => by
    have htext : renderFields numbers options ((k, v) :: f :: fields) =
        renderString options.ensureAscii k ++ (options.keySeparator.toList ++
          (render numbers options v ++ ',' :: renderFields numbers options (f :: fields))) := by
      simp [renderFields, renderMoreFields, h.item]
    rw [htext] at hn
    simp only [List.length_append, List.length_cons] at hn
    have hv := readValue_render hnumbers h v n
      (',' :: (renderFields numbers options (f :: fields) ++ rest)) hfields.1 (by omega)
      (ends_cons (by decide) _)
    have hmore := readFields_render hnumbers h (f :: fields) n rest hfields.2 (by simp) (by omega)
    have hkey := readKey_renderString h k (render numbers options v ++
      ',' :: (renderFields numbers options (f :: fields) ++ rest))
    rw [htext]
    simp only [List.append_assoc, List.cons_append]
    rw [readFields, skip_renderString, hkey, Option.bind_some, hv]
    show (readFields numbers n (renderFields numbers options (f :: fields) ++ rest)).map _ = _
    rw [hmore]
    rfl

end

/-- **What `dumps` writes, `loads` reads**; with the keys in order where they were put in order. -/
theorem loads_dumps (hnumbers : numbers.Faithful) (h : options.Compact) {v : Json}
    (hv : Proper numbers.has v) :
    loads numbers (dumps numbers options v) =
      some (if options.sortKeys then v.canonical else v) := by
  have hproper : Proper numbers.has (if options.sortKeys then v.canonical else v) := by
    split
    · exact proper_canonical hv
    · exact hv
  have hread := readValue_render hnumbers h _ _ [] hproper (Nat.lt_succ_self _) ends_nil
  rw [List.append_nil] at hread
  unfold loads dumps
  rw [String.toList_ofList, hread]
  rfl

/-- **Equal texts are of equal values.** -/
theorem dumps_injective (hnumbers : numbers.Faithful) (h : options.Compact)
    (hsort : options.sortKeys = true) {v w : Json} (hv : Proper numbers.has v)
    (hw : Proper numbers.has w) :
    dumps numbers options v = dumps numbers options w ↔ Same v w := by
  rw [← canonical_eq_iff hv hw]
  constructor
  · intro heq
    have hread := loads_dumps hnumbers h hv
    rw [heq, loads_dumps hnumbers h hw, hsort] at hread
    exact (Option.some_inj.mp hread).symm
  · intro heq
    unfold dumps
    rw [hsort, if_pos rfl, if_pos rfl, heq]

/-! ## The text is ASCII -/

def Ascii (cs : List Char) : Prop := ∀ c ∈ cs, c.toNat < 128

theorem Ascii.append {cs ds : List Char} (h : Ascii cs) (h' : Ascii ds) : Ascii (cs ++ ds) := by
  intro c hc
  rcases List.mem_append.mp hc with hc | hc
  · exact h c hc
  · exact h' c hc

theorem Ascii.cons {c : Char} {cs : List Char} (h : c.toNat < 128) (h' : Ascii cs) :
    Ascii (c :: cs) := by
  intro d hd
  rcases List.mem_cons.mp hd with rfl | hd
  · exact h
  · exact h' d hd

theorem ascii_escapeChar (c : Char) : Ascii (escapeChar true c) := by
  unfold escapeChar
  cases hshort : shortEscapes.lookup c with
  | some e =>
    have hall : ∀ p ∈ shortEscapes, p.2.toNat < 128 := by decide
    obtain ⟨before, after, hsplit, -⟩ := List.lookup_eq_some_iff.mp hshort
    have he : e.toNat < 128 := hall (c, e) (by rw [hsplit]; simp)
    exact .cons (by decide) (.cons he fun _ h => nomatch h)
  | none =>
    dsimp only
    split
    · rename_i hplain
      have hle : c.toNat ≤ 126 := hplain.2.resolve_right (by decide)
      exact .cons (by omega) fun _ h => nomatch h
    · intro d hd
      obtain ⟨n, -, hd⟩ := List.mem_flatMap.mp hd
      have hdigit : ∀ m < 16, (hexDigit m).toNat < 128 := by decide
      have hhex : Ascii (hex4 n) := by
        intro d hd
        simp only [hex4, List.mem_cons, List.not_mem_nil, or_false] at hd
        rcases hd with rfl | rfl | rfl | rfl <;> exact hdigit _ (Nat.mod_lt _ (by decide))
      exact Ascii.cons (c := '\\') (by decide) (.cons (by decide) hhex) d hd

theorem ascii_renderString (s : String) : Ascii (renderString true s) := by
  refine .cons (by decide) (.append (fun c hc => ?_) (.cons (by decide) fun _ h => nomatch h))
  obtain ⟨d, -, hc⟩ := List.mem_flatMap.mp hc
  exact ascii_escapeChar d c hc

theorem ascii_number (hnumbers : numbers.Faithful) {v : Json} (hv : numbers.has v) :
    Ascii (numbers.text v).toList := by
  have hall : ∀ c ∈ "0123456789+-.eE".toList, c.toNat < 128 :=
    List.all_iff_forall_prop.mp (by decide)
  intro c hc
  exact hall c (List.contains_iff_mem.mp (hnumbers.chars v hv c hc))

mutual

/-- **A text without blanks is ASCII**, if it was asked for. -/
theorem ascii_render (hnumbers : numbers.Faithful) (h : options.Compact)
    (hascii : options.ensureAscii = true) : ∀ v : Json, Proper numbers.has v →
      Ascii (render numbers options v)
  | null, _ => by
    unfold Ascii render
    exact List.all_iff_forall_prop.mp (by decide)
  | bool b, _ => by
    unfold Ascii
    cases b <;> (unfold render; exact List.all_iff_forall_prop.mp (by decide))
  | int _, hv => ascii_number hnumbers hv
  | float _, hv => ascii_number hnumbers hv
  | str s, _ => by
    rw [render, hascii]
    exact ascii_renderString s
  | arr items, hv => by
    rw [render]
    exact .cons (by decide) (ascii_renderItems hnumbers h hascii items hv)
  | obj fields, hv => by
    rw [render]
    exact .cons (by decide) (ascii_renderFields hnumbers h hascii fields hv.2)

theorem ascii_renderItems (hnumbers : numbers.Faithful) (h : options.Compact)
    (hascii : options.ensureAscii = true) : ∀ vs : List Json, ProperItems numbers.has vs →
      Ascii (renderItems numbers options vs)
  | [], _ => by
    unfold Ascii renderItems
    exact List.all_iff_forall_prop.mp (by decide)
  | v :: vs, hvs => by
    rw [renderItems]
    exact (ascii_render hnumbers h hascii v hvs.1).append
      (ascii_renderMoreItems hnumbers h hascii vs hvs.2)

theorem ascii_renderMoreItems (hnumbers : numbers.Faithful) (h : options.Compact)
    (hascii : options.ensureAscii = true) : ∀ vs : List Json, ProperItems numbers.has vs →
      Ascii (renderMoreItems numbers options vs)
  | [], _ => by
    unfold Ascii renderMoreItems
    exact List.all_iff_forall_prop.mp (by decide)
  | v :: vs, hvs => by
    rw [renderMoreItems, h.item]
    exact .cons (by decide) ((ascii_render hnumbers h hascii v hvs.1).append
      (ascii_renderMoreItems hnumbers h hascii vs hvs.2))

theorem ascii_renderFields (hnumbers : numbers.Faithful) (h : options.Compact)
    (hascii : options.ensureAscii = true) : ∀ fields : List (String × Json),
      ProperFields numbers.has fields → Ascii (renderFields numbers options fields)
  | [], _ => by
    unfold Ascii renderFields
    exact List.all_iff_forall_prop.mp (by decide)
  | (k, v) :: fields, hfields => by
    rw [renderFields, h.key, hascii]
    exact (ascii_renderString k).append (.cons (by decide)
      ((ascii_render hnumbers h hascii v hfields.1).append
        (ascii_renderMoreFields hnumbers h hascii fields hfields.2)))

theorem ascii_renderMoreFields (hnumbers : numbers.Faithful) (h : options.Compact)
    (hascii : options.ensureAscii = true) : ∀ fields : List (String × Json),
      ProperFields numbers.has fields → Ascii (renderMoreFields numbers options fields)
  | [], _ => by
    unfold Ascii renderMoreFields
    exact List.all_iff_forall_prop.mp (by decide)
  | (k, v) :: fields, hfields => by
    rw [renderMoreFields, h.item, h.key, hascii]
    exact .cons (by decide) ((ascii_renderString k).append (.cons (by decide)
      ((ascii_render hnumbers h hascii v hfields.1).append
        (ascii_renderMoreFields hnumbers h hascii fields hfields.2))))

end

theorem dumps_ascii (hnumbers : numbers.Faithful) (h : options.Compact)
    (hascii : options.ensureAscii = true) {v : Json} (hv : Proper numbers.has v) :
    Ascii (dumps numbers options v).toList := by
  unfold dumps
  rw [String.toList_ofList]
  refine ascii_render hnumbers h hascii _ ?_
  split
  · exact proper_canonical hv
  · exact hv

/-! ## Reading a text by its bytes

The characters of an ASCII text are its bytes, so that it can be read without being decoded: in a
proof that computes with a long text, `loads` is replaced by `loadsAscii`. -/

/-- The characters of a text that is ASCII, one for each byte. -/
def asciiChars (text : String) : Option (List Char) :=
  let bytes := text.toByteArray.data.toList
  if bytes.all (·.toNat < 128) then some (bytes.map fun b => Char.ofNat b.toNat) else none

theorem ofNat_encoded {c : Char} (h : ∀ b ∈ String.utf8EncodeChar c, b.toNat < 128) :
    (String.utf8EncodeChar c).map (fun b => Char.ofNat b.toNat) = [c] := by
  unfold String.utf8EncodeChar at h ⊢
  dsimp only at h ⊢
  split_ifs at h ⊢ with hone
  · rw [List.map_singleton, UInt8.toNat_ofNat', Nat.mod_eq_of_lt (by omega)]
    exact congrArg (fun c => [c]) (Char.ofNat_toNat c)
  -- The first byte of a longer encoding is none of ASCII.
  all_goals
    have hfirst := h _ List.mem_cons_self
    rw [UInt8.toNat_ofNat'] at hfirst
    omega

theorem toList_of_ascii {text : String} {chars : List Char} (h : asciiChars text = some chars) :
    text.toList = chars := by
  obtain ⟨cs, rfl⟩ : ∃ cs, text = String.ofList cs := ⟨text.toList, String.ofList_toList.symm⟩
  unfold asciiChars at h
  rw [String.toByteArray_ofList, List.utf8Encode] at h
  dsimp only at h
  rw [List.toList_data_toByteArray] at h
  split_ifs at h with hall
  cases h
  rw [String.toList_ofList, List.map_flatMap]
  rw [List.all_flatMap, List.all_eq_true] at hall
  have hchars : ∀ c ∈ cs, (String.utf8EncodeChar c).map (fun b => Char.ofNat b.toNat) = [c] :=
    fun c hc => ofNat_encoded fun b hb => of_decide_eq_true (List.all_eq_true.mp (hall c hc) b hb)
  rw [List.flatMap_congr hchars]
  exact (List.flatMap_singleton' cs).symm

/-- `loads`, for a text of any length that is ASCII. -/
def loadsAscii (numbers : Numbers) (text : String) : Option Json :=
  match asciiChars text with
  | some chars => (readValue numbers (chars.length + 1) chars).bind fun r =>
      if skip r.2 = [] then some r.1 else none
  | none => loads numbers text

theorem loads_eq_loadsAscii {numbers : Numbers} : loads numbers = loadsAscii numbers := by
  funext text
  unfold loadsAscii
  split
  · rename_i chars h
    rw [loads, toList_of_ascii h]
  · rfl

/-! ## Integers in decimal -/

/-- The integers, and no other numbers. -/
def integers : Numbers where
  has v := ∃ n, v = int n
  text
    | int n => n.repr
    | _ => ""
  parse s := match s.toList with
    | '-' :: digits => some (int (-(Nat.ofDigitChars 10 digits 0)))
    | digits => some (int (Nat.ofDigitChars 10 digits 0))

/-- The text of an integer: a sign or none, and digits. -/
theorem toList_repr (n : Int) : n.repr.toList = Nat.toDigits 10 n.toNat ∧ 0 ≤ n ∨
    n.repr.toList = '-' :: Nat.toDigits 10 (-n).toNat ∧ n < 0 := by
  rw [Int.repr_eq_if]
  split
  · rename_i hn
    exact .inl ⟨Nat.toList_repr, hn⟩
  · rename_i hn
    refine .inr ⟨?_, by omega⟩
    rw [String.toList_append, Nat.toList_repr]
    rfl

theorem integers_faithful : integers.Faithful := by
  have hdigits : ∀ n, ∀ c ∈ Nat.toDigits 10 n, c.isDigit = true := fun n c hc =>
    Nat.isDigit_of_mem_toDigits (by decide) (by decide) hc
  have hvalue : ∀ n, Nat.ofDigitChars 10 (Nat.toDigits 10 n) 0 = n := fun n =>
    Nat.ofDigitChars_toDigits (by decide) (by decide)
  have hchar : ∀ c : Char, c.isDigit = true → isNumberChar c = true := by
    intro c hc
    have hrange : 48 ≤ c.toNat ∧ c.toNat ≤ 57 := by
      simpa [Char.isDigit, UInt32.le_iff_toNat_le] using hc
    have hall : ∀ m < 58, 48 ≤ m → isNumberChar (Char.ofNat m) = true := by decide
    have hc' := hall c.toNat (by omega) hrange.1
    rwa [Char.ofNat_toNat] at hc'
  constructor
  · rintro _ ⟨n, rfl⟩
    show (match n.repr.toList with
      | '-' :: digits => some (int (-(Nat.ofDigitChars 10 digits 0)))
      | digits => some (int (Nat.ofDigitChars 10 digits 0))) = _
    rcases toList_repr n with ⟨htext, hn⟩ | ⟨htext, hn⟩
    · rw [htext]
      split
      · rename_i digits heq
        have hminus := hdigits _ '-' (heq ▸ List.mem_cons_self ..)
        exact absurd hminus (by decide)
      · rw [hvalue]
        simp [hn]
    · rw [htext]
      show some (int (-(Nat.ofDigitChars 10 (Nat.toDigits 10 (-n).toNat) 0 : Nat))) = _
      rw [hvalue]
      have hback : -(((-n).toNat : Nat) : Int) = n := by omega
      rw [hback]
  · rintro _ ⟨n, rfl⟩ c hc
    have hc' : c ∈ n.repr.toList := hc
    rcases toList_repr n with ⟨htext, -⟩ | ⟨htext, -⟩
    · exact hchar c (hdigits _ c (htext ▸ hc'))
    · rw [htext] at hc'
      rcases List.mem_cons.mp hc' with rfl | hc'
      · decide
      · exact hchar c (hdigits _ c hc')
  · rintro _ ⟨n, rfl⟩ heq
    have hnil : n.repr.toList = [] := by
      have heq' : n.repr = "" := heq
      rw [heq']
      rfl
    rcases toList_repr n with ⟨htext, -⟩ | ⟨htext, -⟩
    · exact Nat.toDigits_ne_nil (htext.symm.trans hnil)
    · rw [htext] at hnil
      cases hnil

end Json
