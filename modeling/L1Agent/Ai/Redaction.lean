import L1Agent.Library.Fenced
import L1Agent.Library.PyText
import L1Agent.Library.Scanning
import Mathlib.Data.List.Dedup
import Mathlib.Logic.Function.Basic

/-! # Redaction (`ai/redaction.py`)

What is sent to a model has placeholders such as `[[EMAIL_1]]` for secrets and personal data.  A
regular expression is given by what it cuts a text into: the theorems hold for every one.

A redactor keeps the originals of the placeholders that it has given out, by kind and number, so
that an answer can be given them back (`restore`).  The passes are made one after the other, first
the known secrets and then one for each pattern.
-/
namespace L1Agent
namespace Redaction
open PyText Scanning

inductive Kind where
  | secret | email | phone | card | iban | nationalId | ip | person
  deriving DecidableEq

/-- The kind as it stands in a placeholder. -/
def Kind.name : Kind → List Char
  | .secret => "SECRET".toList
  | .email => "EMAIL".toList
  | .phone => "PHONE".toList
  | .card => "CARD".toList
  | .iban => "IBAN".toList
  | .nationalId => "ID".toList
  | .ip => "IP".toList
  | .person => "PERSON".toList

/-- `PERSONAL` -/
def personal : List Kind := [.email, .phone, .person, .ip]

/-! ## What is accepted

The patterns let digits and letters pass only: `int` does not fail on them. -/

/-- `int(char, 36)` of a digit or a letter. -/
def int36 (c : Char) : Nat :=
  match decimal? c with
  | some d => d
  | none => if c.isUpper then c.toNat - 'A'.toNat + 10 else c.toNat - 'a'.toNat + 10

/-- The sum of `_luhn`, over the digits from the last one: every second one is doubled. -/
def luhnSum : Bool → List Char → Nat
  | _, [] => 0
  | false, c :: rest => int36 c + luhnSum true rest
  | true, c :: rest =>
    (if 2 * int36 c > 9 then 2 * int36 c - 9 else 2 * int36 c) + luhnSum false rest

/-- `_luhn` -/
def luhn (digits : List Char) : Bool := luhnSum false digits.reverse % 10 == 0

/-- `_is_card` -/
def isCard (text : List Char) : Bool :=
  let digits := text.filter isDecimal
  decide (13 ≤ digits.length ∧ digits.length ≤ 19) && decide (1 < digits.dedup.length) &&
    luhn digits

/-- `_is_iban` -/
def isIban (text : List Char) : Bool :=
  let compact := text.filter (· ≠ ' ')
  if 15 ≤ compact.length ∧ compact.length ≤ 34 then
    let moved := compact.drop 4 ++ compact.take 4
    Nat.ofDigitChars 10 (moved.flatMap fun c => Nat.toDigits 10 (int36 c)) 0 % 97 == 1
  else false

/-- `_iban_length`: the longest first, down to fifteen characters. -/
def ibanLength (text : List Char) : Nat :=
  ((List.range' 15 (text.length - 14)).reverse.find? fun stop =>
    !((text.take stop).getLast? == some ' ' || text[stop]?.any Char.isAlphanum) &&
      isIban (text.take stop)).getD 0

/-- `_is_ip` -/
def isIp (text : List Char) : Bool :=
  (text.splitOn '.').all fun part => (parseInt part).any (· ≤ 255)

/-! ## Patterns -/

/-- A match: the group that is asked for, and what stands around it. -/
structure Match where
  before : List Char
  group : List Char
  after : List Char

/-- `match.group(0)` -/
def Match.text (m : Match) : List Char := m.before ++ m.group ++ m.after

/-- A regular expression: the matches that `sub` goes over, and the characters between them. -/
structure Pattern where
  cut : List Char → List (Piece Char Match)
  whole : ∀ text, replaced Match.text (cut text) = text

/-- The patterns of the module, each with the group that is replaced. -/
structure Patterns where
  privateKey : Pattern
  authScheme : Pattern
  keyValue : Pattern
  urlCredentials : Pattern
  tokenShapes : Pattern
  email : Pattern
  iban : Pattern
  card : Pattern
  ssn : Pattern
  phone : Pattern
  ipv4 : Pattern
  longToken : Pattern
  /-- The pattern of these names, the first that matches. -/
  names : List (List Char) → Pattern
  looksRandom : List Char → Bool

/-! ## The redactor -/

/-- What a `Redactor` has replaced so far. -/
structure Redactor where
  originals : List Char → Option (List Char)
  placeholders : Kind × List Char → Option (List Char)
  counts : Kind → Nat

/-- Nothing is replaced yet. -/
def Redactor.new : Redactor := ⟨fun _ => none, fun _ => none, fun _ => 0⟩

/-- The brackets of a placeholder, and what text that looks like one is broken up with. -/
def brackets : Fenced.Fences Char := ⟨'[', ']', ' ', by decide, by decide⟩

/-- The text of a placeholder. -/
def nameOf (kind number : List Char) : List Char := brackets.enclose (kind ++ '_' :: number)

/-- `_placeholder` -/
def Redactor.placeholder (r : Redactor) (kind : Kind) (value : List Char) :
    List Char × Redactor :=
  match r.placeholders (kind, value) with
  | some name => (name, r)
  | none =>
    let count := r.counts kind + 1
    let name := nameOf kind.name (Nat.toDigits 10 count)
    (name,
      { counts := Function.update r.counts kind count
        placeholders := Function.update r.placeholders (kind, value) (some name)
        originals := Function.update r.originals name (some value) })

/-- One line of `redact`: a pattern, the kind of what it finds, and the part of a match that is
replaced. -/
structure Pass where
  pattern : Pattern
  kind : Kind
  part : Match → Option Match
  same : ∀ {m m'}, part m = some m' → m'.text = m.text

/-- `_swap`: the group, where it is accepted. -/
def swap (pattern : Pattern) (kind : Kind) (accept : List Char → Bool) : Pass where
  pattern := pattern
  kind := kind
  part m := if accept m.group then some m else none
  same := by
    intro m m' h
    rw [Option.ite_none_right_eq_some] at h
    rw [Option.some.inj h.2]

/-- `_iban`: as much of the match as is an IBAN. -/
def swapIban (pattern : Pattern) : Pass where
  pattern := pattern
  kind := .iban
  part m :=
    let found := m.text
    let length := ibanLength found
    if length = 0 then none else some ⟨[], found.take length, found.drop length⟩
  same := by
    intro m m' h
    rw [Option.ite_none_left_eq_some] at h
    rw [← Option.some.inj h.2]
    show ([] ++ m.text.take _) ++ m.text.drop _ = m.text
    rw [List.nil_append, List.take_append_drop]

namespace Pass
variable (pass : Pass)

/-- What a match is replaced by. -/
def replace (m : Match) (r : Redactor) : List Char × Redactor :=
  match pass.part m with
  | some part =>
    let (name, r) := r.placeholder pass.kind part.group
    (part.before ++ name ++ part.after, r)
  | none => (m.text, r)

/-- `pattern.sub(replace, text)` over the pieces of the text. -/
def sub : List (Piece Char Match) → Redactor → List Char × Redactor
  | [], r => ([], r)
  | .plain c :: ps, r =>
    let (out, r) := sub ps r
    (c :: out, r)
  | .token m :: ps, r =>
    let (text, r) := pass.replace m r
    let (out, r) := sub ps r
    (text ++ out, r)

def run (text : List Char) (r : Redactor) : List Char × Redactor :=
  pass.sub (pass.pattern.cut text) r

end Pass

/-- The known names: those that are too short are left out, the longest comes first. -/
def knownNames (known : List (Option (List Char))) : List (List Char) :=
  let names := (known.filterMap fun n => n.map strip).filter fun n => 3 ≤ n.length
  (names.dedup.mergeSort fun a b => a.length ≤ b.length).reverse

variable (patterns : Patterns) (known : List (Option (List Char)))

/-- The lines of `redact`, in their order. -/
def passes : List Pass :=
  [swap patterns.privateKey .secret fun _ => true,
    swap patterns.authScheme .secret fun _ => true,
    swap patterns.keyValue .secret fun _ => true,
    swap patterns.urlCredentials .secret fun _ => true,
    swap patterns.tokenShapes .secret fun _ => true,
    swap patterns.email .email fun _ => true,
    swapIban patterns.iban,
    swap patterns.card .card isCard,
    swap patterns.ssn .nationalId fun _ => true,
    swap patterns.phone .phone fun _ => true,
    swap patterns.ipv4 .ip isIp] ++
  (if knownNames known = [] then []
    else [swap (patterns.names (knownNames known)) .person fun _ => true]) ++
  [swap patterns.longToken .secret patterns.looksRandom]

/-- Each pass goes over what the one before it left. -/
def runAll : List Pass → List Char → Redactor → List Char × Redactor
  | [], text, r => (text, r)
  | pass :: passes, text, r =>
    let (out, r) := pass.run text r
    runAll passes out r

/-- `out.replace("[[", "[ [").replace("]]", "] ]")` -/
def escape (text : List Char) : List Char :=
  brackets.broken (Marks.replace ['[', '['] ['[', ' ', '['] text)

/-- `redact` -/
def redact (text : Option (List Char)) (r : Redactor) : List Char × Redactor :=
  match text.getD [] with
  | [] => ([], r)
  | c :: rest => runAll (passes patterns known) (escape (c :: rest)) r

/-- The texts of a run, one after the other. -/
def redactAll : List (Option (List Char)) → Redactor → List (List Char) × Redactor
  | [], r => ([], r)
  | text :: texts, r =>
    let (out, r) := redact patterns known text r
    let (outs, r) := redactAll texts r
    (out :: outs, r)

/-! ## Restoring -/

/-- A placeholder in a text. -/
structure Marker where
  kind : List Char
  number : List Char
  deriving DecidableEq

def Marker.text (t : Marker) : List Char := nameOf t.kind t.number

/-- The placeholder that the text begins with, and its length (`_PLACEHOLDER`). -/
def marker? : List Char → Option (Marker × Nat)
  | '[' :: '[' :: rest =>
    match rest.takeWhile Char.isUpper, rest.dropWhile Char.isUpper with
    | k :: kind, '_' :: rest =>
      match rest.takeWhile isDecimal, rest.dropWhile isDecimal with
      | d :: number, ']' :: ']' :: _ =>
        some (⟨k :: kind, d :: number⟩, kind.length + number.length + 7)
      | _, _ => none
    | _, _ => none
  | _ => none

/-- What `restore` puts for a placeholder. -/
def Redactor.shown (r : Redactor) (kinds : List Kind) (t : Marker) : List Char :=
  if t.kind ∈ kinds.map Kind.name then (r.originals t.text).getD t.text else t.text

/-- `restore` -/
def Redactor.restore (r : Redactor) (kinds : List Kind) (text : List Char) : List Char :=
  replaced (r.shown kinds) (pieces marker? 0 text)

end Redaction
end L1Agent
