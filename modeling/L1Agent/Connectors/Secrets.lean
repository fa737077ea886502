import L1Agent.Connectors.Http
import L1Agent.Library.PyText
import Mathlib.Data.List.Infix

/-! # Credential references (`connectors/sdk/secrets.py`)

A connection holds references, never credentials.  A reference names a backend and where in it the
value is kept; its text is the key under which a value that was read is cached, so two references
share an entry exactly when they name the same place (`parse_key`).

`SecretRef.parse` is the source's, blanks and all: `parse_eq_ok` says what is read, and `parse_text`
that the text of a reference is read as that reference.  Hence two keys are one only for one
place.
-/
namespace L1Agent
namespace Secrets

inductive Backend where
  | env
  | file
  | vault
  | aws
  deriving DecidableEq, Repr

def Backend.value : Backend → List Char
  | env => "env".toList
  | file => "file".toList
  | vault => "vault".toList
  | aws => "aws".toList

structure SecretRef where
  backend : Backend
  locator : List Char
  deriving DecidableEq

/-- `str(ref)` -/
def SecretRef.text (r : SecretRef) : List Char := r.backend.value ++ ':' :: r.locator

/-! ## The patterns -/

/-- What `$` lets stand before it: a line break at the end is left out. -/
def chomped (text : List Char) : List Char :=
  if text.getLast? = some '\n' then text.dropLast else text

/-- What follows the backend's name. -/
def Backend.after (b : Backend) (text : List Char) : Option (Backend × List Char) :=
  if b.value ++ [':'] <+: text ∧ text.drop (b.value.length + 1) ≠ [] then
    some (b, text.drop (b.value.length + 1))
  else none

/-- `_REF_RE` -/
def refRe (text : List Char) : Option (Backend × List Char) :=
  [Backend.env, .file, .vault, .aws].findSome? fun b => b.after text

/-- `_ENV_NAME_RE` -/
def envNameRe (text : List Char) : Bool :=
  match chomped text with
  | [] => false
  | c :: rest => (c.isAlpha || c = '_') && rest.all fun c => c.isAlphanum || c = '_'

/-- `_ABSOLUTE_RE` -/
def absoluteRe : List Char → Bool
  | '/' :: _ => true
  | c :: ':' :: d :: _ => c.isAlpha && (d = '\\' || d = '/')
  | _ => false

/-- `_PATH_RE` -/
def pathRe (text : List Char) : Bool :=
  chomped text ≠ [] && (chomped text).all fun c =>
    c.isAlphanum || c = '_' || c = '.' || c = '/' || c = '-'

/-- What is wrong with where the value is kept. -/
def SecretRef.problem (r : SecretRef) : Option String :=
  match r.backend with
  | .env => if envNameRe r.locator then none else some "env: needs a variable name"
  | .vault | .aws =>
    if pathRe r.locator = false ∨ ['.', '.'] <:+: r.locator then
      some (String.ofList r.backend.value ++ ": needs a plain path")
    else none
  | .file => if absoluteRe r.locator then none else some "file: needs an absolute path"

/-- `SecretRef.parse`; the error is the text of a `SecretError`. -/
def SecretRef.parse (text : List Char) : Except String SecretRef :=
  match refRe text with
  | none => .error ("A credential reference looks like env:NAME, file:/path, vault:path/field " ++
      "or aws:name")
  | some (backend, rest) =>
    let ref : SecretRef := ⟨backend, PyText.strip rest⟩
    match ref.problem with
    | some problem => .error problem
    | none => .ok ref

/-! ## What is accepted -/

/-- No name has a colon in it, so what stands before the first one tells the backend. -/
theorem takeWhile_value (b : Backend) (rest : List Char) :
    (b.value ++ ':' :: rest).takeWhile (· ≠ ':') = b.value := by
  have hname : (b.value.all fun c => c ≠ ':') = true := by cases b <;> rfl
  rw [List.takeWhile_append_of_pos (List.all_eq_true.mp hname),
    List.takeWhile_cons_of_neg (by decide), List.append_nil]

theorem value_injective {b b' : Backend} (h : b.value = b'.value) : b = b' := by
  revert h
  cases b <;> cases b' <;> decide

theorem drop_value (b : Backend) (rest : List Char) :
    (b.value ++ ':' :: rest).drop (b.value.length + 1) = rest := by
  rw [← List.singleton_append, ← List.append_assoc]
  exact List.drop_left' (by rw [List.length_append, List.length_singleton])

theorem after_same (b : Backend) {rest : List Char} (hsome : rest ≠ []) :
    b.after (b.value ++ ':' :: rest) = some (b, rest) := by
  unfold Backend.after
  rw [drop_value]
  refine if_pos ⟨⟨rest, ?_⟩, hsome⟩
  rw [List.append_assoc, List.singleton_append]

theorem after_other {b b' : Backend} (hne : b' ≠ b) (rest : List Char) :
    b'.after (b.value ++ ':' :: rest) = none := by
  refine if_neg fun hprefixed => ?_
  obtain ⟨⟨rest', hrest⟩, -⟩ := hprefixed
  rw [List.append_assoc, List.singleton_append] at hrest
  have hsame := congrArg (List.takeWhile (· ≠ ':')) hrest
  rw [takeWhile_value, takeWhile_value] at hsame
  exact hne (value_injective hsame)

theorem refRe_eq_some {text rest : List Char} {b : Backend} :
    refRe text = some (b, rest) ↔ text = b.value ++ ':' :: rest ∧ rest ≠ [] := by
  constructor
  · intro h
    obtain ⟨b', -, hb⟩ := List.exists_of_findSome?_eq_some h
    obtain ⟨⟨⟨rest', hrest⟩, hsome⟩, heq⟩ := Option.ite_none_right_eq_some.mp hb
    cases heq
    rw [List.append_assoc, List.singleton_append] at hrest
    subst hrest
    rw [drop_value] at hsome ⊢
    exact ⟨rfl, hsome⟩
  · rintro ⟨rfl, hsome⟩
    obtain ⟨before, after, hall, hbefore⟩ : ∃ before after,
        [Backend.env, .file, .vault, .aws] = before ++ b :: after ∧ b ∉ before := by
      cases b with
      | env => exact ⟨[], _, rfl, List.not_mem_nil⟩
      | file => exact ⟨[.env], _, rfl, by decide⟩
      | vault => exact ⟨[.env, .file], _, rfl, by decide⟩
      | aws => exact ⟨[.env, .file, .vault], _, rfl, by decide⟩
    refine List.findSome?_eq_some_iff.mpr ⟨before, b, after, hall, after_same b hsome, ?_⟩
    rintro b' hb'
    refine after_other ?_ rest
    rintro rfl
    exact hbefore hb'

/-- **A reference that is read** names a backend and, without the blanks around it, a place that
the backend can have. -/
theorem parse_eq_ok {text : List Char} {ref : SecretRef} :
    SecretRef.parse text = .ok ref ↔ ∃ rest, text = ref.backend.value ++ ':' :: rest ∧ rest ≠ [] ∧
      PyText.strip rest = ref.locator ∧ ref.problem = none := by
  unfold SecretRef.parse
  constructor
  · intro h
    cases hre : refRe text with
    | none =>
      rw [hre] at h
      cases h
    | some found =>
      obtain ⟨backend, rest⟩ := found
      rw [hre] at h
      dsimp only at h
      cases hproblem : (SecretRef.mk backend (PyText.strip rest)).problem with
      | some problem =>
        rw [hproblem] at h
        cases h
      | none =>
        rw [hproblem] at h
        cases h
        obtain ⟨htext, hsome⟩ := refRe_eq_some.mp hre
        exact ⟨rest, htext, hsome, rfl, hproblem⟩
  · rintro ⟨rest, htext, hsome, hstrip, hproblem⟩
    obtain ⟨backend, locator⟩ := ref
    dsimp only at htext hstrip
    rw [refRe_eq_some.mpr ⟨htext, hsome⟩]
    dsimp only
    rw [hstrip, hproblem]

theorem locator_ne_nil {ref : SecretRef} (h : ref.problem = none) : ref.locator ≠ [] := by
  obtain ⟨backend, locator⟩ := ref
  rintro rfl
  cases backend <;> exact absurd h (by decide)

/-- **The text of a reference is that reference's.** -/
theorem parse_text {text : List Char} {ref : SecretRef} (h : SecretRef.parse text = .ok ref) :
    SecretRef.parse ref.text = .ok ref := by
  obtain ⟨rest, -, -, hstrip, hproblem⟩ := parse_eq_ok.mp h
  refine parse_eq_ok.mpr ⟨ref.locator, rfl, locator_ne_nil hproblem, ?_, hproblem⟩
  rw [← hstrip, PyText.strip_strip]

/-- **References share a key** when they name the same place, and then only. -/
theorem parse_key {text text' : List Char} {ref ref' : SecretRef}
    (h : SecretRef.parse text = .ok ref) (h' : SecretRef.parse text' = .ok ref') :
    ref.text = ref'.text ↔ ref = ref' := by
  refine ⟨fun htext => ?_, congrArg SecretRef.text⟩
  have := parse_text h
  rw [htext, parse_text h'] at this
  exact (Except.ok.inj this).symm

end Secrets
end L1Agent
