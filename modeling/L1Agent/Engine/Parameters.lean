import L1Agent.Engine.Executor
import L1Agent.Library.JsonEq
import L1Agent.Library.PyText

/-! # Parameters (`engine/parameters.py`)

A parameter's value is found in the ticket by the author's pattern, or located there by a model
(`acceptAdvised`), and validated (`validate`).  What a model located is kept as text, and a
resumed run accepts it anew.

The author's own patterns are regular expressions of any kind, so matching them is a parameter;
the search for a whole word, which is built from a literal text, is spelt out (`wholeWord`).

Acceptance is spelt out by `acceptAdvised_iff`.  An accepted value is accepted anew from its text
exactly where that text stands in the ticket (`acceptAdvised_again`), and `advised_replays` says
the same of all the values of a binding; the number of `advised_not_replayed` is located in one
spelling and kept in another.
-/
namespace L1Agent

/-- What the parameters use of the language: its texts, and the authors' patterns. -/
structure Language where
  builtins : Builtins
  repr_int : ∀ n : Int, builtins.repr (.int n) = toString n
  /-- `re.fullmatch(pattern, text)` -/
  fullmatch : String → String → Except Exn Bool

namespace Parameters
variable (lang : Language)

/-- `DEFAULT_STRING_PATTERN` -/
def defaultStringPattern : String := "[A-Za-z0-9_.\\-]+"
/-- `MAX_EXTRACTION_INPUT` -/
def maxExtractionInput : Nat := 10000

/-- A character of `[A-Za-z0-9_]`. -/
def isWordChar (c : Char) : Bool := c.isAlphanum || c == '_'

/-- No word goes on at this place. -/
def isBoundary (beside : Option Char) : Bool := !beside.any isWordChar

/-- The rest of the search for the word, after a character. -/
def wholeWordFrom (word : List Char) : Option Char → List Char → Bool
  | before, [] => word.isEmpty && isBoundary before
  | before, c :: rest =>
    (word.isPrefixOf (c :: rest) && isBoundary before &&
      isBoundary ((c :: rest).drop word.length).head?) || wholeWordFrom word (some c) rest

/-- `(?<![A-Za-z0-9_])word(?![A-Za-z0-9_])` is found in the text. -/
def wholeWord (word text : List Char) : Bool := wholeWordFrom word none text

/-- `str(getattr(incident, name, "") or "")`, for a field of the ticket. -/
def fieldText (incident : Incident) : Json → Except Exn String
  | .str name =>
    .ok (lang.builtins.str ((incident.toDict.getD name (.str "")).orElse (.str "")))
  | _ => .error (.other "TypeError" "attribute name must be string")

/-- The fields that an extraction reads. -/
def fieldsOf (spec : ParameterSpec) : Except Exn (List Json) :=
  let fields := spec.source.getD "fields" (.arr [.str "short_description", .str "description"])
  match fields.elements with
  | some names => .ok names
  | none => .error (.other "TypeError" s!"'{fields.typeName}' object is not iterable")

/-- The text of the ticket that a value is looked for in. -/
def searchedText (spec : ParameterSpec) (incident : Incident) : Except Exn (List Char) := do
  let names ← fieldsOf spec
  let texts ← names.mapM (fieldText lang incident)
  pure (("\n".intercalate texts).toList.take maxExtractionInput)

/-- The value in the parameter's type. -/
def coerce (spec : ParameterSpec) (value : Json) : Except Exn Json :=
  let text := PyText.strip (lang.builtins.str value).toList
  if spec.type = "integer" then
    match PyText.parseInt text with
    | some n => .ok (.int n)
    | none => .error (.parameter s!"parameter '{spec.name}' is not an integer")
  else if spec.maxLength < text.length then
    .error (.parameter s!"parameter '{spec.name}' is longer than {spec.maxLength}")
  else do
    let allowed ← lang.fullmatch
      (if spec.pattern = "" then defaultStringPattern else spec.pattern) (String.ofList text)
    if allowed then pure (.str (String.ofList text))
    else throw (.parameter s!"parameter '{spec.name}' has a value that is not allowed")

/-- `_validate` -/
def validate (spec : ParameterSpec) (value : Json) : Except Exn Json :=
  if value = .null ∨ value = .str "" then
    .error (.parameter s!"parameter '{spec.name}' could not be found in the ticket")
  else do
    let value ← coerce lang spec value
    if spec.enum ≠ [] ∧ value.isIn spec.enum = false then
      throw (.parameter s!"parameter '{spec.name}' is not one of the allowed values")
    else pure value

/-- `accept_advised` -/
def acceptAdvised (spec : ParameterSpec) (value : Json) (incident : Incident) : Except Exn Json :=
  if Executor.mayBeAdvised spec = false then
    .error (.parameter s!"parameter '{spec.name}' may not be located by a model")
  else
    match value with
    | .str text =>
      let candidate := PyText.strip text.toList
      if candidate = [] then .error (.parameter s!"parameter '{spec.name}' was not located")
      else do
        let searched ← searchedText lang spec incident
        if wholeWord candidate searched then validate lang spec (.str (String.ofList candidate))
        else throw (.parameter
          s!"parameter '{spec.name}': the located value is not in the ticket")
    | _ => .error (.parameter s!"parameter '{spec.name}' was not located")

/-! ## What was accepted -/

variable {lang} {spec : ParameterSpec} {incident : Incident} {value v : Json}

/-- **What acceptance says of a value**, and all that it asks. -/
theorem acceptAdvised_iff :
    acceptAdvised lang spec value incident = .ok v ↔
      ∃ text searched, value = .str text ∧ Executor.mayBeAdvised spec = true ∧
        PyText.strip text.toList ≠ [] ∧ searchedText lang spec incident = .ok searched ∧
          wholeWord (PyText.strip text.toList) searched = true ∧
            validate lang spec (.str (String.ofList (PyText.strip text.toList))) = .ok v := by
  constructor
  · intro h
    unfold acceptAdvised at h
    by_cases hmay : Executor.mayBeAdvised spec = false
    · rw [if_pos hmay] at h
      cases h
    rw [if_neg hmay] at h
    cases value with
    | str text =>
      dsimp only at h
      by_cases hempty : PyText.strip text.toList = []
      · rw [if_pos hempty] at h
        cases h
      rw [if_neg hempty] at h
      obtain ⟨searched, hsearched, h⟩ := Executor.bind_eq_ok h
      by_cases hfound : wholeWord (PyText.strip text.toList) searched = true
      · rw [if_pos hfound] at h
        exact ⟨text, searched, rfl, by simpa using hmay, hempty, hsearched, hfound, h⟩
      · rw [if_neg hfound] at h
        cases h
    | _ => cases h
  · rintro ⟨text, searched, rfl, hmay, hne, hsearched, hfound, hvalid⟩
    unfold acceptAdvised
    rw [if_neg (by simp [hmay])]
    dsimp only
    rw [if_neg hne, hsearched]
    show (if wholeWord (PyText.strip text.toList) searched = true then _ else _) = _
    rw [if_pos hfound]
    exact hvalid

theorem validate_iff :
    validate lang spec value = .ok v ↔
      (value ≠ .null ∧ value ≠ .str "") ∧ coerce lang spec value = .ok v ∧
        (spec.enum = [] ∨ v.isIn spec.enum = true) := by
  unfold validate
  by_cases hnone : value = .null ∨ value = .str ""
  · rw [if_pos hnone]
    constructor
    · intro h
      cases h
    · rintro ⟨⟨hnull, hempty⟩, -⟩
      rcases hnone with h | h
      · exact absurd h hnull
      · exact absurd h hempty
  rw [if_neg hnone]
  have hnone := not_or.mp hnone
  constructor
  · intro h
    obtain ⟨w, hw, h⟩ := Executor.bind_eq_ok h
    by_cases henum : spec.enum ≠ [] ∧ w.isIn spec.enum = false
    · rw [if_pos henum] at h
      cases h
    · rw [if_neg henum] at h
      cases h
      refine ⟨hnone, hw, ?_⟩
      by_cases hnil : spec.enum = []
      · exact .inl hnil
      · exact .inr (by simpa [hnil] using henum)
  · rintro ⟨-, hv, henum⟩
    rw [hv]
    show (if spec.enum ≠ [] ∧ v.isIn spec.enum = false then _ else _) = _
    rw [if_neg]
    · rfl
    · rintro ⟨hne, hout⟩
      rcases henum with hnil | hin
      · exact hne hnil
      · rw [hout] at hin
        cases hin

/-- **What a located text becomes**: a number, or the text without the blanks around it. -/
theorem coerce_cases {text : String} (h : coerce lang spec (.str text) = .ok v) :
    (spec.type = "integer" ∧ ∃ n : Int, PyText.parseInt text.toList = some n ∧ v = .int n) ∨
    (spec.type ≠ "integer" ∧ v = .str (String.ofList (PyText.strip text.toList))) := by
  unfold coerce at h
  dsimp only [Builtins.str] at h
  by_cases htype : spec.type = "integer"
  · rw [if_pos htype, PyText.parseInt_strip] at h
    cases hread : PyText.parseInt text.toList with
    | none =>
      rw [hread] at h
      cases h
    | some n =>
      rw [hread] at h
      cases h
      exact .inl ⟨htype, n, rfl, rfl⟩
  · rw [if_neg htype] at h
    by_cases hlong : spec.maxLength < (PyText.strip text.toList).length
    · rw [if_pos hlong] at h
      cases h
    rw [if_neg hlong] at h
    obtain ⟨allowed, -, h⟩ := Executor.bind_eq_ok h
    cases allowed with
    | true =>
      cases h
      exact .inr ⟨htype, rfl⟩
    | false => cases h

/-- The text of a number that was read is coerced to the number. -/
theorem coerce_number {text : List Char} {n : Int} (htype : spec.type = "integer")
    (hread : PyText.parseInt text = some n) :
    coerce lang spec (.str (toString n)) = .ok (.int n) := by
  unfold coerce
  dsimp only [Builtins.str]
  rw [if_pos htype, PyText.parseInt_strip, PyText.parseInt_again hread]

/-! ## Accepted anew -/

/-- **The number stands in the ticket as it is written**: what the author's pattern did not find
was located in a spelling of its own, and the number's usual one is there as well. -/
def Replayable (lang : Language) (spec : ParameterSpec) (value : Json) (incident : Incident) :
    Prop :=
  spec.type = "integer" → ∀ text searched n, value = .str text →
    searchedText lang spec incident = .ok searched → PyText.parseInt text.toList = some n →
      wholeWord (toString n).toList searched = true

theorem str_number (n : Int) : lang.builtins.str (.int n) = toString n := lang.repr_int n

theorem toString_ne_nil (n : Int) : (toString n).toList ≠ [] := by
  rcases PyText.toList_toString n with ⟨htext, -⟩ | ⟨htext, -⟩
  · rw [htext]
    exact Nat.toDigits_ne_nil
  · rw [htext]
    exact List.cons_ne_nil _ _

/-- **An accepted value is accepted anew from its text** exactly where its usual spelling
stands in the ticket. -/
theorem acceptAdvised_again (h : acceptAdvised lang spec value incident = .ok v) :
    acceptAdvised lang spec (.str (lang.builtins.str v)) incident = .ok v ↔
      Replayable lang spec value incident := by
  obtain ⟨text, searched, rfl, hmay, hne, hsearched, hfound, hvalid⟩ := acceptAdvised_iff.mp h
  obtain ⟨hsome, hcoerce, henum⟩ := validate_iff.mp hvalid
  rcases coerce_cases hcoerce with ⟨htype, n, hread, rfl⟩ | ⟨htype, hv⟩
  · -- A number: only the search in the ticket can fail.
    rw [String.toList_ofList, PyText.parseInt_strip] at hread
    have hstrip : PyText.strip (toString n).toList = (toString n).toList :=
      PyText.strip_toString n
    rw [str_number]
    constructor
    · intro hagain _ text' searched' n' htext' hsearched' hread'
      cases htext'
      rw [hread] at hread'
      cases hread'
      rw [hsearched] at hsearched'
      cases hsearched'
      obtain ⟨text'', searched'', htext'', -, -, hsearched'', hfound'', -⟩ :=
        acceptAdvised_iff.mp hagain
      cases htext''
      rw [hsearched] at hsearched''
      cases hsearched''
      rwa [hstrip] at hfound''
    · intro hreplay
      refine acceptAdvised_iff.mpr ⟨toString n, searched, rfl, hmay, ?_, hsearched, ?_, ?_⟩
      · rw [hstrip]
        exact toString_ne_nil n
      · rw [hstrip]
        exact hreplay htype text searched n rfl hsearched hread
      · rw [hstrip, String.ofList_toList]
        refine validate_iff.mpr ⟨⟨by simp, ?_⟩, coerce_number htype hread, henum⟩
        intro hempty
        have hnil : toString n = "" := Json.str.inj hempty
        refine toString_ne_nil n ?_
        rw [hnil]
        rfl
  · -- A text is kept as it was accepted.
    rw [String.toList_ofList, PyText.strip_strip] at hv
    have htext : lang.builtins.str v = String.ofList (PyText.strip text.toList) := by
      rw [hv]
      rfl
    have hagain : acceptAdvised lang spec (.str (lang.builtins.str v)) incident = .ok v := by
      refine acceptAdvised_iff.mpr ⟨lang.builtins.str v, searched, rfl, hmay, ?_⟩
      rw [htext, String.toList_ofList, PyText.strip_strip]
      exact ⟨hne, hsearched, hfound, hvalid⟩
    exact iff_of_true hagain fun hinteger => absurd hinteger htype

/-! ## A whole binding -/

/-- An engine that accepts what a model located in this way. -/
def reading (lang : Language) (eng : Engine) : Engine :=
  { eng with acceptAdvised := acceptAdvised lang }

/-- What the journal keeps of the values. -/
def recorded (lang : Language) (advised : List (String × Json)) : List (String × Json) :=
  advised.map fun p => (p.1, .str (lang.builtins.str p.2))

variable {eng : Engine} {failures : List (String × String)}

/-- The first parameter is accepted, and then the others. -/
theorem acceptAll_cons {located advised : List (String × Json)} {specs : List ParameterSpec} :
    Executor.acceptAll (reading lang eng) incident failures located (spec :: specs) = .ok advised ↔
      ∃ v rest, acceptAdvised lang spec ((located.lookup spec.name).getD .null) incident = .ok v ∧
        Executor.acceptAll (reading lang eng) incident failures located specs = .ok rest ∧
          advised = (spec.name, v) :: rest := by
  have hreading : (reading lang eng).acceptAdvised = acceptAdvised lang := rfl
  rw [Executor.acceptAll, hreading]
  cases acceptAdvised lang spec ((located.lookup spec.name).getD .null) incident with
  | error e =>
    constructor
    · intro h
      cases e <;> cases h
    · rintro ⟨v, rest, ⟨⟩, -⟩
  | ok v =>
    constructor
    · intro h
      obtain ⟨v', hv', h⟩ := Executor.bind_eq_ok h
      obtain ⟨rest, hrest, h⟩ := Executor.bind_eq_ok h
      cases h
      exact ⟨v', rest, hv', hrest, rfl⟩
    · rintro ⟨v', rest, ⟨⟩, hrest, rfl⟩
      show (Executor.acceptAll (reading lang eng) incident failures located specs >>=
        fun rest => pure ((spec.name, v) :: rest)) = _
      rw [hrest]
      rfl

/-- Only the values of these parameters matter. -/
theorem acceptAll_congr {located located' : List (String × Json)} {specs : List ParameterSpec}
    (h : ∀ spec ∈ specs, located.lookup spec.name = located'.lookup spec.name) :
    Executor.acceptAll (reading lang eng) incident failures located specs =
      Executor.acceptAll (reading lang eng) incident failures located' specs := by
  induction specs with
  | nil => rfl
  | cons spec specs ih =>
    unfold Executor.acceptAll
    rw [h spec (List.mem_cons_self ..), ih fun spec' hs => h spec' (List.mem_cons_of_mem _ hs)]

/-- **The values that were located are accepted anew**, each from its text. -/
theorem acceptAll_again {located advised : List (String × Json)} {specs : List ParameterSpec}
    (hnames : (specs.map (·.name)).Nodup)
    (h : Executor.acceptAll (reading lang eng) incident failures located specs = .ok advised) :
    Executor.acceptAll (reading lang eng) incident failures (recorded lang advised) specs =
        .ok advised ↔
      ∀ spec ∈ specs, Replayable lang spec ((located.lookup spec.name).getD .null) incident := by
  induction specs generalizing advised with
  | nil =>
    cases h
    exact iff_of_true rfl fun spec hs => absurd hs List.not_mem_nil
  | cons spec specs ih =>
    rw [List.map_cons] at hnames
    obtain ⟨hnew, hnames⟩ := List.nodup_cons.mp hnames
    obtain ⟨v, rest, hv, hrest, rfl⟩ := acceptAll_cons.mp h
    have hfirst : (recorded lang ((spec.name, v) :: rest)).lookup spec.name =
        some (.str (lang.builtins.str v)) := List.lookup_cons_self
    have hothers : Executor.acceptAll (reading lang eng) incident failures
        (recorded lang ((spec.name, v) :: rest)) specs =
          Executor.acceptAll (reading lang eng) incident failures (recorded lang rest) specs := by
      refine acceptAll_congr fun spec' hs => ?_
      have hne : (spec'.name == spec.name) = false := by
        rw [beq_eq_false_iff_ne]
        intro heq
        rw [← heq] at hnew
        exact hnew (List.mem_map_of_mem hs)
      show List.lookup spec'.name ((spec.name, Json.str (lang.builtins.str v)) ::
        recorded lang rest) = _
      rw [List.lookup_cons, hne]
    rw [acceptAll_cons, List.forall_mem_cons, hfirst, hothers, ← acceptAdvised_again hv,
      ← ih hnames hrest]
    constructor
    · rintro ⟨v', rest', hv', hrest', heq⟩
      obtain ⟨hpair, rfl⟩ := List.cons.inj heq
      obtain ⟨-, rfl⟩ := Prod.mk.inj hpair
      exact ⟨hv', hrest'⟩
    · rintro ⟨hv', hrest'⟩
      exact ⟨v, rest, hv', hrest', rfl⟩

/-- **Advised values replay where they are spelt as numbers are.**  A value that was accepted is
accepted anew from the text that the journal keeps of it, with the same result, exactly where the
parameter is a text, or the number's usual spelling stands in the ticket as a word; and so are all
the values of a binding together. -/
theorem advised_replays (lang : Language) (incident : Incident) :
    (∀ spec value v, acceptAdvised lang spec value incident = .ok v →
      (acceptAdvised lang spec (.str (lang.builtins.str v)) incident = .ok v ↔
        Replayable lang spec value incident)) ∧
    ∀ (eng : Engine) failures located specs advised,
      (specs.map fun spec : ParameterSpec => spec.name).Nodup →
        Executor.acceptAll (reading lang eng) incident failures located specs = .ok advised →
          (Executor.acceptAll (reading lang eng) incident failures (recorded lang advised) specs =
              .ok advised ↔
            ∀ spec ∈ specs,
              Replayable lang spec ((located.lookup spec.name).getD .null) incident) :=
  ⟨fun _ _ _ h => acceptAdvised_again h, fun _ _ _ _ _ hnames h => acceptAll_again hnames h⟩

/-- A language in which every text matches. -/
def sampleLanguage : Language where
  builtins := ⟨fun | .int n => toString n | _ => "", PyText.parseInt ∘ String.toList,
    fun _ => false⟩
  repr_int _ := rfl
  fullmatch _ _ := .ok true

/-- The number of a queue, which a model may help to find. -/
def queueNumber : ParameterSpec where
  name := "queue"
  type := "integer"
  source := .obj [("kind", .str "extraction"), ("regex", .str "queue ([0-9]+)"),
    ("advisor", .bool true)]

/-- A ticket that writes the number with a leading zero. -/
def queueTicket : Incident where
  number := "INC1"
  shortDescription := "Q 07 is stuck"

/-- The number is accepted from the ticket's spelling, and its own is not there. -/
theorem advised_not_replayed :
    acceptAdvised sampleLanguage queueNumber (.str "07") queueTicket = .ok (.int 7) ∧
      acceptAdvised sampleLanguage queueNumber (.str (sampleLanguage.builtins.str (.int 7)))
        queueTicket = .error (.parameter
          "parameter 'queue': the located value is not in the ticket") := by
  decide

end Parameters
end L1Agent
