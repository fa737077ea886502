import L1Agent.Engine.Parameters
import L1Agent.Library.JsonText
import L1Agent.Sop.Content

/-! # Binding (`bind_parameters`, `bind_what_can_be`)

A declaration is what a content says, so its fields hold values of any kind (`Raw.ParameterSpec`);
the validator looks at its name, its type, its source and its pattern (`specProblems`).  The two
loops bind the same values and fail alike (`whatCanBe_iff`, `whatCanBe_failed`).  What they bind is
what the declaration asks for, but for one kind of text: the test for an empty one stands before
the blanks are taken off.

What each of the loops returns is said by itself (`bindWhatCanBeFrom_iff`,
`bindParametersFrom_iff`); `binding_sound` is the equivalence for accepted declarations: they bind
soundly exactly where no text that may be empty finds blanks and no more (`Blank`).  `binding_blank`
is a ticket that has these.
-/
namespace L1Agent

/-- What binding uses of the authors' patterns. -/
structure Patterns extends Language where
  /-- `re.compile(pattern).groups`, or the text of its `re.error`. -/
  compile : String → Except String Nat
  /-- `re.search(pattern, text)`: the text of its group; `none` where nothing is found, or the group
  has no part in what is. -/
  search : String → String → Except Exn (Option String)

namespace Raw.Binding
open Parameters

/-- `TICKET_FIELDS`, in order. -/
def ticketFields : List String :=
  ["assignment_group", "category", "cmdb_ci", "description", "number", "priority",
    "short_description", "subcategory"]
/-- `SOURCE_KINDS`, in order. -/
def sourceKinds : List String := ["constant", "extraction", "ticket_field"]
/-- `PARAMETER_TYPES` -/
def parameterTypes : List String := ["integer", "string"]

def typeError (message : String) : Exn := .other "TypeError" message

/-- `value in names`, for a set of texts. -/
def inNames (names : List String) : Json → Except Exn Bool
  | .str text => .ok (text ∈ names)
  | v@(.arr _) | v@(.obj _) => .error (typeError s!"unhashable type: '{v.typeName}'")
  | _ => .ok false

/-- The whole text is `[A-Za-z_][A-Za-z0-9_]*`. -/
def isIdentifier (text : String) : Bool :=
  match text.toList with
  | [] => false
  | c :: rest => (c.isAlpha || c == '_') && rest.all isWordChar

/-- A text that the language takes a pattern or a name from. -/
def textOf : Json → Except Exn String
  | .str text => .ok text
  | v => .error (typeError s!"expected string or bytes-like object, got '{v.typeName}'")

/-- `any(name not in TICKET_FIELDS for name in names)` -/
def anyForeign : List Json → Except Exn Bool
  | [] => .ok false
  | name :: names => do
    if ← inNames ticketFields name then anyForeign names else pure true

/-- The fields that an extraction reads when it names none. -/
def defaultFields : Json := .arr [.str "short_description", .str "description"]

variable (lang : Patterns)

/-- The label of a declaration's problems. -/
def labelOf (spec : ParameterSpec) : String := s!"parameter '{lang.builtins.str spec.name}'"

/-- What is wrong with a source of a known kind. -/
def sourceProblems (label : String) (source : Json) : Json → Except Exn (List String)
  | .str "ticket_field" => do
    if ← inNames ticketFields (source.getD "field" .null) then pure []
    else pure [s!"{label}: source.field must be one of {lang.builtins.reprTexts ticketFields}"]
  | .str "extraction" => do
    let fields := source.getD "fields" defaultFields
    let foreign ←
      if fields.truthy then
        match fields.elements with
        | some names => anyForeign names
        | none => throw (typeError s!"'{fields.typeName}' object is not iterable")
      else pure true
    let regex ← textOf (source.getD "regex" (.str ""))
    let ofRegex := match lang.compile regex with
      | .ok groups =>
        if groups ≠ 1 then [s!"{label}: source.regex must have exactly one capture group"] else []
      | .error message => [s!"{label}: source.regex is invalid: {message}"]
    let ofAdvisor := match source.getD "advisor" (.bool false) with
      | .bool _ => []
      | _ => [s!"{label}: source.advisor must be true or false"]
    pure ((if foreign then [s!"{label}: source.fields must name ticket fields"] else []) ++
      ofRegex ++ ofAdvisor)
  | _ => pure []

/-- What is wrong with a source. -/
def kindProblems (label : String) (source kind : Json) : Except Exn (List String) := do
  if ← inNames sourceKinds kind then sourceProblems lang label source kind
  else pure [s!"{label}: source.kind must be one of {lang.builtins.reprTexts sourceKinds}"]

/-- What is wrong with a pattern. -/
def patternProblems (label : String) (pattern : Json) : Except Exn (List String) :=
  if pattern.truthy then do
    match lang.compile (← textOf pattern) with
    | .ok _ => pure []
    | .error message => pure [s!"{label}: pattern is invalid: {message}"]
  else pure []

/-- `spec_problems` -/
def specProblems (spec : ParameterSpec) : Except Exn (List String) := do
  let label := labelOf lang spec
  let name ← textOf (spec.name.orElse (.str ""))
  let ofName := if isIdentifier name then [] else [s!"{label}: name must be an identifier"]
  let ofType :=
    if ← inNames parameterTypes spec.type then []
    else [s!"{label}: unknown type '{lang.builtins.str spec.type}'"]
  let kind := if spec.source.isObj then spec.source.getD "kind" .null else .null
  let ofSource ← kindProblems lang label spec.source kind
  let ofAdvisor :=
    if kind ≠ .str "extraction" ∧ (spec.source.get? "advisor").isSome then
      [s!"{label}: source.advisor is only for an extraction source"]
    else if kind = .str "constant" ∧ (spec.source.get? "value").isNone then
      [s!"{label}: constant source needs a value"]
    else []
  let ofPattern ← patternProblems lang label spec.pattern
  pure (ofName ++ ofType ++ ofSource ++ ofAdvisor ++ ofPattern)

/-! ## Binding one parameter -/

/-- The key that a value is bound under. -/
def nameOf (spec : ParameterSpec) : String := lang.builtins.str spec.name

/-- `_raw_value`.  The fields of a ticket are those that `to_dict` names. -/
def rawValue (spec : ParameterSpec) (incident : Incident) : Except Exn Json :=
  match spec.source with
  | .obj fields =>
    let source := Json.obj fields
    if source.getD "kind" .null = .str "constant" then .ok (source.getD "value" .null)
    else if source.getD "kind" .null = .str "ticket_field" then
      match source.get? "field" with
      | some (.str name) => .ok (incident.toDict.getD name .null)
      | some _ => .error (typeError "attribute name must be string")
      | none => .error (.other "KeyError" "'field'")
    else if source.getD "kind" .null = .str "extraction" then do
      let text ←
        searchedText lang.toLanguage ({ source := source } : L1Agent.ParameterSpec) incident
      let regex ← match source.get? "regex" with
        | some regex => textOf regex
        | none => throw (.other "KeyError" "'regex'")
      let found ← lang.search regex (String.ofList text)
      pure (found.elim .null .str)
    else .error (.parameter s!"parameter '{nameOf lang spec}' has an unknown source")
  | v => .error (.other "AttributeError" s!"'{v.typeName}' object has no attribute 'get'")

/-- `length > max_length` -/
def longerThan (length : Nat) (maxLength : Json) : Except Exn Bool :=
  match maxLength.number? with
  | some q => .ok (decide (q < length))
  | none => .error (typeError
      s!"'>' not supported between instances of 'int' and '{maxLength.typeName}'")

/-- `value in enum` -/
def memberOf (value : Json) : Json → Except Exn Bool
  | .arr items => .ok (value.isIn items)
  | .obj fields => .ok (value.isIn (fields.map fun f => .str f.1))
  | .str text =>
    match value with
    | .str part => .ok (decide (part.toList <:+: text.toList))
    | _ => .error (typeError
        s!"'in <string>' requires string as left operand, not {value.typeName}")
  | v => .error (typeError s!"argument of type '{v.typeName}' is not iterable")

/-- The pattern that a text is held to. -/
def patternOf (spec : ParameterSpec) : Json := spec.pattern.orElse (.str defaultStringPattern)

/-- The value in the parameter's type. -/
def coerce (spec : ParameterSpec) (value : Json) : Except Exn Json :=
  let text := PyText.strip (lang.builtins.str value).toList
  if spec.type = .str "integer" then
    match PyText.parseInt text with
    | some n => .ok (.int n)
    | none => .error (.parameter s!"parameter '{nameOf lang spec}' is not an integer")
  else do
    if ← longerThan text.length spec.maxLength then
      throw (.parameter
        s!"parameter '{nameOf lang spec}' is longer than {lang.builtins.str spec.maxLength}")
    let pattern ← textOf (patternOf spec)
    if ← lang.fullmatch pattern (String.ofList text) then pure (.str (String.ofList text))
    else throw (.parameter s!"parameter '{nameOf lang spec}' has a value that is not allowed")

/-- `_validate` -/
def validate (spec : ParameterSpec) (value : Json) : Except Exn Json :=
  if value = .null ∨ value = .str "" then
    .error (.parameter s!"parameter '{nameOf lang spec}' could not be found in the ticket")
  else do
    let value ← coerce lang spec value
    if spec.enum.truthy then
      if ← memberOf value spec.enum then pure value
      else throw (.parameter s!"parameter '{nameOf lang spec}' is not one of the allowed values")
    else pure value

/-- `_validate(spec, _raw_value(spec, incident))` -/
def bound (spec : ParameterSpec) (incident : Incident) : Except Exn Json :=
  rawValue lang spec incident >>= validate lang spec

/-! ## The two loops -/

/-- `bind_parameters`, with the values that are bound already. -/
def bindParametersFrom (incident : Incident) :
    List (String × Json) → List ParameterSpec → Except Exn (List (String × Json))
  | values, [] => .ok values
  | values, spec :: specs => do
    let raw ← rawValue lang spec incident
    let value ← validate lang spec raw
    bindParametersFrom incident (Json.setField values (nameOf lang spec) value) specs

def bindParameters (specs : List ParameterSpec) (incident : Incident) :
    Except Exn (List (String × Json)) := bindParametersFrom lang incident [] specs

/-- What `bind_what_can_be` returns; of a ParameterError, its text. -/
structure Bound where
  values : List (String × Json) := []
  failures : List (String × String) := []
  notFound : List ParameterSpec := []
  deriving DecidableEq

/-- `failures[name] = exc` -/
def setFailure (failures : List (String × String)) (name message : String) :
    List (String × String) :=
  if failures.any (·.1 == name) then
    failures.map fun f => if f.1 == name then (name, message) else f
  else failures ++ [(name, message)]

/-- A value that is not there. -/
def Missing (raw : Json) : Prop := raw = .null ∨ raw = .str ""

instance (raw : Json) : Decidable (Missing raw) := inferInstanceAs (Decidable (_ ∨ _))

/-- `bind_what_can_be`, with what has been bound already. -/
def bindWhatCanBeFrom (incident : Incident) : Bound → List ParameterSpec → Except Exn Bound
  | acc, [] => .ok acc
  | acc, spec :: specs =>
    match rawValue lang spec incident with
    | .error (.parameter message) =>
      bindWhatCanBeFrom incident
        { acc with failures := setFailure acc.failures (nameOf lang spec) message } specs
    | .error e => .error e
    | .ok raw =>
      let notFound := if Missing raw then acc.notFound ++ [spec] else acc.notFound
      match validate lang spec raw with
      | .ok value =>
        bindWhatCanBeFrom incident
          { acc with values := Json.setField acc.values (nameOf lang spec) value, notFound } specs
      | .error (.parameter message) =>
        bindWhatCanBeFrom incident
          { acc with
            failures := setFailure acc.failures (nameOf lang spec) message
            notFound } specs
      | .error e => .error e

def bindWhatCanBe (specs : List ParameterSpec) (incident : Incident) : Except Exn Bound :=
  bindWhatCanBeFrom lang incident {} specs

/-! ## What the loops bind -/

/-- The declarations are accepted: none has a problem, and no name is declared twice. -/
def Accepted (specs : List ParameterSpec) : Prop :=
  (∀ spec ∈ specs, specProblems lang spec = .ok []) ∧ (specs.map (·.name)).Nodup

/-- Binding ends in a value or a ParameterError. -/
def Settled (incident : Incident) (spec : ParameterSpec) : Prop :=
  (∃ v, bound lang spec incident = .ok v) ∨ ∃ m, bound lang spec incident = .error (.parameter m)

/-- The value that is bound, under its name. -/
def boundPair (incident : Incident) (spec : ParameterSpec) : Option (String × Json) :=
  match bound lang spec incident with
  | .ok v => some (nameOf lang spec, v)
  | .error _ => none

/-- The failure that is reported, under its name. -/
def failedPair (incident : Incident) (spec : ParameterSpec) : Option (String × String) :=
  match bound lang spec incident with
  | .error (.parameter m) => some (nameOf lang spec, m)
  | _ => none

/-- The source matched nothing in the ticket. -/
def unfound (incident : Incident) (spec : ParameterSpec) : Bool :=
  match rawValue lang spec incident with
  | .ok raw => decide (Missing raw)
  | .error _ => false

variable {lang} {spec : ParameterSpec} {specs : List ParameterSpec} {incident : Incident}

theorem bindParametersFrom_cons {values : List (String × Json)} :
    bindParametersFrom lang incident values (spec :: specs) =
      bound lang spec incident >>= fun v =>
        bindParametersFrom lang incident (Json.setField values (nameOf lang spec) v) specs := by
  unfold bound
  rw [bindParametersFrom]
  cases rawValue lang spec incident with
  | error e => rfl
  | ok raw => rfl

/-- One step of the loop that goes on. -/
theorem bindWhatCanBeFrom_cons {acc : Bound} :
    bindWhatCanBeFrom lang incident acc (spec :: specs) =
      let notFound := acc.notFound ++ [spec].filter (unfound lang incident)
      match bound lang spec incident with
      | .ok v => bindWhatCanBeFrom lang incident
          { acc with values := Json.setField acc.values (nameOf lang spec) v, notFound } specs
      | .error (.parameter m) => bindWhatCanBeFrom lang incident
          { acc with failures := setFailure acc.failures (nameOf lang spec) m, notFound } specs
      | .error e => .error e := by
  unfold bound unfound
  rw [bindWhatCanBeFrom]
  cases hraw : rawValue lang spec incident with
  | error e =>
    have hnone : [spec].filter (fun s => match rawValue lang s incident with
        | .ok raw => decide (Missing raw)
        | .error _ => false) = [] := by
      rw [List.filter_cons_of_neg (by rw [hraw]; exact Bool.false_ne_true), List.filter_nil]
    rw [hnone, List.append_nil]
    cases e with
    | parameter m => rfl
    | _ => rfl
  | ok raw =>
    have hfound : (if Missing raw then acc.notFound ++ [spec] else acc.notFound) =
        acc.notFound ++ [spec].filter (fun s => match rawValue lang s incident with
          | .ok raw => decide (Missing raw)
          | .error _ => false) := by
      by_cases hmissing : Missing raw
      · rw [if_pos hmissing, List.filter_cons_of_pos (by rw [hraw]; exact decide_eq_true hmissing),
          List.filter_nil]
      · rw [if_neg hmissing, List.filter_cons_of_neg (by rw [hraw]; simpa using hmissing),
          List.filter_nil, List.append_nil]
    dsimp only
    rw [hfound]
    show _ = (match validate lang spec raw with
      | .ok v => _
      | .error (.parameter m) => _
      | .error e => _)
    cases validate lang spec raw with
    | ok v => rfl
    | error e =>
      cases e with
      | parameter m => rfl
      | _ => rfl

theorem setFailure_new {failures : List (String × String)} {name message : String}
    (h : name ∉ failures.map Prod.fst) :
    setFailure failures name message = failures ++ [(name, message)] := by
  unfold setFailure
  rw [if_neg]
  intro hany
  obtain ⟨f, hf, hname⟩ := List.any_eq_true.mp hany
  exact h (List.mem_map.mpr ⟨f, hf, eq_of_beq hname⟩)

/-- What the loop returns after these declarations. -/
def after (lang : Patterns) (incident : Incident) (acc : Bound) (specs : List ParameterSpec) :
    Bound where
  values := acc.values ++ specs.filterMap (boundPair lang incident)
  failures := acc.failures ++ specs.filterMap (failedPair lang incident)
  notFound := acc.notFound ++ specs.filter (unfound lang incident)

/-- No name of these declarations is used yet. -/
def Fresh (lang : Patterns) (acc : Bound) (specs : List ParameterSpec) : Prop :=
  (specs.map (nameOf lang)).Nodup ∧ ∀ name ∈ specs.map (nameOf lang),
    name ∉ acc.values.map Prod.fst ∧ name ∉ acc.failures.map Prod.fst

theorem Fresh.head {acc : Bound} (h : Fresh lang acc (spec :: specs)) :
    nameOf lang spec ∉ acc.values.map Prod.fst ∧ nameOf lang spec ∉ acc.failures.map Prod.fst :=
  h.2 _ (List.mem_cons_self ..)

/-- The names after the first are fresh also when that has been bound, or has failed. -/
theorem Fresh.tail {acc acc' : Bound} (h : Fresh lang acc (spec :: specs))
    (hvalues : ∀ name ∈ acc'.values.map Prod.fst,
      name = nameOf lang spec ∨ name ∈ acc.values.map Prod.fst)
    (hfailures : ∀ name ∈ acc'.failures.map Prod.fst,
      name = nameOf lang spec ∨ name ∈ acc.failures.map Prod.fst) : Fresh lang acc' specs := by
  obtain ⟨hnodup, hfresh⟩ := h
  rw [List.map_cons] at hnodup hfresh
  obtain ⟨hnew, hnodup⟩ := List.nodup_cons.mp hnodup
  refine ⟨hnodup, fun name hname => ?_⟩
  obtain ⟨hv, hf⟩ := hfresh name (List.mem_cons_of_mem _ hname)
  constructor
  · intro hin
    rcases hvalues name hin with rfl | hin
    · exact hnew hname
    · exact hv hin
  · intro hin
    rcases hfailures name hin with rfl | hin
    · exact hnew hname
    · exact hf hin

/-- **What `bind_what_can_be` returns**: every value that binds and every failure, in the order of
the declarations. -/
theorem bindWhatCanBeFrom_iff {acc r : Bound} (hfresh : Fresh lang acc specs) :
    bindWhatCanBeFrom lang incident acc specs = .ok r ↔
      (∀ spec ∈ specs, Settled lang incident spec) ∧ r = after lang incident acc specs := by
  induction specs generalizing acc with
  | nil =>
    have hnone : after lang incident acc [] = acc := by
      unfold after
      simp
    rw [hnone]
    constructor
    · intro h
      cases h
      exact ⟨fun spec hs => absurd hs List.not_mem_nil, rfl⟩
    · rintro ⟨-, rfl⟩
      rfl
  | cons spec specs ih =>
    rw [bindWhatCanBeFrom_cons, List.forall_mem_cons]
    dsimp only
    have hunfound : ∀ nf : List ParameterSpec, nf ++ [spec].filter (unfound lang incident) ++
        specs.filter (unfound lang incident) =
          nf ++ (spec :: specs).filter (unfound lang incident) := fun nf => by
      rw [List.append_assoc, ← List.filter_append]
      rfl
    cases hbound : bound lang spec incident with
    | ok v =>
      have hpair : boundPair lang incident spec = some (nameOf lang spec, v) := by
        unfold boundPair
        rw [hbound]
      have hfailed : failedPair lang incident spec = none := by
        unfold failedPair
        rw [hbound]
      rw [ih (hfresh.tail _ _)]
      · have hafter : after lang incident
            { acc with
              values := Json.setField acc.values (nameOf lang spec) v
              notFound := acc.notFound ++ [spec].filter (unfound lang incident) } specs =
            after lang incident acc (spec :: specs) := by
          unfold after
          rw [Json.setField_new hfresh.head.1, List.filterMap_cons_some hpair,
            List.filterMap_cons_none hfailed, hunfound]
          simp
        rw [hafter]
        exact and_congr_left fun _ => (and_iff_right (.inl ⟨v, hbound⟩)).symm
      · intro name hname
        rw [Json.setField_new hfresh.head.1, List.map_append] at hname
        rcases List.mem_append.mp hname with h | h
        · exact .inr h
        · exact .inl (List.mem_singleton.mp h)
      · exact fun _ h => .inr h
    | error e =>
      by_cases hparameter : ∃ m, e = .parameter m
      · obtain ⟨m, rfl⟩ := hparameter
        dsimp only
        have hpair : boundPair lang incident spec = none := by
          unfold boundPair
          rw [hbound]
        have hfailed : failedPair lang incident spec = some (nameOf lang spec, m) := by
          unfold failedPair
          rw [hbound]
        rw [ih (hfresh.tail _ _)]
        · have hafter : after lang incident
              { acc with
                failures := setFailure acc.failures (nameOf lang spec) m
                notFound := acc.notFound ++ [spec].filter (unfound lang incident) } specs =
              after lang incident acc (spec :: specs) := by
            unfold after
            rw [setFailure_new hfresh.head.2, List.filterMap_cons_none hpair,
              List.filterMap_cons_some hfailed, hunfound]
            simp
          rw [hafter]
          exact and_congr_left fun _ => (and_iff_right (.inr ⟨m, hbound⟩)).symm
        · exact fun _ h => .inr h
        · intro name hname
          rw [setFailure_new hfresh.head.2, List.map_append] at hname
          rcases List.mem_append.mp hname with h | h
          · exact .inr h
          · exact .inl (List.mem_singleton.mp h)
      · -- Any other exception ends the loop.
        have hends : (match (Except.error e : Except Exn Json) with
            | .ok v => bindWhatCanBeFrom lang incident
              { acc with
                values := Json.setField acc.values (nameOf lang spec) v
                notFound := acc.notFound ++ [spec].filter (unfound lang incident) } specs
            | .error (.parameter m) => bindWhatCanBeFrom lang incident
              { acc with
                failures := setFailure acc.failures (nameOf lang spec) m
                notFound := acc.notFound ++ [spec].filter (unfound lang incident) } specs
            | .error e => .error e) = .error e := by
          cases e with
          | parameter m => exact absurd ⟨m, rfl⟩ hparameter
          | _ => rfl
        rw [hends]
        constructor
        · intro h
          cases h
        · rintro ⟨⟨⟨v, hv⟩ | ⟨m, hm⟩, -⟩, -⟩
          · rw [hbound] at hv
            cases hv
          · rw [hbound] at hm
            exact absurd ⟨m, Except.error.inj hm⟩ hparameter

/-- **What `bind_parameters` returns**: every value, when all of them bind. -/
theorem bindParametersFrom_iff {values r : List (String × Json)}
    (hnodup : (specs.map (nameOf lang)).Nodup)
    (hfresh : ∀ name ∈ specs.map (nameOf lang), name ∉ values.map Prod.fst) :
    bindParametersFrom lang incident values specs = .ok r ↔
      (∀ spec ∈ specs, ∃ v, bound lang spec incident = .ok v) ∧
        r = values ++ specs.filterMap (boundPair lang incident) := by
  induction specs generalizing values with
  | nil =>
    rw [bindParametersFrom, List.filterMap_nil, List.append_nil]
    constructor
    · intro h
      cases h
      exact ⟨fun spec hs => absurd hs List.not_mem_nil, rfl⟩
    · rintro ⟨-, rfl⟩
      rfl
  | cons spec specs ih =>
    rw [List.map_cons] at hnodup hfresh
    obtain ⟨hnew, hnodup⟩ := List.nodup_cons.mp hnodup
    rw [bindParametersFrom_cons, List.forall_mem_cons]
    cases hbound : bound lang spec incident with
    | error e =>
      constructor
      · intro h
        cases h
      · rintro ⟨⟨⟨v, ⟨⟩⟩, -⟩, -⟩
    | ok v =>
      have hpair : boundPair lang incident spec = some (nameOf lang spec, v) := by
        unfold boundPair
        rw [hbound]
      have hfirst : nameOf lang spec ∉ values.map Prod.fst := hfresh _ (List.mem_cons_self ..)
      show bindParametersFrom lang incident (Json.setField values (nameOf lang spec) v) specs =
        .ok r ↔ _
      rw [Json.setField_new hfirst, ih hnodup, List.filterMap_cons_some hpair, List.append_assoc]
      · exact and_congr_left fun _ => (and_iff_right ⟨v, rfl⟩).symm
      · intro name hname hin
        rw [List.map_append] at hin
        rcases List.mem_append.mp hin with hin | hin
        · exact hfresh name (List.mem_cons_of_mem _ hname) hin
        · rw [List.mem_singleton.mp hin] at hname
          exact hnew hname

/-- The first failure is raised. -/
theorem bindParametersFrom_error {values : List (String × Json)} {before rest : List ParameterSpec}
    {e : Exn} (hbefore : ∀ s ∈ before, ∃ v, bound lang s incident = .ok v)
    (hspec : bound lang spec incident = .error e) :
    bindParametersFrom lang incident values (before ++ spec :: rest) = .error e := by
  induction before generalizing values with
  | nil =>
    rw [List.nil_append, bindParametersFrom_cons, hspec]
    rfl
  | cons s before ih =>
    obtain ⟨⟨v, hv⟩, hbefore⟩ := List.forall_mem_cons.mp hbefore
    rw [List.cons_append, bindParametersFrom_cons, hv]
    exact ih hbefore

/-- The first of the failures is that of the first declaration that does not bind. -/
theorem first_failure {name m : String} {others : List (String × String)}
    (hsettled : ∀ spec ∈ specs, Settled lang incident spec)
    (h : specs.filterMap (failedPair lang incident) = (name, m) :: others) :
    ∃ before spec rest, specs = before ++ spec :: rest ∧ nameOf lang spec = name ∧
      bound lang spec incident = .error (.parameter m) ∧
        ∀ s ∈ before, ∃ v, bound lang s incident = .ok v := by
  induction specs with
  | nil => cases h
  | cons spec specs ih =>
    obtain ⟨hspec, hsettled⟩ := List.forall_mem_cons.mp hsettled
    rcases hspec with ⟨v, hv⟩ | ⟨m', hm⟩
    · have hnone : failedPair lang incident spec = none := by
        unfold failedPair
        rw [hv]
      rw [List.filterMap_cons_none hnone] at h
      obtain ⟨before, spec', rest, rfl, hname, hfails, hbefore⟩ := ih hsettled h
      exact ⟨spec :: before, spec', rest, rfl, hname, hfails,
        List.forall_mem_cons.mpr ⟨⟨v, hv⟩, hbefore⟩⟩
    · have hsome : failedPair lang incident spec = some (nameOf lang spec, m') := by
        unfold failedPair
        rw [hm]
      rw [List.filterMap_cons_some hsome] at h
      obtain ⟨hpair, -⟩ := List.cons.inj h
      obtain ⟨rfl, rfl⟩ := Prod.mk.inj hpair
      exact ⟨[], spec, specs, rfl, rfl, hm, fun s hs => absurd hs List.not_mem_nil⟩

/-- Nothing failed when everything binds. -/
theorem failures_nil (hsettled : ∀ spec ∈ specs, Settled lang incident spec) :
    specs.filterMap (failedPair lang incident) = [] ↔
      ∀ spec ∈ specs, ∃ v, bound lang spec incident = .ok v := by
  rw [List.filterMap_eq_nil_iff]
  refine forall₂_congr fun spec hs => ?_
  unfold failedPair
  rcases hsettled spec hs with ⟨v, hv⟩ | ⟨m, hm⟩
  · rw [hv]
    exact iff_of_true rfl ⟨v, rfl⟩
  · rw [hm]
    constructor
    · intro h
      cases h
    · rintro ⟨v, ⟨⟩⟩

/-! ## What a bound value is -/

/-- The value is in the declaration's enumeration, if it has one. -/
def InEnum (spec : ParameterSpec) (v : Json) : Prop :=
  spec.enum.truthy = true → memberOf v spec.enum = .ok true

/-- The declaration admits a text: its length, its pattern and its enumeration do. -/
def Admits (lang : Patterns) (spec : ParameterSpec) (text : String) : Prop :=
  longerThan text.length spec.maxLength = .ok false ∧
    (∃ pattern, patternOf spec = .str pattern ∧ lang.fullmatch pattern text = .ok true) ∧
      InEnum spec (.str text)

/-- The value is one that the declaration asks for. -/
def Satisfies (lang : Patterns) (spec : ParameterSpec) (v : Json) : Prop :=
  (spec.type = .str "integer" ∧ (∃ n, v = .int n) ∧ InEnum spec v) ∨
    (spec.type = .str "string" ∧ ∃ text, v = .str text ∧ text ≠ "" ∧ Admits lang spec text)

/-- **The ticket says blanks and no more** where the declaration is of a text and admits the empty
one. -/
def Blank (lang : Patterns) (spec : ParameterSpec) (incident : Incident) : Prop :=
  spec.type = .str "string" ∧ Admits lang spec "" ∧
    ∃ raw, rawValue lang spec incident = .ok raw ∧ ¬Missing raw ∧
      PyText.strip (lang.builtins.str raw).toList = []

theorem validate_ok {raw v : Json} :
    validate lang spec raw = .ok v ↔
      ¬Missing raw ∧ coerce lang spec raw = .ok v ∧ InEnum spec v := by
  unfold validate InEnum
  by_cases hmissing : raw = .null ∨ raw = .str ""
  · rw [if_pos hmissing]
    constructor
    · intro h
      cases h
    · rintro ⟨h, -⟩
      exact absurd hmissing h
  rw [if_neg hmissing]
  cases hcoerce : coerce lang spec raw with
  | error e =>
    constructor
    · intro h
      cases h
    · rintro ⟨-, ⟨⟩, -⟩
  | ok w =>
    show (if spec.enum.truthy then _ else _) = _ ↔ _
    by_cases henum : spec.enum.truthy = true
    · rw [if_pos henum]
      cases hmember : memberOf w spec.enum with
      | error e =>
        constructor
        · intro h
          cases h
        · rintro ⟨-, ⟨⟩, hin⟩
          rw [hin henum] at hmember
          cases hmember
      | ok b =>
        cases b with
        | true =>
          constructor
          · intro h
            cases h
            exact ⟨hmissing, rfl, fun _ => hmember⟩
          · rintro ⟨-, ⟨⟩, -⟩
            rfl
        | false =>
          constructor
          · intro h
            cases h
          · rintro ⟨-, ⟨⟩, hin⟩
            rw [hin henum] at hmember
            cases hmember
    · rw [if_neg henum]
      constructor
      · intro h
        cases h
        exact ⟨hmissing, rfl, fun h => absurd h henum⟩
      · rintro ⟨-, ⟨⟩, -⟩
        rfl

theorem coerce_integer (htype : spec.type = .str "integer") {raw v : Json}
    (h : coerce lang spec raw = .ok v) : ∃ n, v = .int n := by
  unfold coerce at h
  rw [if_pos htype] at h
  split at h
  · rename_i n _
    cases h
    exact ⟨n, rfl⟩
  · cases h

/-- The text that a value becomes, and what was asked of it. -/
theorem coerce_text (htype : spec.type ≠ .str "integer") {raw v : Json} :
    coerce lang spec raw = .ok v ↔ ∃ text, v = .str text ∧
      text = String.ofList (PyText.strip (lang.builtins.str raw).toList) ∧
        longerThan text.length spec.maxLength = .ok false ∧
          ∃ pattern, patternOf spec = .str pattern ∧ lang.fullmatch pattern text = .ok true := by
  unfold coerce
  rw [if_neg htype]
  show (longerThan (PyText.strip (lang.builtins.str raw).toList).length spec.maxLength >>= _) =
    _ ↔ _
  generalize PyText.strip (lang.builtins.str raw).toList = stripped
  have hlen : (String.ofList stripped).length = stripped.length := String.length_ofList
  constructor
  · intro h
    obtain ⟨longer, hlonger, h⟩ := Executor.bind_eq_ok h
    cases longer with
    | true => cases h
    | false =>
      obtain ⟨pattern, hpattern, h⟩ := Executor.bind_eq_ok h
      obtain ⟨allowed, hallowed, h⟩ := Executor.bind_eq_ok h
      cases allowed with
      | false => cases h
      | true =>
        cases h
        refine ⟨_, rfl, rfl, by rw [hlen]; exact hlonger, pattern, ?_, hallowed⟩
        unfold textOf at hpattern
        split at hpattern
        · rename_i heq
          cases hpattern
          exact heq
        · cases hpattern
  · rintro ⟨text, rfl, rfl, hlonger, pattern, hpattern, hallowed⟩
    rw [hlen] at hlonger
    rw [hlonger, hpattern]
    show (lang.fullmatch pattern (String.ofList stripped) >>= _) = _
    rw [hallowed]
    rfl

theorem bound_ok {v : Json} :
    bound lang spec incident = .ok v ↔
      ∃ raw, rawValue lang spec incident = .ok raw ∧ validate lang spec raw = .ok v := by
  unfold bound
  constructor
  · intro h
    exact Executor.bind_eq_ok h
  · rintro ⟨raw, hraw, hv⟩
    rw [hraw]
    exact hv

/-- **What binds is what is asked for**, but where the ticket says blanks and no more. -/
theorem satisfies_iff (htype : spec.type = .str "integer" ∨ spec.type = .str "string") :
    (∀ v, bound lang spec incident = .ok v → Satisfies lang spec v) ↔
      ¬Blank lang spec incident := by
  constructor
  · rintro h ⟨hstring, ⟨hlength, hpattern, henum⟩, raw, hraw, hpresent, hblank⟩
    have hne : spec.type ≠ .str "integer" := by
      rw [hstring]
      decide
    have hempty : bound lang spec incident = .ok (.str "") := by
      refine bound_ok.mpr ⟨raw, hraw, validate_ok.mpr ⟨hpresent, ?_, henum⟩⟩
      refine (coerce_text hne).mpr ⟨"", rfl, ?_, hlength, hpattern⟩
      rw [hblank]
    rcases h _ hempty with ⟨hinteger, -⟩ | ⟨-, text, heq, hsome, -⟩
    · exact hne hinteger
    · exact hsome (Json.str.inj heq).symm
  · intro hblank v hv
    obtain ⟨raw, hraw, hvalid⟩ := bound_ok.mp hv
    obtain ⟨hpresent, hcoerce, henum⟩ := validate_ok.mp hvalid
    rcases htype with htype | htype
    · exact .inl ⟨htype, coerce_integer htype hcoerce, henum⟩
    · have hne : spec.type ≠ .str "integer" := by
        rw [htype]
        decide
      obtain ⟨text, rfl, htext, hlength, hpattern⟩ := (coerce_text hne).mp hcoerce
      refine .inr ⟨htype, text, rfl, fun hempty => hblank ?_, hlength, hpattern, henum⟩
      refine ⟨htype, hempty ▸ ⟨hlength, hpattern, henum⟩, raw, hraw, hpresent, ?_⟩
      rw [hempty] at htext
      exact String.toList_ofList.symm.trans (congrArg String.toList htext.symm)

/-! ## Accepted declarations -/

theorem textOf_ok {v : Json} {text : String} (h : textOf v = .ok text) : v = .str text := by
  unfold textOf at h
  split at h
  · cases h
    rfl
  · cases h

/-- An accepted declaration has a name and a type. -/
theorem specProblems_ok (h : specProblems lang spec = .ok []) :
    (∃ name, spec.name = .str name) ∧
      (spec.type = .str "integer" ∨ spec.type = .str "string") := by
  unfold specProblems at h
  obtain ⟨name, hname, h⟩ := Executor.bind_eq_ok h
  obtain ⟨known, hknown, h⟩ := Executor.bind_eq_ok h
  obtain ⟨ofSource, -, h⟩ := Executor.bind_eq_ok h
  obtain ⟨ofPattern, -, h⟩ := Executor.bind_eq_ok h
  have hnone := Except.ok.inj h
  simp only [List.append_eq_nil_iff] at hnone
  obtain ⟨⟨⟨⟨hofName, hofType⟩, -⟩, -⟩, -⟩ := hnone
  constructor
  · have hidentifier : isIdentifier name = true := by
      by_contra hnot
      rw [if_neg hnot] at hofName
      cases hofName
    by_cases htruthy : spec.name.truthy = true
    · rw [Json.orElse, if_pos htruthy] at hname
      exact ⟨name, textOf_ok hname⟩
    · rw [Json.orElse, if_neg htruthy] at hname
      cases hname
      cases hidentifier
  · have hin : known = true := by
      by_contra hnot
      rw [if_neg hnot] at hofType
      cases hofType
    rw [hin] at hknown
    unfold inNames at hknown
    split at hknown
    · rename_i text heq
      have hmem : text ∈ parameterTypes := by simpa using Except.ok.inj hknown
      rcases List.mem_cons.mp hmem with rfl | hmem
      · exact .inl heq
      · rw [List.mem_singleton.mp hmem] at heq
        exact .inr heq
    · cases hknown
    · cases hknown
    · cases hknown

/-- The names of accepted declarations are texts, and no two are the same. -/
theorem Accepted.nodup (h : Accepted lang specs) : (specs.map (nameOf lang)).Nodup := by
  obtain ⟨hproblems, hnodup⟩ := h
  have hname : ∀ spec ∈ specs, spec.name = .str (nameOf lang spec) := fun spec hs => by
    obtain ⟨⟨name, hname⟩, -⟩ := specProblems_ok (hproblems spec hs)
    unfold nameOf
    rw [hname]
    rfl
  have hmap : specs.map (fun spec => spec.name) = (specs.map (nameOf lang)).map Json.str := by
    rw [List.map_map]
    exact List.map_congr_left hname
  rw [hmap] at hnodup
  exact hnodup.of_map _

/-- The value that is found under a name is the one that its declaration binds. -/
theorem lookup_bound (hnodup : (specs.map (nameOf lang)).Nodup) (hs : spec ∈ specs) {v : Json} :
    (specs.filterMap (boundPair lang incident)).lookup (nameOf lang spec) = some v ↔
      bound lang spec incident = .ok v := by
  have hpair : ∀ {s : ParameterSpec} {p : String × Json},
      boundPair lang incident s = some p ↔
        p.1 = nameOf lang s ∧ bound lang s incident = .ok p.2 := by
    intro s p
    unfold boundPair
    cases bound lang s incident with
    | error e =>
      constructor
      · intro h
        cases h
      · rintro ⟨-, ⟨⟩⟩
    | ok w =>
      constructor
      · intro h
        cases h
        exact ⟨rfl, rfl⟩
      · rintro ⟨hname, hv⟩
        rw [Except.ok.inj hv, ← hname]
  have hkeys : ((specs.filterMap (boundPair lang incident)).map Prod.fst).Nodup := by
    refine List.Nodup.sublist ?_ hnodup
    clear hnodup hs
    induction specs with
    | nil => exact List.Sublist.refl _
    | cons s specs ih =>
      cases hs : boundPair lang incident s with
      | none =>
        rw [List.filterMap_cons_none hs]
        exact ih.cons _
      | some p =>
        rw [List.filterMap_cons_some hs, List.map_cons, List.map_cons, (hpair.mp hs).1]
        exact ih.cons_cons _
  constructor
  · intro h
    obtain ⟨s, hin, hp⟩ := List.mem_filterMap.mp (Json.mem_of_lookup h)
    obtain ⟨hname, hv⟩ := hpair.mp hp
    rw [List.inj_on_of_nodup_map hnodup hs hin hname]
    exact hv
  · intro hv
    exact Json.lookup_of_mem hkeys (List.mem_filterMap.mpr ⟨spec, hs, hpair.mpr ⟨rfl, hv⟩⟩)

/-! ## The two forms agree -/

/-- **Binding is sound and its two forms agree**: `bind_what_can_be` reports no failure where
`bind_parameters` succeeds, with the same values; the first failure that it reports is the first in
the order of the declarations, and the one that `bind_parameters` raises; the values are what the
declarations bind, and each is one that its declaration asks for. -/
def Sound (lang : Patterns) (specs : List ParameterSpec) (incident : Incident) : Prop :=
  (∀ values, (∃ notFound, bindWhatCanBe lang specs incident = .ok ⟨values, [], notFound⟩) ↔
      bindParameters lang specs incident = .ok values) ∧
    (∀ r name m others, bindWhatCanBe lang specs incident = .ok r →
      r.failures = (name, m) :: others →
        bindParameters lang specs incident = .error (.parameter m) ∧
          ∃ before spec rest, specs = before ++ spec :: rest ∧ nameOf lang spec = name ∧
            bound lang spec incident = .error (.parameter m) ∧
              ∀ s ∈ before, ∃ v, bound lang s incident = .ok v) ∧
    (∀ r, bindWhatCanBe lang specs incident = .ok r → ∀ spec ∈ specs, ∀ v,
      r.values.lookup (nameOf lang spec) = some v ↔ bound lang spec incident = .ok v) ∧
    ∀ spec ∈ specs, ∀ v, bound lang spec incident = .ok v → Satisfies lang spec v

/-- **Accepted declarations bind soundly** exactly where none of them that is of a text and admits
the empty one finds blanks and no more in the ticket. -/
theorem binding_sound (lang : Patterns) (specs : List ParameterSpec) (incident : Incident)
    (h : Accepted lang specs) :
    Sound lang specs incident ↔ ∀ spec ∈ specs, ¬Blank lang spec incident := by
  have hnodup := h.nodup
  have hfresh : Fresh lang {} specs :=
    ⟨hnodup, fun name _ => ⟨List.not_mem_nil, List.not_mem_nil⟩⟩
  have hwhat : ∀ r, bindWhatCanBe lang specs incident = .ok r ↔
      (∀ spec ∈ specs, Settled lang incident spec) ∧ r = after lang incident {} specs :=
    fun r => bindWhatCanBeFrom_iff hfresh
  have hall : ∀ r, bindParameters lang specs incident = .ok r ↔
      (∀ spec ∈ specs, ∃ v, bound lang spec incident = .ok v) ∧
        r = specs.filterMap (boundPair lang incident) :=
    fun r => bindParametersFrom_iff hnodup fun _ _ => List.not_mem_nil
  have hsatisfies : (∀ spec ∈ specs, ∀ v, bound lang spec incident = .ok v →
      Satisfies lang spec v) ↔ ∀ spec ∈ specs, ¬Blank lang spec incident :=
    forall₂_congr fun spec hs => satisfies_iff (specProblems_ok (h.1 spec hs)).2
  unfold Sound
  rw [hsatisfies]
  constructor
  · rintro ⟨-, -, -, hblank⟩
    exact hblank
  · intro hblank
    refine ⟨fun values => ?_, fun r name m others hr hfailures => ?_, fun r hr spec hs v => ?_,
      hblank⟩
    · constructor
      · rintro ⟨notFound, hr⟩
        obtain ⟨hsettled, heq⟩ := (hwhat _).mp hr
        have hnone : specs.filterMap (failedPair lang incident) = [] :=
          (congrArg Bound.failures heq).symm
        exact (hall values).mpr ⟨(failures_nil hsettled).mp hnone, congrArg Bound.values heq⟩
      · intro hvalues
        obtain ⟨hbound, rfl⟩ := (hall values).mp hvalues
        have hsettled : ∀ spec ∈ specs, Settled lang incident spec :=
          fun spec hs => .inl (hbound spec hs)
        refine ⟨specs.filter (unfound lang incident), (hwhat _).mpr ⟨hsettled, ?_⟩⟩
        unfold after
        rw [(failures_nil hsettled).mpr hbound]
        rfl
    · obtain ⟨hsettled, rfl⟩ := (hwhat r).mp hr
      obtain ⟨before, spec, rest, heq, hname, hspec, hbefore⟩ :=
        first_failure hsettled hfailures
      refine ⟨?_, before, spec, rest, heq, hname, hspec, hbefore⟩
      rw [heq]
      exact bindParametersFrom_error hbefore hspec
    · obtain ⟨-, rfl⟩ := (hwhat r).mp hr
      exact lookup_bound hnodup hs

/-- The patterns of a sample: one of the author's, and the default one. -/
def samplePatterns : Patterns where
  builtins := sampleLanguage.builtins
  repr_int _ := rfl
  fullmatch pattern text :=
    if pattern = "[A-Z ]*" then .ok (text.toList.all fun c => ('A' ≤ c && c ≤ 'Z') || c == ' ')
    else .ok (!text.isEmpty &&
      text.toList.all fun c => isWordChar c || c == '.' || c == '-')
  compile _ := .ok 0
  search _ _ := .ok none

/-- The application that a ticket is about, in capitals. -/
def application : ParameterSpec where
  name := .str "application"
  type := .str "string"
  source := .obj [("kind", .str "ticket_field"), ("field", .str "cmdb_ci")]
  pattern := .str "[A-Z ]*"
  enum := .arr []
  maxLength := .int 128
  description := .str ""

theorem application_accepted : Accepted samplePatterns [application] := by
  constructor
  · intro spec hs
    rw [List.mem_singleton.mp hs]
    decide
  · decide

theorem binding_sound_sample :
    Accepted samplePatterns [application] ∧
      Sound samplePatterns [application] { cmdbCi := " PAY HUB " } := by
  refine ⟨application_accepted,
    (binding_sound samplePatterns [application] _ application_accepted).mpr ?_⟩
  rintro spec hs ⟨-, -, raw, hraw, -, hblank⟩
  rw [List.mem_singleton.mp hs] at hraw
  cases hraw
  exact absurd hblank (by decide)

/-- A ticket whose configuration item is two blanks: the parameter is bound to the empty text. -/
theorem binding_blank :
    Accepted samplePatterns [application] ∧
      bindParameters samplePatterns [application] { cmdbCi := "  " } =
        .ok [("application", .str "")] ∧
      ¬Sound samplePatterns [application] { cmdbCi := "  " } := by
  refine ⟨application_accepted, by decide, fun h => ?_⟩
  have hbound : bound samplePatterns application { cmdbCi := "  " } = .ok (.str "") := by decide
  rcases h.2.2.2 application (List.mem_singleton.mpr rfl) _ hbound with
    ⟨hinteger, -⟩ | ⟨-, text, heq, hsome, -⟩
  · exact absurd hinteger (by decide)
  · exact hsome (Json.str.inj heq).symm

/-! ## Declarations whose fields have their types -/

/-- The declaration as a content writes it. -/
def ofTyped (spec : L1Agent.ParameterSpec) : ParameterSpec where
  name := .str spec.name
  type := .str spec.type
  source := spec.source
  pattern := .str spec.pattern
  enum := .arr spec.enum
  maxLength := .int spec.maxLength
  description := .str ""

end Raw.Binding
end L1Agent