import L1Agent.Connectors.Lint

/-! # The entry point of a connector (`connectors/sdk/base.py`)

`invoke_write` lets a write through to the connector's own code when the parameters satisfy the
capability's closed schema, the allow lists have nothing against them and the grant is redeemed.
A parameter that is not given, or is empty, has nothing to be checked, and a value that is a list
or an object is compared as the text of the whole.

`write_targets_bounded` is the equivalence for every write that is let through, over a registry that
was built, and `start_unnamed` a write that names no target.  A manifest can see to it by its
schema: where it pins every target down, nothing else is let through (`write_targets_pinned`).
-/
namespace L1Agent
namespace Sdk
open Raw.Binding

/-- A connector that has been built. -/
structure Connector where
  manifest : Declaration
  config : List (String × Json)

section Checks
variable (tools : Tools)

/-- `isinstance(value, _JSON_TYPES.get(type, object))`, and no bool where it is not asked for. -/
def hasType (type value : Json) : Except Exn Bool :=
  match type with
  | .arr _ | .obj _ => .error (typeError s!"unhashable type: '{type.typeName}'")
  | .str "boolean" => .ok (match value with | .bool _ => true | _ => false)
  | .str "string" => .ok (match value with | .str _ => true | _ => false)
  | .str "integer" => .ok (match value with | .int _ => true | _ => false)
  | .str "number" => .ok (match value with | .int _ | .float _ => true | _ => false)
  | .str "object" => .ok (match value with | .obj _ => true | _ => false)
  | .str "array" => .ok (match value with | .arr _ => true | _ => false)
  | _ => .ok (match value with | .bool _ => false | _ => true)

/-- `value < bound`, of a number. -/
def below (value bound : Json) : Except Exn Bool :=
  match value.number?, bound.number? with
  | some p, some q => .ok (decide (p < q))
  | _, _ => .error (typeError
      s!"'<' not supported between instances of '{value.typeName}' and '{bound.typeName}'")

/-- What is wrong with a number. -/
def rangeProblems (spec : Json) (key : String) (value : Json) : Except Exn (List String) := do
  let low ← match spec.get? "minimum" with
    | some bound => below value bound
    | none => .ok false
  let high ← match spec.get? "maximum" with
    | some bound => below bound value
    | none => .ok false
  return (if low then ["parameter '" ++ key ++ "' is below the minimum"] else []) ++
    if high then ["parameter '" ++ key ++ "' is above the maximum"] else []

/-- What is wrong with a text. -/
def textProblems (spec : Json) (key text : String) : Except Exn (List String) := do
  if ← longerThan text.length (spec.getD "maxLength" (.int 10000)) then
    return ["parameter '" ++ key ++ "' is too long"]
  else match spec.get? "pattern" with
    | none => return []
    | some pattern =>
      if ← tools.lang.fullmatch (← textOf pattern) text then return []
      else return ["parameter '" ++ key ++ "' has characters that are not allowed"]

/-- Whether the value is none of those that are listed. -/
def notListed (spec value : Json) : Except Exn Bool :=
  match spec.get? "enum" with
  | none => .ok false
  | some values => (memberOf value values).map (!·)

/-- What is wrong with a value of the declared type. -/
def typedProblems (spec : Json) (key : String) (value : Json) : Except Exn (List String) := do
  if ← notListed spec value then
    return ["parameter '" ++ key ++ "' must be one of " ++
      tools.lang.builtins.repr (.arr (((spec.getD "enum" .null).elements).getD []))]
  else match value with
    | .str text => textProblems tools spec key text
    | .int _ | .float _ => rangeProblems spec key value
    | _ => return []

/-- What is wrong with the value of a parameter that is declared. -/
def valueProblems (spec : Json) (key : String) (value : Json) : Except Exn (List String) :=
  if !spec.isObj then
    .error (.other "AttributeError" s!"'{spec.typeName}' object has no attribute 'get'")
  else do
    if ← hasType (spec.getD "type" (.str "")) value then typedProblems tools spec key value
    else return ["parameter '" ++ key ++ "' has the wrong type"]

/-- `value in (None, "")`, of `parameters.get(key)`. -/
def blank (value : Option Json) : Bool :=
  value = none || value = some .null || value = some (.str "")

/-- A key of `required`. -/
def requiredKey (parameters : List (String × Json)) (subject : String) (key : Json) :
    Except Exn (List String) :=
  match key with
  | .arr _ | .obj _ => .error (typeError s!"unhashable type: '{key.typeName}'")
  | .str name =>
    .ok (if blank (parameters.lookup name) then
      ["parameter '" ++ name ++ "' is required for " ++ subject] else [])
  | _ => .ok ["parameter '" ++ tools.lang.builtins.str key ++ "' is required for " ++ subject]

/-- What is wrong with a parameter's value, if the parameter is declared. -/
def parameterProblems (properties : List (String × Json)) (parameter : String × Json) :
    Except Exn (List String) :=
  match properties.lookup parameter.1 with
  | none => .ok []
  | some spec => valueProblems tools spec parameter.1 parameter.2

/-- `validate_parameters`, with no placeholders left; the schema is one that the lint has passed. -/
def validateParameters (schema parameters : Json) (subject : String) :
    Except Exn (List String) :=
  match parameters, schema.getD "properties" (.obj []) with
  | .obj parameters, .obj properties => do
    let required := schema.getD "required" (.arr [])
    let keys ← match required.elements with
      | some keys => .ok keys
      | none => .error (typeError s!"'{required.typeName}' object is not iterable")
    let missing ← keys.mapM (requiredKey tools parameters subject)
    let found ← parameters.mapM (parameterProblems tools properties)
    return (parameters.filter fun p => (properties.lookup p.1).isNone).map (fun p =>
        "parameter '" ++ p.1 ++ "' is not allowed for " ++ subject) ++ missing.flatten ++
      found.flatten
  | .obj _, properties =>
    .error (typeError s!"argument of type '{properties.typeName}' is not iterable")
  | _, _ => .ok ["parameters must be an object"]

/-- The list that a connection's setting holds, gone through with `for`. -/
def listed (allowed : Json) (agrees : Json → Bool) : Except Exn Bool :=
  match allowed.elements with
  | some items => .ok (items.any agrees)
  | none => .error (typeError s!"'{allowed.typeName}' object is not iterable")

/-- What an allow list has against a parameter that is given. -/
def bindingProblem (connector : Connector) (binding : AllowListBinding) (value : Json) :
    Except Exn (Option String) :=
  let str := tools.lang.builtins.str
  let allowed := (connector.config.lookup binding.configKey).getD .null
  let problem := "parameter '" ++ binding.parameter ++ "' is not on allow list '" ++
    binding.configKey ++ "'"
  if !allowed.truthy then
    .ok (some ("parameter '" ++ binding.parameter ++ "' is refused: allow list '" ++
      binding.configKey ++ "' is empty"))
  else if binding.matching = "exact" then
    (listed allowed fun a => str value = str a).map fun found =>
      if found then none else some problem
  else if binding.matching = "pattern" then
    (listed allowed fun a => tools.fnmatchcase (str value) (str a)).map fun found =>
      if found then none else some problem
  else .ok none

/-- `_allow_list_problems`: a parameter that is not given has none. -/
def allowListProblem (connector : Connector) (parameters : List (String × Json))
    (binding : AllowListBinding) : Except Exn (Option String) :=
  match parameters.lookup binding.parameter with
  | none | some .null | some (.str "") => .ok none
  | some value => bindingProblem tools connector binding value

/-- `refusals`, of a capability that the manifest declares. -/
def refusals (connector : Connector) (cap : Declared) (parameters : Json) :
    Except Exn (List String) := do
  let problems ← validateParameters tools cap.parameters parameters cap.id
  match parameters with
  | .obj fields =>
    let lists ← cap.allowLists.mapM (allowListProblem tools connector fields)
    return problems ++ lists.filterMap id
  | v => throw (.other "AttributeError" s!"'{v.typeName}' object has no attribute 'get'")

/-- The connector's own code that a write reaches. -/
inductive Reached where
  | dryRun | write
  deriving DecidableEq

/-- The call of a capability. -/
structure WriteAsked where
  parameters : Json
  grant : Bool
  dryRun : Bool
  /-- What the verifier says to the grant; `none` where there is no verifier. -/
  redeem : Option (Except Exn Unit)

/-- `_invoke_write`, up to the connector's own code. -/
def invokeWrite (connector : Connector) (cap : Declared) (call : WriteAsked) :
    Except Exn Reached :=
  if !call.dryRun ∧ (!call.grant ∨ call.redeem.isNone) then
    .error (.other "WriteNotAuthorized"
      ("'" ++ cap.id ++ "' is a write and needs a grant from the policy engine"))
  else do
    let problems ← refusals tools connector cap call.parameters
    if problems ≠ [] then throw (.other "Refused" ("; ".intercalate problems))
    else if call.dryRun then
      if !cap.supportsDryRun then throw (.other "Refused" ("'" ++ cap.id ++ "' has no dry run"))
      else return .dryRun
    else do
      call.redeem.getD (.ok ())
      return .write

end Checks

/-! ## What a call that is let through has passed -/

variable {tools : Tools}

theorem invokeWrite_admitted {connector : Connector} {cap : Declared} {call : WriteAsked}
    {reached : Reached} (h : invokeWrite tools connector cap call = .ok reached) :
    refusals tools connector cap call.parameters = .ok [] := by
  unfold invokeWrite at h
  split at h
  · cases h
  · obtain ⟨problems, hproblems, h⟩ := Executor.bind_eq_ok h
    by_cases hnil : problems = []
    · rw [hproblems, hnil]
    · rw [if_pos hnil] at h
      cases h

/-- The parameters of such a call, and what was found of them. -/
theorem refusals_nil {connector : Connector} {cap : Declared} {parameters : Json}
    (h : refusals tools connector cap parameters = .ok []) :
    validateParameters tools cap.parameters parameters cap.id = .ok [] ∧
    ∃ fields, parameters = .obj fields ∧
      ∀ binding ∈ cap.allowLists, allowListProblem tools connector fields binding = .ok none := by
  obtain ⟨problems, hproblems, h⟩ := Executor.bind_eq_ok h
  cases parameters with
  | obj fields =>
    obtain ⟨lists, hlists, h⟩ := Executor.bind_eq_ok h
    obtain ⟨hvalid, hnone⟩ := List.append_eq_nil_iff.mp (Except.ok.inj h)
    refine ⟨by rw [hproblems, hvalid], fields, rfl, fun binding hbinding => ?_⟩
    obtain ⟨problem, hproblem, heq⟩ := mem_of_mapM_ok hlists hbinding
    rw [heq]
    cases problem with
    | none => rfl
    | some text =>
      have hmem : text ∈ lists.filterMap id := List.mem_filterMap.mpr ⟨some text, hproblem, rfl⟩
      rw [hnone] at hmem
      cases hmem
  | null | bool | int | float | str | arr => cases h

/-! ## What is claimed -/

mutual

/-- The values that a value holds: itself, or those of its items. -/
def held : Json → List Json
  | .arr items => heldItems items
  | .obj fields => heldFields fields
  | v => [v]

def heldItems : List Json → List Json
  | [] => []
  | v :: vs => held v ++ heldItems vs

def heldFields : List (String × Json) → List Json
  | [] => []
  | (_, v) :: fields => held v ++ heldFields fields

end

/-- A list or an object. -/
def Compound : Json → Prop
  | .arr _ | .obj _ => True
  | _ => False

/-- A value that says something. -/
def NonEmpty (value : Json) : Prop :=
  value ≠ .null ∧ value ≠ .str "" ∧ value ≠ .arr [] ∧ value ≠ .obj []

/-- Each value that is held is on the list, by the binding's kind of comparison. -/
def Lists (tools : Tools) (connector : Connector) (binding : AllowListBinding) (value : Json) :
    Prop :=
  let allowed := (((connector.config.lookup binding.configKey).getD .null).elements).getD []
  let str := tools.lang.builtins.str
  (binding.matching = "exact" → ∀ v ∈ held value, ∃ a ∈ allowed, str v = str a) ∧
    (binding.matching = "pattern" →
      ∀ v ∈ held value, ∃ a ∈ allowed, tools.fnmatchcase (str v) (str a) = true)

/-- **A target that is bounded**: it is given, its allow list is configured, and every value it
holds is on the list. -/
def Bounded (tools : Tools) (connector : Connector) (cap : Declared) (parameters : Json)
    (target : String) : Prop :=
  ∃ value, parameters.get? target = some value ∧ NonEmpty value ∧
    (∃ binding ∈ cap.allowLists, binding.parameter = target) ∧
    ∀ binding ∈ cap.allowLists, binding.parameter = target →
      ((connector.config.lookup binding.configKey).getD .null).truthy = true ∧
        Lists tools connector binding value

/-- A target that is given; of a list or an object the values it holds are listed one by one. -/
def Given (tools : Tools) (connector : Connector) (cap : Declared) (parameters : Json)
    (target : String) : Prop :=
  ∃ value, parameters.get? target = some value ∧ NonEmpty value ∧
    (Compound value → ∀ binding ∈ cap.allowLists, binding.parameter = target →
      Lists tools connector binding value)

theorem listed_ok {allowed : Json} {agrees : Json → Bool} {found : Bool}
    (h : listed allowed agrees = .ok found) :
    found = true ↔ ∃ a ∈ allowed.elements.getD [], agrees a = true := by
  unfold listed at h
  split at h
  · rename_i items hitems
    rw [hitems, Option.getD_some, ← Except.ok.inj h, List.any_eq_true]
  · cases h

/-- What the allow list has nothing against is listed, by the text of the whole value. -/
theorem bindingProblem_none {connector : Connector} {binding : AllowListBinding} {value : Json}
    (h : bindingProblem tools connector binding value = .ok none) :
    ((connector.config.lookup binding.configKey).getD .null).truthy = true ∧
      (binding.matching = "exact" →
        ∃ a ∈ (((connector.config.lookup binding.configKey).getD .null).elements).getD [],
          tools.lang.builtins.str value = tools.lang.builtins.str a) ∧
      (binding.matching = "pattern" →
        ∃ a ∈ (((connector.config.lookup binding.configKey).getD .null).elements).getD [],
          tools.fnmatchcase (tools.lang.builtins.str value) (tools.lang.builtins.str a) =
            true) := by
  unfold bindingProblem at h
  dsimp only at h
  generalize (connector.config.lookup binding.configKey).getD .null = allowed at h ⊢
  have hlisted : ∀ {agrees : Json → Bool} {problem : String},
      ((listed allowed agrees).map fun found => if found = true then none else some problem) =
        (.ok none : Except Exn (Option String)) →
      ∃ a ∈ allowed.elements.getD [], agrees a = true := by
    intro agrees problem hmap
    cases hfound : listed allowed agrees with
    | error e =>
      rw [hfound] at hmap
      cases hmap
    | ok found =>
      rw [hfound] at hmap
      cases found with
      | true => exact (listed_ok hfound).mp rfl
      | false => cases hmap
  by_cases htruthy : allowed.truthy = true
  · rw [htruthy, Bool.not_true, if_neg Bool.false_ne_true] at h
    refine ⟨htruthy, fun hexact => ?_, fun hpattern => ?_⟩
    · rw [if_pos hexact] at h
      obtain ⟨a, ha, heq⟩ := hlisted h
      exact ⟨a, ha, of_decide_eq_true heq⟩
    · have hexact : binding.matching ≠ "exact" := by
        rw [hpattern]
        decide
      rw [if_neg hexact, if_pos hpattern] at h
      exact hlisted h
  · rw [Bool.eq_false_iff.mpr htruthy, Bool.not_false, if_pos rfl] at h
    cases h

theorem held_single {value : Json} (h : ¬ Compound value) : held value = [value] := by
  cases value with
  | arr | obj => exact absurd trivial h
  | null | bool | int | float | str => simp [held]

/-- A target that is given is bounded, once the call has been let through. -/
theorem bounded_of_given {connector : Connector} {cap : Declared} {fields : List (String × Json)}
    {target : String} (hlists : ∀ binding ∈ cap.allowLists,
      allowListProblem tools connector fields binding = .ok none)
    (hbound : ∃ binding ∈ cap.allowLists, binding.parameter = target)
    (h : Given tools connector cap (.obj fields) target) :
    Bounded tools connector cap (.obj fields) target := by
  obtain ⟨value, hvalue, hne, hcompound⟩ := h
  refine ⟨value, hvalue, hne, hbound, fun binding hbinding hname => ?_⟩
  have hproblem : bindingProblem tools connector binding value = .ok none := by
    have hnone := hlists binding hbinding
    have hlookup : fields.lookup binding.parameter = some value := by
      rw [hname]
      exact hvalue
    unfold allowListProblem at hnone
    rw [hlookup] at hnone
    split at hnone
    · rename_i heq
      cases heq
    · rename_i heq
      cases heq
      exact absurd rfl hne.1
    · rename_i heq
      cases heq
      exact absurd rfl hne.2.1
    · rename_i heq
      cases heq
      exact hnone
  obtain ⟨htruthy, hexact, hpattern⟩ := bindingProblem_none hproblem
  refine ⟨htruthy, ?_⟩
  by_cases hc : Compound value
  · exact hcompound hc binding hbinding hname
  · unfold Lists
    dsimp only
    rw [held_single hc]
    refine ⟨fun hm v hv => ?_, fun hm v hv => ?_⟩
    · rw [List.mem_singleton.mp hv]
      exact hexact hm
    · rw [List.mem_singleton.mp hv]
      exact hpattern hm

/-- **A write that is let through acts on bounded targets exactly when each of them is given.**
A target that is left out or empty is not compared with anything, and a list or an object is
compared as the text of the whole. -/
theorem write_targets_bounded {ms : List Declaration} {registry : Registry}
    (hbuild : Registry.build tools ms = .ok registry) {connector : Connector}
    (hconnector : connector.manifest ∈ ms) {capabilityId : String} {cap : Declared}
    (hcap : connector.manifest.capability capabilityId = some cap) (hwrite : cap.kind = .write)
    {call : WriteAsked} {reached : Reached}
    (hreached : invokeWrite tools connector cap call = .ok reached) :
    (∀ target ∈ cap.targetParameters, Bounded tools connector cap call.parameters target) ↔
      ∀ target ∈ cap.targetParameters, Given tools connector cap call.parameters target := by
  obtain ⟨known, hlint⟩ := Registry.build_lint hbuild hconnector (List.mem_of_find?_eq_some hcap)
  obtain ⟨-, fields, hfields, hlists⟩ := refusals_nil (invokeWrite_admitted hreached)
  rw [hfields]
  constructor
  · intro h target htarget
    obtain ⟨value, hvalue, hne, -, hall⟩ := h target htarget
    exact ⟨value, hvalue, hne, fun _ binding hbinding hname => (hall binding hbinding hname).2⟩
  · intro h target htarget
    exact bounded_of_given hlists (lintCapability_bound hlint hwrite htarget) (h target htarget)

/-! A connector whose write names a job, and need not. -/

/-- Every text that is no pattern matches itself. -/
def sampleTools : Tools where
  lang := Parameters.sampleLanguage
  reader := { float := fun _ => 0, repr := fun _ => "" }
  fnmatchcase name pattern := name == pattern

/-- The schema of a call that may name a job. -/
def jobSchema : Json :=
  .obj [("type", .str "object"), ("additionalProperties", .bool false),
    ("properties", .obj [("job_name", .obj [])])]

def jobStatus : Declared where
  id := "demo.job.status"
  kind := .read
  tier := some .t0
  summary := "The status of a job"
  properties := ["job_name"]
  parameters := jobSchema
  declares := rfl

def jobStart : Declared where
  id := "demo.job.start"
  kind := .write
  tier := some .t1
  summary := "Start a job"
  properties := ["job_name"]
  parameters := jobSchema
  scopes := ["jobs"]
  allowLists := [⟨"job_name", "jobs", "exact"⟩]
  targetParameters := ["job_name"]
  verify := some { capability := "demo.job.status", assertion := "result.ok" }
  rollback := "none: a job that has been started runs"
  declares := rfl

def jobManifest : Declaration where
  id := "demo"
  version := "1"
  family := .operations
  displayName := "Demo"
  config := .obj [("type", .str "object"), ("additionalProperties", .bool false),
    ("properties", .obj [("jobs", .obj [("type", .str "array")])])]
  capabilities := [jobStatus, jobStart]

/-- The tenant lets the job `billing` be started. -/
def jobConnector : Connector where
  manifest := jobManifest
  config := [("jobs", .arr [.str "billing"])]

/-- A start of what the parameters name, with a grant that is good. -/
def startCall (parameters : List (String × Json)) : WriteAsked where
  parameters := .obj parameters
  grant := true
  dryRun := false
  redeem := some (.ok ())

theorem jobRegistry_builds :
    ∃ registry, Registry.build sampleTools [jobManifest] = .ok registry := by
  have hok : (match Registry.build sampleTools [jobManifest] with
      | .ok _ => true
      | .error _ => false) = true := by decide +kernel
  split at hok
  · rename_i registry hregistry
    exact ⟨registry, hregistry⟩
  · cases hok

theorem write_targets_bounded_sample :
    (∀ target ∈ ["job_name"], Bounded sampleTools jobConnector jobStart
        (.obj [("job_name", .str "billing")]) target) ↔
      ∀ target ∈ ["job_name"], Given sampleTools jobConnector jobStart
        (.obj [("job_name", .str "billing")]) target := by
  obtain ⟨registry, hregistry⟩ := jobRegistry_builds
  exact @write_targets_bounded sampleTools [jobManifest] registry hregistry jobConnector
    (List.mem_singleton.mpr rfl) "demo.job.start" jobStart rfl rfl
    (startCall [("job_name", .str "billing")]) .write (by decide +kernel)

/-- A start that names no job is let through; nothing says what is started. -/
theorem start_unnamed : ¬ ∀ (ms : List Declaration) (registry : Registry) (connector : Connector)
    (capabilityId : String) (cap : Declared) (call : WriteAsked) (reached : Reached),
    Registry.build sampleTools ms = .ok registry → connector.manifest ∈ ms →
    connector.manifest.capability capabilityId = some cap → cap.kind = .write →
    invokeWrite sampleTools connector cap call = .ok reached →
    ∀ target ∈ cap.targetParameters,
      Bounded sampleTools connector cap call.parameters target := by
  intro hall
  obtain ⟨registry, hregistry⟩ := jobRegistry_builds
  obtain ⟨value, hvalue, -⟩ := hall [jobManifest] registry jobConnector "demo.job.start" jobStart
    (startCall []) .write hregistry (List.mem_singleton.mpr rfl) rfl rfl (by decide +kernel)
    "job_name" (List.mem_singleton.mpr rfl)
  cases hvalue

/-! ## Schemas that keep every call bounded -/

/-- The schema requires the target and gives it a type that has no items. -/
structure Pinned (schema : Json) (target : String) : Prop where
  required : ∃ names, schema.get? "required" = some (.arr names) ∧ .str target ∈ names
  type : ∃ properties spec type, schema.get? "properties" = some (.obj properties) ∧
    properties.lookup target = some spec ∧ spec.get? "type" = some (.str type) ∧
    type ∈ ["string", "integer", "number", "boolean"]

theorem hasType_single {type : String} (htype : type ∈ ["string", "integer", "number", "boolean"])
    {value : Json} (h : hasType (.str type) value = .ok true) : ¬ Compound value := by
  simp only [List.mem_cons, List.not_mem_nil, or_false] at htype
  rcases htype with rfl | rfl | rfl | rfl
  all_goals
    cases value with
    | arr | obj => exact absurd (Except.ok.inj h) Bool.false_ne_true
    | null | bool | int | float | str => exact fun hc => hc

/-- Parameters that the schema accepts give such a target one value. -/
theorem given_of_pinned {connector : Connector} {cap : Declared} {fields : List (String × Json)}
    {subject target : String}
    (hvalid : validateParameters tools cap.parameters (.obj fields) subject = .ok [])
    (h : Pinned cap.parameters target) : Given tools connector cap (.obj fields) target := by
  obtain ⟨names, hrequired, hname⟩ := h.required
  obtain ⟨properties, spec, type, hproperties, hspec, htype, hsingle⟩ := h.type
  unfold validateParameters at hvalid
  simp only [Json.getD, hproperties, hrequired, Option.getD_some, Json.elements] at hvalid
  obtain ⟨keys, hkeys, hvalid⟩ := Executor.bind_eq_ok hvalid
  cases hkeys
  obtain ⟨missing, hmissing, hvalid⟩ := Executor.bind_eq_ok hvalid
  obtain ⟨found, hfound, hvalid⟩ := Executor.bind_eq_ok hvalid
  obtain ⟨hrest, hnone⟩ := List.append_eq_nil_iff.mp (Except.ok.inj hvalid)
  have hthere : blank (fields.lookup target) = false := by
    obtain ⟨problems, hproblems, hkey⟩ := mem_of_mapM_ok hmissing hname
    rw [List.flatten_eq_nil_iff.mp (List.append_eq_nil_iff.mp hrest).2 problems hproblems] at hkey
    by_contra hblank
    rw [requiredKey, if_pos (by simpa using hblank)] at hkey
    cases hkey
  cases hlookup : fields.lookup target with
  | none =>
    rw [hlookup] at hthere
    cases hthere
  | some value =>
    rw [hlookup] at hthere
    have hcompound : ¬ Compound value := by
      obtain ⟨problems, hproblems, hvalue⟩ := mem_of_mapM_ok hfound (Json.mem_of_lookup hlookup)
      rw [List.flatten_eq_nil_iff.mp hnone problems hproblems] at hvalue
      rw [parameterProblems, hspec] at hvalue
      unfold valueProblems at hvalue
      dsimp only at hvalue
      split at hvalue
      · cases hvalue
      · simp only [Json.getD, htype, Option.getD_some] at hvalue
        obtain ⟨ofType, hofType, hvalue⟩ := Executor.bind_eq_ok hvalue
        cases ofType with
        | false => cases hvalue
        | true => exact hasType_single hsingle hofType
    refine ⟨value, hlookup, ⟨?_, ?_, ?_, ?_⟩, fun hc => absurd hc hcompound⟩
    · rintro rfl
      cases hthere
    · rintro rfl
      cases hthere
    · rintro rfl
      exact hcompound trivial
    · rintro rfl
      exact hcompound trivial

/-- **Where the schema pins every target down, every write that is let through is bounded.** -/
theorem write_targets_pinned {ms : List Declaration} {registry : Registry}
    (hbuild : Registry.build tools ms = .ok registry) {connector : Connector}
    (hconnector : connector.manifest ∈ ms) {capabilityId : String} {cap : Declared}
    (hcap : connector.manifest.capability capabilityId = some cap) (hwrite : cap.kind = .write)
    (hpinned : ∀ target ∈ cap.targetParameters, Pinned cap.parameters target)
    {call : WriteAsked} {reached : Reached}
    (hreached : invokeWrite tools connector cap call = .ok reached) :
    ∀ target ∈ cap.targetParameters, Bounded tools connector cap call.parameters target := by
  obtain ⟨known, hlint⟩ := Registry.build_lint hbuild hconnector (List.mem_of_find?_eq_some hcap)
  obtain ⟨hvalid, fields, hfields, hlists⟩ := refusals_nil (invokeWrite_admitted hreached)
  rw [hfields] at hvalid ⊢
  intro target htarget
  exact bounded_of_given hlists (lintCapability_bound hlint hwrite htarget)
    (given_of_pinned hvalid (hpinned target htarget))

end Sdk
end L1Agent
