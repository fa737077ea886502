import L1Agent.Connectors.Manifest
import L1Agent.Engine.Binding
import L1Agent.Engine.Expressions

/-! # The lint and the registry (`connectors/sdk/manifest.py`, `connectors/sdk/registry.py`)

What a manifest declares is checked before any connector code runs, and a registry whose manifests
have a problem is not built.  Of a write the lint asks that each target parameter is declared and
bound to an allow list; it does not ask that the schema requires it.

The problems have the source's texts and order.  What later proofs use of a registry that was built
is that no manifest in it has a problem (`Registry.build_lint`).
-/
namespace L1Agent
namespace Sdk
open Raw.Binding

/-- What the language and its libraries compute. -/
structure Tools where
  lang : Language
  reader : Reader Rat
  fnmatchcase : String → String → Bool

/-! ## Manifests -/

/-- A capability as its manifest declares it. -/
structure Declared extends Capability where
  summary : String
  /-- JSON Schema, an object with additionalProperties false. -/
  parameters : Json
  scopes : List String := []
  /-- `verify.wait_seconds` -/
  waitSeconds : Rat := 0
  timeoutSeconds : Int := 60
  declares : toCapability.properties = (parameters.getD "properties" (.obj [])).keys

/-- A manifest with everything that is checked of it. -/
structure Declaration where
  id : String
  version : String
  family : Family
  displayName : String
  /-- JSON Schema of non-secret settings. -/
  config : Json := .obj []
  /-- The names of the secret slots. -/
  secrets : List String := []
  capabilities : List Declared := []

/-- `Manifest.capability` -/
def Declaration.capability (m : Declaration) (capabilityId : String) : Option Declared :=
  m.capabilities.find? (·.id == capabilityId)

/-! ## The lint -/

/-- `[a-z][a-z0-9_]*` -/
def isLowerName : List Char → Bool
  | [] => false
  | c :: rest => ('a' ≤ c && c ≤ 'z') &&
      rest.all fun c => ('a' ≤ c && c ≤ 'z') || ('0' ≤ c && c ≤ '9') || c == '_'

/-- The pattern's `$` also matches before a line feed at the end. -/
def beforeEnd (text : String) : List Char :=
  if text.toList.getLast? = some '\n' then text.toList.dropLast else text.toList

/-- `text.startswith(start)` -/
def startsWith (text start : String) : Bool := start.toList.isPrefixOf text.toList

/-- `_CONNECTOR_ID_RE.match` -/
def isConnectorId (text : String) : Bool := isLowerName (beforeEnd text)

/-- `_ID_RE.match` -/
def isCapabilityId (text : String) : Bool :=
  let parts := (beforeEnd text).splitOn '.'
  2 ≤ parts.length && parts.all isLowerName

/-- `_closed_object` -/
def closedObject (schema : Json) : Bool :=
  schema.get? "type" = some (.str "object") &&
    schema.get? "additionalProperties" = some (.bool false) &&
    (schema.get? "properties").any Json.isObj

/-- The first segment of every path. -/
def roots {F : Type} : Expr F → List String
  | .path root _ => [root]
  | .or a b | .and a b | .cmp _ a b => roots a ++ roots b
  | .not a => roots a
  | .scalar _ | .list _ => []

section Lint
variable (tools : Tools)

/-- `root_names` -/
def rootNames (text : String) : Except Exn (List String) :=
  (Expressions.parse tools.reader (.str text)).map roots

/-- `_assertion_problems`; an exception other than an ExpressionError ends the lint. -/
def assertionProblems (label text : String) : Except Exn (List String) :=
  if text = "" then .ok [label ++ " needs an assertion"]
  else match rootNames tools text with
    | .ok names => .ok ((names.filter fun n => n ∉ ["result", "params"]).map fun n =>
        label ++ " assertion uses unknown name '" ++ n ++ "'")
    | .error (.expression message) => .ok [label ++ " assertion does not parse: " ++ message]
    | .error e => .error e

/-- `not in`, for the names of a schema's `properties`. -/
def notDeclared (properties : List String) (name : Json) : Except Exn Bool :=
  (inNames properties name).map (!·)

/-- The required parameters that the schema does not declare. -/
def requiredProblems (label : String) (schema : Json) (properties : List String) :
    Except Exn (List String) :=
  let required := schema.getD "required" (.arr [])
  match required.elements with
  | none => .error (typeError s!"'{required.typeName}' object is not iterable")
  | some names => do
    let missing ← names.filterM (notDeclared properties)
    return missing.map fun name =>
      label ++ ": required parameter '" ++ tools.lang.builtins.str name ++ "' is not declared"

/-- What is wrong with an allow list binding. -/
def bindingProblems (label : String) (properties : List String) (binding : AllowListBinding) :
    List String :=
  (if binding.parameter ∉ properties then
    [label ++ ": allow list binding names unknown parameter '" ++ binding.parameter ++ "'"]
    else []) ++
  (if binding.matching ∉ ["exact", "pattern", "custom"] then
    [label ++ ": allow list match must be one of ['exact', 'pattern', 'custom']"] else [])

/-- What is wrong with the schema of the parameters, and with what refers to it. -/
def schemaProblems (label : String) (cap : Declared) : Except Exn (List String) :=
  if !closedObject cap.parameters then
    .ok [label ++ ": parameters must be a JSON Schema object with additionalProperties false"]
  else do
    let required ← requiredProblems tools label cap.parameters cap.properties
    return required ++ cap.allowLists.flatMap (bindingProblems label cap.properties) ++
      (cap.targetParameters.filter (· ∉ cap.properties)).map fun name =>
        label ++ ": target parameter '" ++ name ++ "' is not declared"

/-- What is wrong with the verify operation of a write. -/
def verifyProblems (known : Option (List String)) (label : String) (cap : Declared) :
    Except Exn (List String) :=
  match cap.verify with
  | none => .ok [label ++ ": a write capability needs a verify operation and assertion"]
  | some verify =>
    if verify.capability = "" ∨ verify.assertion = "" then
      .ok [label ++ ": a write capability needs a verify operation and assertion"]
    else do
      let texts := [verify.assertion, verify.failed].filter (· ≠ "")
      let assertions ← texts.mapM (assertionProblems tools (label ++ ": verify"))
      return (if known.any (verify.capability ∉ ·) then
          [label ++ ": verify names unknown capability '" ++ verify.capability ++ "'"] else []) ++
        assertions.flatten ++
        if 0 ≤ verify.retries ∧ verify.retries ≤ 60 ∧ 0 ≤ cap.waitSeconds ∧ cap.waitSeconds ≤ 300
        then [] else [label ++ ": verify waits at most 60 times, 300 seconds apart"]

/-- What is wrong with a pre-check. -/
def preCheckProblems (known : Option (List String)) (label : String) (check : PreCheck) :
    Except Exn (List String) :=
  (assertionProblems tools (label ++ ": pre-check") check.assertion).map fun problems =>
    (if known.any (check.capability ∉ ·) then
      [label ++ ": pre-check names unknown capability '" ++ check.capability ++ "'"] else []) ++
    problems

/-- The target parameters that no allow list is bound to. -/
def unboundTargets (label : String) (cap : Declared) : List String :=
  (cap.targetParameters.filter (· ∉ cap.allowLists.map (·.parameter))).map fun name =>
    label ++ ": target parameter '" ++ name ++ "' has no allow list binding"

/-- What a write must declare. -/
def writeProblems (known : Option (List String)) (label : String) (cap : Declared) :
    Except Exn (List String) := do
  let verify ← verifyProblems tools known label cap
  let checks ← cap.preChecks.mapM (preCheckProblems tools known label)
  return (match cap.tier with
      | none => [label ++ ": a write capability needs a risk tier"]
      | some tier => if tier ∈ [.t1, .t2] then [] else
        [label ++ ": a write capability is tier T1 or T2"]) ++
    (if cap.scopes = [] then [label ++ ": a write capability must list the scopes it needs"]
      else []) ++
    verify ++
    (if cap.rollback = "" then
        [label ++ ": declare a rollback capability or 'none: <reason>'"]
      else if !startsWith cap.rollback "none:" ∧ known.any (cap.rollback ∉ ·) then
        [label ++ ": rollback names unknown capability '" ++ cap.rollback ++ "'"] else []) ++
    (if cap.targetParameters = [] then
      [label ++ ": a write capability must name its target parameters"] else []) ++
    unboundTargets label cap ++ checks.flatten

/-- `lint_capability` -/
def lintCapability (known : Option (List String)) (cap : Declared) : Except Exn (List String) := do
  let label := "capability '" ++ cap.id ++ "'"
  let schema ← schemaProblems tools label cap
  let problems := (if isCapabilityId cap.id then [] else
      [label ++ ": id must look like 'connector.thing.verb'"]) ++
    (if cap.summary = "" then [label ++ ": a summary is required"] else []) ++ schema ++
    (if cap.timeoutSeconds ≤ 0 then [label ++ ": timeout must be positive"] else [])
  match cap.kind with
  | .read => return problems ++
      if cap.tier = some .t0 then [] else [label ++ ": a read capability is tier T0"]
  | .write => return problems ++ (← writeProblems tools known label cap)

/-- The settings that the manifest declares. -/
def configKeys (config : Json) : Except Exn (List Json) :=
  let properties := config.getD "properties" (.obj [])
  match properties.elements with
  -- A set is made of them, and a list or an object has no hash.
  | some keys => keys.mapM fun key => (inNames [] key).map fun _ => key
  | none => .error (typeError s!"'{properties.typeName}' object is not iterable")

/-- What is wrong with a capability of the manifest. -/
def memberProblems (m : Declaration) (known : Option (List String)) (keys : List Json)
    (cap : Declared) : Except Exn (List String) := do
  let problems ← lintCapability tools known cap
  return (if startsWith cap.id (m.id ++ ".") then [] else
      ["capability '" ++ cap.id ++ "': id must start with '" ++ m.id ++ ".'"]) ++
    (cap.allowLists.filter fun binding => Json.str binding.configKey ∉ keys).map (fun binding =>
      "capability '" ++ cap.id ++ "': allow list '" ++ binding.configKey ++
        "' is not a connection setting") ++ problems

/-- `lint` -/
def lint (m : Declaration) (known : Option (List String)) : Except Exn (List String) := do
  let label := "connector '" ++ m.id ++ "'"
  let keys ← configKeys m.config
  let members ← m.capabilities.mapM (memberProblems tools m known keys)
  return (if isConnectorId m.id then [] else [label ++ ": id must be a lower-case identifier"]) ++
    (if m.version = "" ∨ m.displayName = "" then
      [label ++ ": version and display name are required"] else []) ++
    (if m.config.truthy ∧ !closedObject m.config then
      [label ++ ": config must be a JSON Schema object with additionalProperties false"] else []) ++
    (duplicatesOf (m.capabilities.map (·.id))).map (fun duplicate =>
      label ++ ": capability '" ++ duplicate ++ "' is declared twice") ++
    (duplicatesOf m.secrets).map (fun duplicate =>
      label ++ ": secret slot '" ++ duplicate ++ "' is declared twice") ++ members.flatten

/-! ## The registry -/

/-- `Registry`: the manifests by their ids, and the capabilities with their owners. -/
structure Registry where
  classes : List (String × Declaration) := []
  capabilities : List (String × String × Declared) := []

/-- What keeps a registry from being built. -/
inductive BuildExn where
  /-- `ManifestError` -/
  | manifestError (problems : List String)
  | other (e : Exn)

/-- A capability is entered under its id; the one that comes later stands. -/
def enterCapability (owner : String) (entered : List String × Registry) (cap : Declared) :
    List String × Registry :=
  ((if (entered.2.capabilities.lookup cap.id).isSome then
    entered.1 ++ ["capability '" ++ cap.id ++ "' is declared by two connectors"] else entered.1),
    { entered.2 with capabilities := (cap.id, owner, cap) :: entered.2.capabilities })

/-- A connector class is entered with its capabilities. -/
def enterClass (entered : List String × Registry) (m : Declaration) : List String × Registry :=
  if (entered.2.classes.lookup m.id).isSome then
    (entered.1 ++ ["connector '" ++ m.id ++ "' is registered twice"], entered.2)
  else m.capabilities.foldl (enterCapability m.id)
    (entered.1, { entered.2 with classes := entered.2.classes ++ [(m.id, m)] })

/-- `Registry.__init__` -/
def Registry.build (ms : List Declaration) : Except BuildExn Registry :=
  let entered := ms.foldl enterClass ([], {})
  let known := entered.2.capabilities.map (·.1)
  match ms.mapM fun m => lint tools m (some known) with
  | .error e => .error (.other e)
  | .ok found =>
    if entered.1 ++ found.flatten = [] then .ok entered.2
    else .error (.manifestError (entered.1 ++ found.flatten))

end Lint

/-! ## What the lint settles -/

variable {tools : Tools}

theorem mem_of_mapM_ok {α β : Type} {f : α → Except Exn β} {as : List α} {bs : List β}
    (h : as.mapM f = .ok bs) {a : α} (ha : a ∈ as) : ∃ b ∈ bs, f a = .ok b := by
  induction as generalizing bs with
  | nil => cases ha
  | cons first rest ih =>
    rw [List.mapM_cons] at h
    obtain ⟨b, hb, h⟩ := Executor.bind_eq_ok h
    obtain ⟨others, hothers, h⟩ := Executor.bind_eq_ok h
    cases h
    rcases List.mem_cons.mp ha with rfl | ha
    · exact ⟨b, List.mem_cons_self, hb⟩
    · obtain ⟨b', hb', hf⟩ := ih hothers ha
      exact ⟨b', List.mem_cons_of_mem _ hb', hf⟩

/-- Each capability of a registry that is built has passed the lint. -/
theorem Registry.build_lint {ms : List Declaration} {registry : Registry}
    (h : Registry.build tools ms = .ok registry) {m : Declaration} (hm : m ∈ ms) {cap : Declared}
    (hcap : cap ∈ m.capabilities) : ∃ known, lintCapability tools known cap = .ok [] := by
  unfold Registry.build at h
  dsimp only at h
  split at h
  · cases h
  · rename_i found hfound
    by_cases hnil : (ms.foldl enterClass ([], {})).1 ++ found.flatten = []
    · obtain ⟨problems, hproblems, hlint⟩ := mem_of_mapM_ok hfound hm
      have hnone : problems = [] :=
        List.flatten_eq_nil_iff.mp (List.append_eq_nil_iff.mp hnil).2 problems hproblems
      rw [hnone] at hlint
      obtain ⟨keys, -, hlint⟩ := Executor.bind_eq_ok hlint
      obtain ⟨members, hmembers, hlint⟩ := Executor.bind_eq_ok hlint
      have hall : members.flatten = [] := by
        have heq := Except.ok.inj hlint
        exact (List.append_eq_nil_iff.mp heq).2
      obtain ⟨own, hown, hmember⟩ := mem_of_mapM_ok hmembers hcap
      rw [List.flatten_eq_nil_iff.mp hall own hown] at hmember
      obtain ⟨problems', hproblems', hmember⟩ := Executor.bind_eq_ok hmember
      have hempty : problems' = [] := by
        have heq := Except.ok.inj hmember
        exact (List.append_eq_nil_iff.mp heq).2
      exact ⟨_, hempty ▸ hproblems'⟩
    · rw [if_neg hnil] at h
      cases h

/-- Each target parameter of a write that has passed is bound to an allow list. -/
theorem lintCapability_bound {known : Option (List String)} {cap : Declared}
    (h : lintCapability tools known cap = .ok []) (hwrite : cap.kind = .write) {target : String}
    (htarget : target ∈ cap.targetParameters) :
    ∃ binding ∈ cap.allowLists, binding.parameter = target := by
  unfold lintCapability at h
  obtain ⟨schema, -, h⟩ := Executor.bind_eq_ok h
  rw [hwrite] at h
  dsimp only at h
  obtain ⟨problems, hproblems, h⟩ := Executor.bind_eq_ok h
  have hnone : problems = [] := (List.append_eq_nil_iff.mp (Except.ok.inj h)).2
  rw [hnone] at hproblems
  obtain ⟨verify, -, hproblems⟩ := Executor.bind_eq_ok hproblems
  obtain ⟨checks, -, hproblems⟩ := Executor.bind_eq_ok hproblems
  have hunbound : unboundTargets ("capability '" ++ cap.id ++ "'") cap = [] :=
    (List.append_eq_nil_iff.mp (List.append_eq_nil_iff.mp (Except.ok.inj hproblems)).1).2
  rw [unboundTargets, List.map_eq_nil_iff, List.filter_eq_nil_iff] at hunbound
  have hbound : target ∈ cap.allowLists.map (·.parameter) := by
    by_contra hnot
    exact hunbound target htarget (decide_eq_true hnot)
  obtain ⟨binding, hbinding, heq⟩ := List.mem_map.mp hbound
  exact ⟨binding, hbinding, heq⟩

end Sdk
end L1Agent
