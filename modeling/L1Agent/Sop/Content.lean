import L1Agent.Audit.Canonical
import Mathlib.Data.List.Basic

/-! # What is stored of an SOP (`models/sop.py`, `sop/store.py`)

The content of a version is a JSON object, and the SOP that the engine runs is what `from_dict`
reads of it; the classes check no types, so every field is a value of any kind.  `normalise` reads
a content and writes it again, without what the lifecycle owns.

`normalise` changes nothing that it has written, nor does reading it back as an SOP; so what has
been approved by its hash is what runs (`normalised_runs`).

Each class has its `fromDict` and `toDict`, field by field with the source's defaults.  What is read
is not checked here; what the validator asks of it is in `Sop/Validator.lean`, and what becomes of a
field that is not of its type in `Sop/Normalised.lean`.
-/
namespace L1Agent
namespace Raw

/-- `SOPStep`, of whatever a content says. -/
structure SOPStep where
  stepId : Json
  stepType : Json
  description : Json
  parameters : Json
  expectedOutput : Json
  onSuccess : Json
  onFailure : Json
  requiresApproval : Json
  timeoutSeconds : Json
  capability : Json
  verify : Json
  deriving DecidableEq

/-- `ParameterSpec` -/
structure ParameterSpec where
  name : Json
  type : Json
  source : Json
  pattern : Json
  enum : Json
  maxLength : Json
  description : Json
  deriving DecidableEq

/-- `EscalationCriteria` -/
structure EscalationCriteria where
  maxRetryCount : Json
  escalateOnAccessDenied : Json
  escalateOnAmbiguousResult : Json
  escalateOnWriteAction : Json
  customRules : Json
  deriving DecidableEq

/-- `SOP` -/
structure SOP where
  sopId : Json
  title : Json
  applicableServices : Json
  applicableCategories : Json
  applicableAssignmentGroups : Json
  keywords : Json
  steps : List SOPStep
  preChecks : Json
  toolsRequired : Json
  escalationCriteria : EscalationCriteria
  version : Json
  parameters : List ParameterSpec
  status : Json
  changeTemplate : Json
  contentHash : String := ""
  deriving DecidableEq

/-- A class that is read of a mapping; `"AttributeError"` of anything that is none. -/
def ofDict {α : Type} (read : (String → Option Json) → α) (data : Json) : Except String α :=
  if data.isObj then .ok (read data.get?) else .error "AttributeError"

/-- The items of a list that is iterated over. -/
def itemsOf {α : Type} (fromDict : Json → Except String α) (data : Json) : Except String (List α) :=
  match data.elements with
  | some items => items.mapM fromDict
  | none => .error "TypeError"

/-- A field that is written only when it is set. -/
def whenSet (key : String) (value : Json) : List (String × Json) :=
  if value.truthy then [(key, value)] else []

def SOPStep.toDict (s : SOPStep) : Json :=
  .obj ([("step_id", s.stepId), ("step_type", s.stepType), ("description", s.description),
    ("parameters", s.parameters), ("expected_output", s.expectedOutput),
    ("on_success", s.onSuccess), ("on_failure", s.onFailure),
    ("requires_approval", s.requiresApproval), ("timeout_seconds", s.timeoutSeconds)] ++
    whenSet "capability" s.capability ++ whenSet "verify" s.verify)

def SOPStep.read (get : String → Option Json) : SOPStep where
  capability := (get "capability").getD (.str "")
  verify := ((get "verify").getD .null).orElse (.obj [])
  stepId := (get "step_id").getD (.str "")
  stepType := (get "step_type").getD (.str "")
  description := (get "description").getD (.str "")
  parameters := (get "parameters").getD (.obj [])
  expectedOutput := (get "expected_output").getD (.str "")
  onSuccess := (get "on_success").getD (.str "")
  onFailure := (get "on_failure").getD (.str "")
  requiresApproval := (get "requires_approval").getD (.bool false)
  timeoutSeconds := (get "timeout_seconds").getD (.int 60)

def SOPStep.fromDict : Json → Except String SOPStep := ofDict SOPStep.read

def ParameterSpec.toDict (p : ParameterSpec) : Json :=
  .obj [("name", p.name), ("type", p.type), ("source", p.source), ("pattern", p.pattern),
    ("enum", p.enum), ("max_length", p.maxLength), ("description", p.description)]

def ParameterSpec.read (get : String → Option Json) : ParameterSpec where
  name := (get "name").getD (.str "")
  type := (get "type").getD (.str "string")
  source := (get "source").getD (.obj [])
  pattern := (get "pattern").getD (.str "")
  enum := (get "enum").getD (.arr [])
  maxLength := (get "max_length").getD (.int 128)
  description := (get "description").getD (.str "")

def ParameterSpec.fromDict : Json → Except String ParameterSpec := ofDict ParameterSpec.read

/-- The criteria, as `SOP.to_dict` writes them. -/
def EscalationCriteria.toDict (c : EscalationCriteria) : Json :=
  .obj [("max_retry_count", c.maxRetryCount),
    ("escalate_on_access_denied", c.escalateOnAccessDenied),
    ("escalate_on_ambiguous_result", c.escalateOnAmbiguousResult),
    ("escalate_on_write_action", c.escalateOnWriteAction), ("custom_rules", c.customRules)]

def EscalationCriteria.read (get : String → Option Json) : EscalationCriteria where
  maxRetryCount := (get "max_retry_count").getD (.int 2)
  escalateOnAccessDenied := (get "escalate_on_access_denied").getD (.bool true)
  escalateOnAmbiguousResult := (get "escalate_on_ambiguous_result").getD (.bool true)
  escalateOnWriteAction := (get "escalate_on_write_action").getD (.bool true)
  customRules := (get "custom_rules").getD (.arr [])

def EscalationCriteria.fromDict : Json → Except String EscalationCriteria :=
  ofDict EscalationCriteria.read

def SOP.toDict (s : SOP) : Json :=
  .obj ([("sop_id", s.sopId), ("title", s.title), ("status", s.status),
    ("applicable_services", s.applicableServices),
    ("applicable_categories", s.applicableCategories),
    ("applicable_assignment_groups", s.applicableAssignmentGroups), ("keywords", s.keywords),
    ("parameters", .arr (s.parameters.map ParameterSpec.toDict)),
    ("steps", .arr (s.steps.map SOPStep.toDict)), ("pre_checks", s.preChecks),
    ("tools_required", s.toolsRequired), ("escalation_criteria", s.escalationCriteria.toDict),
    ("version", s.version)] ++ whenSet "change_template" s.changeTemplate)

/-- What `SOP.from_dict` reads of a mapping. -/
def SOP.read (get : String → Option Json) : Except String SOP := do
  let steps ← itemsOf SOPStep.fromDict ((get "steps").getD (.arr []))
  let escalationCriteria ←
    EscalationCriteria.fromDict ((get "escalation_criteria").getD (.obj []))
  let parameters ← itemsOf ParameterSpec.fromDict ((get "parameters").getD (.arr []))
  return {
    sopId := (get "sop_id").getD (.str "")
    title := (get "title").getD (.str "")
    applicableServices := (get "applicable_services").getD (.arr [])
    applicableCategories := (get "applicable_categories").getD (.arr [])
    applicableAssignmentGroups := (get "applicable_assignment_groups").getD (.arr [])
    keywords := (get "keywords").getD (.arr [])
    steps
    preChecks := (get "pre_checks").getD (.arr [])
    toolsRequired := (get "tools_required").getD (.arr [])
    escalationCriteria
    version := (get "version").getD (.str "1.0")
    parameters
    status := (get "status").getD (.str "published")
    changeTemplate := ((get "change_template").getD (.str "")).orElse (.str "") }

def SOP.fromDict (data : Json) : Except String SOP :=
  if data.isObj then SOP.read data.get? else .error "AttributeError"

/-! ## The store -/

def isAlphanumeric (c : Char) : Bool :=
  ('A' ≤ c && c ≤ 'Z') || ('a' ≤ c && c ≤ 'z') || ('0' ≤ c && c ≤ '9')

/-- `_KEY_RE.match(text)`; a newline may come after the key. -/
def isKey (text : String) : Bool :=
  let cs := if text.toList.getLast? = some '\n' then text.toList.dropLast else text.toList
  match cs with
  | [] => false
  | c :: cs => isAlphanumeric c && cs.length ≤ 99 &&
      cs.all fun c => isAlphanumeric c || c = '_' || c = '.' || c = '-'

/-- The mapping without a key. -/
def pop (key : String) (fields : List (String × Json)) : List (String × Json) :=
  fields.filter (·.1 ≠ key)

/-- The fields of a mapping. -/
def fieldsOf : Json → List (String × Json)
  | .obj fields => fields
  | _ => []

/-- `normalise`; an error is the text of the SopError. -/
def normalise (builtins : Builtins) (content : Json) : Except String Json :=
  if !content.isObj then .error "An SOP is a JSON object"
  else match SOP.fromDict content with
    | .error name => .error ("The SOP could not be read: " ++ name)
    | .ok sop =>
      let data := .obj (pop "version" (pop "status" (fieldsOf sop.toDict)))
      if !isKey (builtins.str (data.getD "sop_id" (.str ""))) then
        .error "sop_id is required: letters, digits, '.', '_' and '-', at most 100"
      else .ok data

/-- `content_hash` -/
def contentHash (tools : Audit.Tools) (content : Json) : String := Audit.digest tools content

/-- `as_sop`, of a content that is a mapping. -/
def asSop (builtins : Builtins) (content version : Json) (digest : String) : Except String SOP :=
  (SOP.fromDict (.obj (Json.setField (Json.setField (fieldsOf content) "status" (.str "published"))
    "version" (.str (builtins.str (version.orElse (.str ""))))))).map fun sop =>
      { sop with contentHash := digest }

end Raw
end L1Agent
