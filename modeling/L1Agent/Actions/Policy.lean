import L1Agent.Connectors.Manifest

/-! # The policy decision for a write (`actions/policy.py`)

`evaluate` is a pure function: the checks run in a fixed order and the first refusal
wins.  An instant is a number of microseconds since the start of 1970, UTC.  How an
instant prints and how a pattern matches a name are the language's own
(`isoformat`, `fnmatchcase`).

`Situation` is what the decision is made by besides the request: the rules of the tenant, the
switches and refusals, the levels, and the executions begun lately.  `refusal` is the list of checks
in their order, and `grade` the verdict on an action that none of them refuses.
-/
namespace L1Agent

/-- `timedelta(minutes=m)` -/
def minutes (m : Nat) : Nat := m * 60000000

/-- `Autonomy` -/
inductive Autonomy where
  | shadow | recommend | approval | automatic
  deriving DecidableEq, Repr

/-- `Autonomy.value` -/
def Autonomy.value : Autonomy → String
  | shadow => "shadow"
  | recommend => "recommend"
  | approval => "approval"
  | automatic => "automatic"

/-- `Autonomy.rank` -/
def Autonomy.rank : Autonomy → Nat
  | shadow => 0
  | recommend => 1
  | approval => 2
  | automatic => 3

/-- `min(a, b, key=lambda a: a.rank)` -/
def Autonomy.lower (a b : Autonomy) : Autonomy := if b.rank < a.rank then b else a

/-- `Verdict` -/
inductive Verdict where
  | deny | shadow | recommend | requireApproval | allow
  deriving DecidableEq, Repr

/-- `Verdict.value` -/
def Verdict.value : Verdict → String
  | deny => "deny"
  | shadow => "shadow"
  | recommend => "recommend"
  | requireApproval => "require_approval"
  | allow => "allow"

/-- `KILL_SWITCH`, the reason code of a denial by a switch. -/
def killSwitchCode : String := "kill_switch"

def channelUi : String := "ui"
def channelServicenow : String := "servicenow"

/-! ## The rules of a tenant -/

/-- `TargetRule` -/
structure TargetRule where
  capability : String
  targets : List String
  sopId : String := ""
  deriving DecidableEq

/-- `Freeze`: a window may begin or end before 1970. -/
structure Freeze where
  start : Int
  stop : Int
  reason : String := ""
  deriving DecidableEq

/-- `Hours`: minutes after midnight. -/
structure Hours where
  days : List Nat
  start : Nat
  stop : Nat
  deriving DecidableEq

/-- `Rules` -/
structure Rules where
  /-- The level of an SOP and the digest it is for, as the document holds it. -/
  sopAutonomy : List (String × Autonomy × Json) := []
  raiseTier : List TargetRule := []
  automatic : List TargetRule := []
  freeze : List Freeze := []
  hours : Option Hours := none
  /-- 0: no limit -/
  rateMax : Nat := 0
  rateMinutes : Nat := 60
  approvalTtlMinutes : Nat := 60
  executeWithinMinutes : Nat := 15
  channels : List String := [channelUi]
  servicenowGroup : String := ""
  deriving DecidableEq

/-- What a name is compared with, and how an instant prints. -/
structure PolicyText where
  fnmatchcase : String → String → Bool
  isoformat : Int → String

/-- `matches`: every target is covered by a pattern. -/
def TargetRule.covers (r : TargetRule) (text : PolicyText) (capabilityId : String)
    (targets : List String) (sopId : String) : Bool :=
  !(r.capability != capabilityId || (r.sopId != "" && r.sopId != sopId)) &&
    !targets.isEmpty && targets.all fun t => r.targets.any (text.fnmatchcase t)

/-- `touches`: any target is covered.  Used to raise a tier. -/
def TargetRule.touches (r : TargetRule) (text : PolicyText) (capabilityId : String)
    (targets : List String) : Bool :=
  r.capability == capabilityId && targets.any fun t => r.targets.any (text.fnmatchcase t)

/-- `now.weekday()`: 1 January 1970 was a Thursday, and Monday is 0. -/
def weekday (now : Nat) : Nat := (now / minutes 1440 + 3) % 7

/-- `now.hour * 60 + now.minute` -/
def minuteOfDay (now : Nat) : Nat := now / minutes 1 % 1440

/-- `permits` -/
def Hours.permits (h : Hours) (now : Nat) : Bool :=
  if weekday now ∉ h.days then false
  else if h.start ≤ h.stop then h.start ≤ minuteOfDay now && minuteOfDay now < h.stop
  -- A window that crosses midnight.
  else h.start ≤ minuteOfDay now || minuteOfDay now < h.stop

/-- `sop_level`: the level set for this exact SOP version. -/
def Rules.sopLevel (rules : Rules) (sopId contentHash : String) : Autonomy :=
  match rules.sopAutonomy.lookup sopId with
  | some (level, forHash) =>
    if forHash.truthy && forHash == .str contentHash then level else .shadow
  | none => .shadow

/-! ## The decision -/

/-- `ActionRequest` -/
structure ActionRequest where
  sopId : String
  sopHash : String
  capabilityId : String
  isDeclaredWrite : Bool
  baseTier : Option RiskTier
  /-- The values of the capability's target parameters. -/
  targets : List String
  now : Nat

/-- `Situation` -/
structure Situation where
  killSwitches : List String
  tenantAutonomy : Autonomy
  rules : Rules
  maxTier : RiskTier
  maxAutonomy : Autonomy
  recentActions : Nat
  refusals : List String

/-- `Ruling` -/
structure Ruling where
  verdict : Verdict
  reasonCode : String
  rule : String
  tier : Option RiskTier
  autonomy : Autonomy := .shadow

/-- `effective_tier` -/
def effectiveTier (text : PolicyText) (request : ActionRequest) (rules : Rules) :
    Option RiskTier :=
  match request.baseTier with
  | none => none
  | some tier =>
    if rules.raiseTier.any fun r => r.touches text request.capabilityId request.targets then
      some .t2
    else some tier

/-- The first refusal, as a reason code and the rule in words. -/
def refusal (text : PolicyText) (request : ActionRequest) (s : Situation)
    (tier : Option RiskTier) : Option (String × String) :=
  if !s.killSwitches.isEmpty then
    some (killSwitchCode, "kill switch is on: " ++ ", ".intercalate s.killSwitches)
  else if request.isDeclaredWrite = false ∨ (tier ≠ some .t1 ∧ tier ≠ some .t2) then
    -- T3: anything that is not a declared write capability is never done.
    some ("not_a_declared_write", s!"'{request.capabilityId}' is not a declared write capability")
  else if tier = some .t2 ∧ s.maxTier ≠ .t2 then
    some ("above_deployment_ceiling", "tier T2 is above this deployment's ceiling")
  else if s.maxTier = .t0 then
    some ("above_deployment_ceiling", "this deployment makes no writes")
  else match s.rules.freeze.find? fun w =>
      w.start ≤ (request.now : Int) && (request.now : Int) < w.stop with
  | some window => some ("change_freeze", s!"change freeze until {text.isoformat window.stop}")
  | none =>
    if s.rules.hours.any fun h => !h.permits request.now then
      some ("outside_permitted_hours", "outside the hours in which writes are permitted")
    else if !s.refusals.isEmpty then
      some ("not_on_allow_list", String.ofList (("; ".intercalate s.refusals).toList.take 300))
    else if s.rules.rateMax ≠ 0 ∧ s.rules.rateMax ≤ s.recentActions then
      some ("rate_limit",
        s!"{s.rules.rateMax} actions in {s.rules.rateMinutes} minutes already made")
    else none

/-- The verdict of the effective autonomy, once nothing refuses the action. -/
def grade (text : PolicyText) (request : ActionRequest) (s : Situation)
    (tier : Option RiskTier) : Ruling :=
  let level := (s.tenantAutonomy.lower (s.rules.sopLevel request.sopId request.sopHash)).lower
    s.maxAutonomy
  match level with
  | .shadow => ⟨.shadow, "autonomy", "effective autonomy is shadow", tier, level⟩
  | .recommend => ⟨.recommend, "autonomy", "effective autonomy is recommend", tier, level⟩
  | .approval => ⟨.requireApproval, "autonomy", "effective autonomy is approval", tier, level⟩
  | .automatic =>
    if tier ≠ some .t1 then
      ⟨.requireApproval, "tier_needs_approval",
        "tier " ++ tier.elim "" RiskTier.value ++ " always needs an approval", tier, level⟩
    else if s.rules.automatic.any fun r =>
        r.covers text request.capabilityId request.targets request.sopId then
      ⟨.allow, "on_automatic_list", "on the tenant's automatic list", tier, level⟩
    else
      ⟨.requireApproval, "not_on_automatic_list", "not on the tenant's automatic list", tier,
        level⟩

/-- `evaluate` -/
def evaluate (text : PolicyText) (request : ActionRequest) (s : Situation) : Ruling :=
  let tier := effectiveTier text request s.rules
  match refusal text request s tier with
  | some (code, rule) => ⟨.deny, code, rule, tier, .shadow⟩
  | none => grade text request s tier

end L1Agent
