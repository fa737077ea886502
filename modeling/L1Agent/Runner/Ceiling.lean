import L1Agent.Connectors.Manifest

/-! # What a runner will do at most (`runner/ceiling.py`)

The ceiling is set where the runner runs.  It is checked before a connector is built and before
any credential is read: the capability's id and tier, the runner's kill switch, the targets of a
write, and where the credentials are that the call would be made with.

The switch is a file that may come and go, so `refuse` is given what was found when it looked.

`permits_of_refuse` says what holds of a capability that is not refused: its id and tier are
permitted, its targets are on the runner's own lists, and its credentials are in places that the
ceiling allows.
-/
namespace L1Agent
namespace Runner

/-- A connection that the runner holds itself. -/
structure LocalConnection where
  config : Json
  secretRefs : List (String × String)
  deriving DecidableEq

/-- `Ceiling` -/
structure Ceiling where
  maxTier : RiskTier := .t0
  /-- Patterns of capability ids. -/
  capabilities : List String := ["*"]
  /-- For each connector, and for each of its allow list settings, patterns. -/
  targets : List (String × List (String × List String)) := []
  secretRefPrefixes : List String := []
  connections : List (String × LocalConnection) := []
  killSwitchFile : String := ""
  deriving DecidableEq

/-- `_TIER_RANK` -/
def tierRank : RiskTier → Nat
  | .t0 => 0
  | .t1 => 1
  | .t2 => 2

/-- `text.startswith(start)` -/
def startsWith (text start : String) : Bool := start.toList.isPrefixOf text.toList

/-- `part in text` -/
def contains (text part : String) : Bool := text.toList.tails.any part.toList.isPrefixOf

/-- What the language does with texts: how a value prints, and whether a name matches a pattern. -/
structure Texts where
  builtins : Builtins
  fnmatchcase : String → String → Bool

namespace Ceiling
variable (texts : Texts) (c : Ceiling)

/-- The reference points to a place that the runner reads credentials from. -/
def inside (reference : String) : Bool :=
  c.secretRefPrefixes.any (startsWith reference) && !contains reference ".."

/-- `_refuse_references` -/
def refuseReferences (connectorId : String) (secretRefs : List (String × String)) : Option String :=
  if (c.connections.lookup connectorId).isSome then none
  else (secretRefs.mergeSort fun a b => a.1 ≤ b.1).findSome? fun r =>
    if c.inside r.2 then none
    else some ("credential '" ++ r.1 ++ "' points outside the places this runner reads " ++
      "credentials from (RUNNER_SECRET_REF_PREFIXES)")

/-- `refuse_test` -/
def refuseTest (connectorId : String) (secretRefs : List (String × String)) : Option String :=
  c.refuseReferences connectorId secretRefs

/-- A value that names no target: nothing there, `None` or an empty text. -/
def blank (value : Option Json) : Bool :=
  value = none || value = some .null || value = some (.str "")

/-- What is wrong with the target that one parameter names. -/
def targetProblem (connectorId : String) (parameters : Json) (isWrite : Bool)
    (binding : AllowListBinding) : Option String :=
  let value := parameters.get? binding.parameter
  if blank value then none
  else match ((c.targets.lookup connectorId).getD []).lookup binding.configKey with
    | none =>
      if isWrite then
        some ("this runner has no list of its own for '" ++ binding.configKey ++ "', " ++
          "so it makes no write to any target")
      else none
    | some allowed =>
      if allowed.any (texts.fnmatchcase (texts.builtins.str (value.getD .null))) then none
      else some ("parameter '" ++ binding.parameter ++ "' is not on this runner's own list " ++
        "'" ++ binding.configKey ++ "'")

/-- `_target_problems` -/
def targetProblems (capability : Capability) (connectorId : String) (parameters : Json)
    (isWrite : Bool) : List String :=
  capability.allowLists.filterMap (c.targetProblem texts connectorId parameters isWrite)

/-- The tier that a capability counts as. -/
def tierOf (capability : Capability) : RiskTier := capability.tier.getD .t2

/-- The first part of `refuse`, up to the kill switch. -/
def refuseCapability (capability : Capability) : Option String :=
  if !c.capabilities.any (texts.fnmatchcase capability.id) then
    some ("'" ++ capability.id ++ "' is not a capability this runner carries out")
  else if tierRank c.maxTier < tierRank (tierOf capability) then
    some ("'" ++ capability.id ++ "' is " ++ (tierOf capability).value ++
      "; this runner goes no higher than " ++ c.maxTier.value)
  else none

/-- The last part of `refuse`, after the kill switch. -/
def refuseTargets (capability : Capability) (connectorId : String) (parameters : Json)
    (secretRefs : List (String × String)) : Option String :=
  let problems := c.targetProblems texts capability connectorId parameters
    (capability.kind = .write)
  if !problems.isEmpty then some ("; ".intercalate problems)
  else c.refuseReferences connectorId secretRefs

/-! ## What a call keeps to that is not refused -/

/-- **A target that is on the runner's own list**, if the parameter names one. -/
def Listed (connectorId : String) (parameters : Json) (binding : AllowListBinding) : Prop :=
  ∀ value, parameters.get? binding.parameter = some value → value ≠ .null → value ≠ .str "" →
    ∃ lists allowed pattern, c.targets.lookup connectorId = some lists ∧
      lists.lookup binding.configKey = some allowed ∧ pattern ∈ allowed ∧
      texts.fnmatchcase (texts.builtins.str value) pattern = true

/-- **What the ceiling permits** of a capability. -/
structure Permits (capability : Capability) (connectorId : String) (parameters : Json) : Prop where
  named : ∃ pattern ∈ c.capabilities, texts.fnmatchcase capability.id pattern = true
  tier : tierRank (tierOf capability) ≤ tierRank c.maxTier
  targets : capability.kind = .write →
    ∀ binding ∈ capability.allowLists, c.Listed texts connectorId parameters binding

/-- **A place that the runner reads credentials from**, or one that its own connection names. -/
def Within (connectorId reference : String) : Prop :=
  (∃ start ∈ c.secretRefPrefixes, startsWith reference start = true) ∨
    ∃ l, c.connections.lookup connectorId = some l ∧ ∃ slot, (slot, reference) ∈ l.secretRefs

variable {texts c}

theorem within_of_inside {connectorId reference : String} (h : c.inside reference = true) :
    c.Within connectorId reference := by
  unfold inside at h
  obtain ⟨hstart, -⟩ := Bool.and_eq_true_iff.mp h
  exact .inl (List.any_eq_true.mp hstart)

/-- References that are not refused are inside, where the connection is not the runner's own. -/
theorem inside_of_refuseReferences {connectorId : String} {secretRefs : List (String × String)}
    (hlocal : c.connections.lookup connectorId = none)
    (h : c.refuseReferences connectorId secretRefs = none) :
    ∀ r ∈ secretRefs, c.inside r.2 = true := by
  intro r hr
  unfold refuseReferences at h
  rw [hlocal] at h
  simp only [Option.isSome_none, Bool.false_eq_true, if_false, List.findSome?_eq_none_iff,
    List.mem_mergeSort] at h
  have hr' := h r hr
  by_cases hinside : c.inside r.2 = true
  · exact hinside
  · rw [if_neg hinside] at hr'
    cases hr'

theorem listed_of_targetProblem {connectorId : String} {parameters : Json}
    {binding : AllowListBinding}
    (h : c.targetProblem texts connectorId parameters true binding = none) :
    c.Listed texts connectorId parameters binding := by
  intro value hvalue hnull hempty
  unfold targetProblem at h
  rw [hvalue] at h
  dsimp only at h
  have hblank : ¬ blank (some value) = true := by simp [blank, hnull, hempty]
  rw [if_neg hblank] at h
  cases hlists : c.targets.lookup connectorId with
  | none =>
    rw [hlists] at h
    cases h
  | some lists =>
    rw [hlists] at h
    cases hallowed : lists.lookup binding.configKey with
    | none =>
      simp only [Option.getD_some, hallowed] at h
      cases h
    | some allowed =>
      simp only [Option.getD_some, hallowed] at h
      by_cases hmatch : allowed.any (texts.fnmatchcase (texts.builtins.str value)) = true
      · obtain ⟨pattern, hmem, hpattern⟩ := List.any_eq_true.mp hmatch
        exact ⟨lists, allowed, pattern, rfl, hallowed, hmem, hpattern⟩
      · rw [if_neg hmatch] at h
        cases h

/-- **What is not refused is permitted**, with references that are not refused. -/
theorem permits_of_refuse {capability : Capability} {connectorId : String} {parameters : Json}
    {secretRefs : List (String × String)} (h : c.refuseCapability texts capability = none)
    (h' : c.refuseTargets texts capability connectorId parameters secretRefs = none) :
    c.Permits texts capability connectorId parameters ∧
      c.refuseReferences connectorId secretRefs = none := by
  unfold refuseCapability at h
  split at h
  · cases h
  rename_i hnamed
  split at h
  · cases h
  rename_i htier
  unfold refuseTargets at h'
  dsimp only at h'
  split at h'
  · cases h'
  rename_i hproblems
  have hnone : c.targetProblems texts capability connectorId parameters
      (decide (capability.kind = .write)) = [] := by simpa using hproblems
  refine ⟨⟨?_, by omega, fun hwrite binding hmem => ?_⟩, h'⟩
  · rw [Bool.not_eq_true', Bool.not_eq_false] at hnamed
    exact List.any_eq_true.mp hnamed
  · refine listed_of_targetProblem ?_
    have hall := List.filterMap_eq_nil_iff.mp hnone binding hmem
    simpa [hwrite] using hall

end Ceiling
end Runner
end L1Agent
