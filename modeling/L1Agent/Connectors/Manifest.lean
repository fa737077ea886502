import L1Agent.Library.Json

/-! # Capabilities (`connectors/sdk/manifest.py`)

What a manifest says about a capability, as far as the validator and the action
pipeline read it: its kind and risk tier, the parameters it declares, and for a
write the reads that go before it, the read that verifies it and the write that
undoes it; and as far as a runner reads it, the parameters that are held to an allow list.

The enumerations are types of their own, with the source's texts as their values; a capability's
other fields, which only a page shows, are left out.
-/
namespace L1Agent

/-- `Kind`. -/
inductive Kind where
  | read | write
  deriving DecidableEq, Repr

/-- `RiskTier`: T0 reads only, T1 is a reversible write, T2 always needs an
approval. -/
inductive RiskTier where
  | t0 | t1 | t2
  deriving DecidableEq, Repr

/-- `RiskTier.value`. -/
def RiskTier.value : RiskTier → String
  | t0 => "T0"
  | t1 => "T1"
  | t2 => "T2"

/-- `AllowListBinding`: a parameter that names a target, and the connection setting that lists what
is allowed; `matching` is `exact`, `pattern` or `custom`. -/
structure AllowListBinding where
  parameter : String
  configKey : String
  matching : String := "custom"
  deriving DecidableEq, Repr

/-- A read made before a write, and what must be true of its result for the write
to go on. -/
structure PreCheck where
  capability : String
  assertion : String
  parameters : List (String × Json) := []
  deriving DecidableEq

/-- The read that shows a write worked.  `assertion` true means verified,
`failed` true that there is no point in waiting longer; otherwise the read is
repeated up to `retries` more times. -/
structure Verify where
  capability : String
  assertion : String
  parameters : List (String × Json) := []
  failed : String := ""
  retries : Int := 0
  deriving DecidableEq

/-- `Capability`. -/
structure Capability where
  id : String
  kind : Kind
  tier : Option RiskTier
  /-- The names that the schema of its parameters declares. -/
  properties : List String := []
  allowLists : List AllowListBinding := []
  /-- Parameters that identify what is acted on. -/
  targetParameters : List String := []
  supportsDryRun : Bool := false
  preChecks : List PreCheck := []
  verify : Option Verify := none
  /-- A capability id, or `none: <reason>`. -/
  rollback : String := ""
  deriving DecidableEq

/-- `Family`. -/
inductive Family where
  | itsm | knowledge | operations
  deriving DecidableEq, Repr

/-- `Manifest`. -/
structure Manifest where
  id : String
  family : Family
  capabilities : List Capability := []
  deriving DecidableEq

/-- `Manifest.capability`. -/
def Manifest.capability (m : Manifest) (capabilityId : String) : Option Capability :=
  m.capabilities.find? (·.id == capabilityId)

end L1Agent
