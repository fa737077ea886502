import L1Agent.Connectors.Manifest
import L1Agent.Engine.Journal
import L1Agent.Library.JsonOrder

/-! # Grants (`connectors/sdk/grant.py`, `actions/grants.py`)

A grant names one call: run, step, capability and a digest of the exact parameters.
`GrantCheck.redeem` accepts it for exactly this call, once.  The signature is
modelled by what it achieves: a grant passes the check of its signature when the
authority has issued it.

`Grant.refusal_none` says what is accepted: a grant that was issued, for exactly the call that it is
presented for, and not used before.
-/

namespace L1Agent

/-- `WriteNotAuthorized` -/
def writeNotAuthorized (message : String) : Exn := .other "WriteNotAuthorized" message

/-- `call_digest`, where `sha` is the SHA-256 of a value's canonical text. -/
def callDigest (sha : Json → String) (capabilityId : String) (parameters : Json) : String :=
  sha (Json.canonical (.obj [("capability", .str capabilityId), ("parameters", parameters)]))

/-- `Grant` -/
structure Grant where
  decisionId : String
  tenantId : String
  runId : String
  stepId : String
  capabilityId : String
  callDigest : String
  expiresAt : Nat
  nonce : String
  deriving DecidableEq

/-- A call that a grant is presented for. -/
structure WriteCall where
  tenantId : String
  runId : String
  stepId : String
  capabilityId : String
  parameters : Json
  deriving DecidableEq

/-- `redeem`: why the grant is refused for this call, or `none`. -/
def Grant.refusal (g : Grant) (sha : Json → String) (issued : List Grant)
    (redeemed : List String) (now : Nat) (call : WriteCall) : Option Exn :=
  if g ∉ issued then
    some (writeNotAuthorized "The grant was not issued by the policy engine")
  else if g.expiresAt ≤ now then some (writeNotAuthorized "The grant has expired")
  else if g.tenantId ≠ call.tenantId ∨ g.runId ≠ call.runId ∨ g.stepId ≠ call.stepId ∨
      g.capabilityId ≠ call.capabilityId then
    some (writeNotAuthorized "The grant is for a different step")
  else if g.callDigest ≠ L1Agent.callDigest sha call.capabilityId call.parameters then
    some (writeNotAuthorized "The grant is for different parameters")
  else if g.nonce ∈ redeemed then
    some (writeNotAuthorized "The grant has already been used")
  else none

/-- **What an accepted grant is for**: one the authority has issued, for exactly this
call. -/
theorem Grant.refusal_none {g : Grant} {sha : Json → String} {issued : List Grant}
    {redeemed : List String} {now : Nat} {call : WriteCall}
    (h : g.refusal sha issued redeemed now call = none) :
    g ∈ issued ∧ g.capabilityId = call.capabilityId ∧
      g.callDigest = L1Agent.callDigest sha call.capabilityId call.parameters ∧ g.nonce ∉ redeemed := by
  unfold refusal at h
  split at h
  · cases h
  rename_i hissued
  split at h
  · cases h
  split at h
  · cases h
  rename_i hstep
  split at h
  · cases h
  rename_i hdigest
  split at h
  · cases h
  rename_i hnonce
  simp only [not_or, not_not] at hissued hstep hdigest
  exact ⟨hissued, hstep.2.2.2, hdigest, hnonce⟩

end L1Agent
