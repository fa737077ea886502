import L1Agent.Actions.WriteOnce

/-! # The action state machine

Which rows begin, what is handed to the connector, and which statuses are left.  That a
row begins only when it is allowed, or approved by someone, is a constraint of the table;
the rest is the protocol's.

`action_machine` says so of runs of any length (`MachineKept`): a row has begun only if it was
allowed and is of tier T1, or was approved as it is; a final status is never left, and the time of
completion is set with it.  What the connector is called with is the row's own call, unless the two
calls that the statement names have one digest (`Site.Collide`).
-/
namespace L1Agent
open Interleaving Ledger

/-- What the digest of a call is taken of. -/
def callOf (capabilityId : String) (parameters : Json) : Json :=
  Json.canonical (.obj [("capability", .str capabilityId), ("parameters", parameters)])

/-- These two values are different and have one digest. -/
def Site.Collide (site : Site) (a b : Json) : Prop := a ≠ b ∧ site.sha a = site.sha b

/-- What holds of the actions in a run that goes from `s` to `s'`. -/
structure MachineKept (site : Site) (s s' : Estate) : Prop where
  /-- A row has begun only if it was allowed and is of tier T1, or was approved as it is. -/
  authorised : ∀ r ∈ s'.db.actions.rows, r.status.begun = true ∨ r.executionStartedAt.isSome = true →
    (r.verdict = .allow ∧ r.tier = .t1) ∨ (r.verdict = .requireApproval ∧
      r.approverId.isSome = true ∧ r.approvedHash = r.actionHash)
  /-- What the connector's write was called with has the digests of the row: it is the row's own
  call, unless these two collide. -/
  handed : ∀ t a n cap ps b x, ⟨t, .wrote .write a n cap ps b x⟩ ∈ s'.deeds →
    ∃ r, s'.db.actions.get? a = some r ∧ r.callDigest = callDigest site.sha cap ps ∧
      ((∃ (incident : Incident) (sop : SOP), sop.sopId = r.sopKey ∧ sop.contentHash = r.sopHash ∧
        r.actionHash = actionHash site incident sop cap ps) ∨
        site.Collide (callOf r.capabilityId r.parameters) (callOf cap ps))
  /-- A final status is never left. -/
  absorbing : ∀ a r, s.db.actions.get? a = some r → r.status.isFinal = true →
    ∃ r', s'.db.actions.get? a = some r' ∧ r'.status = r.status
  /-- The time of completion is set exactly with a final status. -/
  completed : ∀ r ∈ s'.db.actions.rows, r.completedAt.isSome = true ↔ r.status.isFinal = true

theorem callOf_eq (cap : String) (ps : Json) :
    callOf cap ps = .obj [("capability", .str cap), ("parameters", ps.canonical)] := by
  have hle : "capability" ≤ "parameters" := by decide
  simp only [callOf, Json.canonical, Json.canonicalFields, Json.insertField, if_pos hle]

/-- Calls with one digest are one call, up to the order of the parameters' fields. -/
theorem callDigest_eq {site : Site} {cap cap' : String} {ps ps' : Json}
    (h : callDigest site.sha cap ps = callDigest site.sha cap' ps') :
    (cap = cap' ∧ ps.canonical = ps'.canonical) ∨ site.Collide (callOf cap ps) (callOf cap' ps') := by
  by_cases heq : callOf cap ps = callOf cap' ps'
  · rw [callOf_eq, callOf_eq] at heq
    simp only [Json.obj.injEq, List.cons.injEq, Prod.mk.injEq, Json.str.injEq, true_and,
      and_true] at heq
    exact .inl heq
  · exact .inr ⟨heq, h⟩

/-- The hash of an action does not depend on the order of the parameters' fields. -/
theorem actionHash_congr (site : Site) (incident : Incident) (sop : SOP) (cap : String)
    {ps ps' : Json} (h : ps.canonical = ps'.canonical) :
    actionHash site incident sop cap ps = actionHash site incident sop cap ps' := by
  simp only [actionHash, Json.canonical, Json.canonicalFields, h]

/-- **The action state machine**, over runs of any length. -/
theorem action_machine (site : Site) (s : Estate) (hs : s.Fresh) (c d : Config Calls Exn Estate)
    (hc : (site.pipeline fun _ => True).Reaches (System.anyStep _) (Config.idle s) c)
    (hd : (site.pipeline fun _ => True).Reaches (System.anyStep _) c d) :
    MachineKept site c.shared d.shared := by
  have hregular := pipeline_regular hs (hc.trans hd)
  have hrow : ∀ r ∈ d.shared.db.actions.rows, r.Regular site :=
    fun r hr => hregular.row r.id r (ActionTable.get?_of_mem hr)
  refine ⟨fun r hr hstart => ?_, fun t a n cap ps b x hmem => ?_, fun a r hr hfinal => ?_,
    fun r hr => ?_⟩
  · have hstarted : r.executionStartedAt.isSome = true := by
      rcases hstart with h | h
      · rw [(hrow r hr).begun]
        exact h
      · exact h
    have hchecks := d.shared.db.actions.ok.checks r hr
    rcases hchecks.executedWasAuthorised hstarted with h | ⟨hv, happroved⟩
    · exact .inl ⟨h, hchecks.onlyT1Unattended h⟩
    · exact .inr ⟨hv, happroved⟩
  · obtain ⟨i, hi, hp, rfl, -, -, rfl, hdig⟩ := hregular.writes.issued hmem
    obtain ⟨r, hr, hcap, hdigest⟩ := hregular.grants.forRow i hi hp
    have hcall : r.callDigest = callDigest site.sha i.grant.capabilityId ps := by
      rw [← hdigest, hdig]
    obtain ⟨incident, sop, hkey, hhash, haction⟩ := (hregular.row _ r hr).digested.action
    refine ⟨r, hr, hcall, ?_⟩
    rw [(hregular.row _ r hr).digested.call] at hcall
    rcases callDigest_eq hcall with ⟨hcaps, hps⟩ | hcollision
    · refine .inl ⟨incident, sop, hkey, hhash, ?_⟩
      rw [haction, hcaps]
      exact actionHash_congr site incident sop _ hps
    · exact .inr hcollision
  · obtain ⟨r', hr', hlater⟩ := pipeline_later hs hc hd a r hr
    exact ⟨r', hr', (hlater.final hfinal).1⟩
  · rw [(hrow r hr).completed]

/-- An attempt that goes through to `verified`. -/
theorem action_machine_sample : ∃ d : Config Calls Exn Estate,
    d.shared.statuses = [.verified] ∧ MachineKept sampleSite sampleEstate d.shared := by
  have hplay : (((sampleSite.pipeline fun _ => True).play (Config.idle sampleEstate)
      (.start samplePerform :: List.replicate 23 (.op 0 smooth))).map fun d =>
        d.shared.statuses) = some [.verified] := by
    decide +kernel
  obtain ⟨d, hd, hstatuses⟩ := Option.map_eq_some_iff.mp hplay
  refine ⟨d, hstatuses, action_machine sampleSite sampleEstate sampleEstate_fresh
    (Config.idle sampleEstate) d .refl (System.play_reaches _ (fun p hp => ?_) hd)⟩
  rcases List.mem_cons.mp hp with hp | hp
  · cases hp
    exact .perform sampleCall trivial
  · cases List.eq_of_mem_replicate hp

end L1Agent
