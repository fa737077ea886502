import L1Agent.Actions.Kept

/-! # The pipeline as a system

Any number of attempts at any steps, sweeps, answers of approvers, and whatever else the
service does that is not about actions, in any order, each of them possibly stopped for
good at any point.

`pipeline_obeyed` puts the triples together, one for each thing that may be started, and the
rely-guarantee rule gives what every run keeps: `pipeline_sound` of this system,
`regular_of_obeyed` and `later_of_obeyed` of any other one whose coroutines keep the protocol.
-/
namespace L1Agent
open Interleaving ActionService

/-- **What may be started.**  An attempt is a first one or one of a resumed run: the
program is the same. -/
inductive Pipeline (site : Site) (admits : ActionCall → Prop) : Prog Unit → Prop where
  | perform (call : ActionCall) (h : admits call) :
      Pipeline site admits ((perform site call).bind fun _ => .ret ())
  | sweep (pollDue : Bool) : Pipeline site admits ((sweep site pollDue).bind fun _ => .ret ())
  | decide (id : Nat) (answer : Answer) : Pipeline site admits (ActionService.decideAction id answer)
  | other (o : Op) (h : o.quiet = true) : Pipeline site admits ((ask o).bind fun _ => .ret ())

/-- The system of the pipeline. -/
abbrev Site.pipeline (site : Site) (admits : ActionCall → Prop) : System Calls Exn Estate :=
  site.system (Pipeline site admits)

/-- Nothing has been done about any action yet. -/
structure Estate.Fresh (s : Estate) : Prop where
  actions : s.db.actions.rows = []
  issued : s.issued = []
  deeds : s.deeds = []

variable {site : Site} {admits : ActionCall → Prop} (hon : Prop)

theorem Estate.Fresh.good {s : Estate} (h : s.Fresh) : Ledger.Good site hon s.ledger := by
  have hget : ∀ a, s.db.actions.get? a = none := by
    intro a
    rw [ActionTable.get?, h.actions]
    rfl
  have hnone : ∀ a r, s.ledger.actions.get? a = some r → False := by
    intro a r hr
    have hr' : s.db.actions.get? a = some r := hr
    rw [hget] at hr'
    cases hr'
  have hdid : ∀ t d, ¬ s.ledger.Did t d := by
    intro t d hd
    have hd' : (⟨t, d⟩ : Entry) ∈ s.deeds := hd
    rw [h.deeds] at hd'
    cases hd'
  have hissued : s.ledger.issued = [] := h.issued
  have hdeeds : s.ledger.deeds = [] := h.deeds
  have hmem : ∀ e, e ∉ s.ledger.deeds := by
    rw [hdeeds]
    exact fun _ => List.not_mem_nil
  have hmem' : ∀ i, i ∉ s.ledger.issued := by
    rw [hissued]
    exact fun _ => List.not_mem_nil
  refine ⟨⟨fun a r hr => (hnone a r hr).elim, ⟨fun a r hr => (hnone a r hr).elim,
    fun p a hd => (hdid _ _ hd.choose_spec).elim, fun p a => ?_⟩,
    ⟨fun i hi => (hmem' i hi).elim, fun i hi => (hmem' i hi).elim, ?_, ?_⟩,
    ⟨fun e he => (hmem e he).elim, fun n => ?_⟩⟩,
    fun _ => ⟨fun a r hr => (hnone a r hr).elim, fun a hd => (hdid _ _ hd.choose_spec).elim⟩⟩
  · rw [hdeeds]
    exact .nil
  · rw [hissued]
    exact .nil
  · rw [hissued]
    exact .nil
  · rw [hdeeds]
    exact .nil

/-- **The pipeline keeps its protocol.** -/
theorem pipeline_obeyed {cond : (site.pipeline admits).Cond}
    (hcond : hon → ∀ t o ch s, cond t o ch s → Op.Faithful t ch s.ledger o)
    (hreads : hon → ∀ call, admits call → Verifiable site call) :
    (actionProtocol site hon).Obeyed (site.pipeline admits) cond := by
  intro p hp t s _
  have hall : ∀ {q : Prog Unit}, Spec hon cond t (fun _ => True) q (fun _ _ => True) →
      q.Keeps (site.pipeline admits) cond (actionProtocol site hon) t (fun _ _ => True) s :=
    fun hq => (hq s trivial).mono fun _ _ _ => trivial
  cases hp with
  | perform call h =>
    exact hall (Spec.bind (spec_perform hcond call fun hh => hreads hh call h) fun _ =>
      Spec.ret fun _ _ => trivial)
  | sweep pollDue =>
    exact hall (Spec.bind (spec_sweep hcond pollDue) fun _ => Spec.ret fun _ _ => trivial)
  | decide id answer => exact hall (spec_decideAction hcond id answer)
  | other o h =>
    exact hall (Spec.bind (Spec.quiet h (Steady.const True)) fun _ => Spec.ret fun _ _ => trivial)

section
variable {cond : (site.pipeline admits).Cond} {s : Estate} {d : Config Calls Exn Estate}

theorem pipeline_sound (hcond : hon → ∀ t o ch s, cond t o ch s → Op.Faithful t ch s.ledger o)
    (hreads : hon → ∀ call, admits call → Verifiable site call) (hs : s.Fresh)
    (hr : (site.pipeline admits).Reaches cond (Config.idle s) d) :
    (actionProtocol site hon).Sound (site.pipeline admits) cond d :=
  Protocol.sound_reaches (pipeline_obeyed hon hcond hreads) (Protocol.sound_idle (hs.good hon)) hr

end

section
variable {entry : Prog Unit → Prop} {cond : (site.system entry).Cond} {s : Estate}
  {c d : Config Calls Exn Estate}

/-- What holds in every run of a system whose coroutines keep the protocol. -/
theorem regular_of_obeyed (hob : (actionProtocol site False).Obeyed (site.system entry) cond)
    (hs : s.Fresh) (hr : (site.system entry).Reaches cond (Config.idle s) d) :
    d.shared.ledger.Regular site := by
  have hsound := Protocol.sound_reaches hob (Protocol.sound_idle (hs.good False)) hr
  have hgood : Ledger.Good site False d.shared.ledger := hsound.1
  exact hgood.regular

/-- What such a run makes of a row. -/
theorem later_of_obeyed (hob : (actionProtocol site False).Obeyed (site.system entry) cond)
    (hs : s.Fresh) (hc : (site.system entry).Reaches cond (Config.idle s) c)
    (hr : (site.system entry).Reaches cond c d) (a : Nat) (r : ActionRow)
    (hget : c.shared.db.actions.get? a = some r) :
    ∃ r', d.shared.db.actions.get? a = some r' ∧ r.Later r' := by
  have hsound := Protocol.sound_reaches hob (Protocol.sound_idle (hs.good False)) hc
  refine Protocol.reach_rel hob
    (R := fun s s' : Estate => ∀ a r, s.db.actions.get? a = some r →
      ∃ r', s'.db.actions.get? a = some r' ∧ r.Later r')
    (fun s a r h => ⟨r, h, .refl r⟩) (fun x y z hxy hyz a r h => ?_)
    (fun t s s' hg a r h => hg.grows.rows a r h) hsound hr a r hget
  obtain ⟨r', hr', hlater⟩ := hxy a r h
  obtain ⟨r'', hr'', hlater'⟩ := hyz a r' hr'
  exact ⟨r'', hr'', hlater.trans hlater'⟩

end

section
variable {cond : (site.pipeline admits).Cond} {s : Estate} {c d : Config Calls Exn Estate}

theorem pipeline_regular (hs : s.Fresh)
    (hr : (site.pipeline admits).Reaches cond (Config.idle s) d) :
    d.shared.ledger.Regular site :=
  regular_of_obeyed (pipeline_obeyed False (fun h => h.elim) fun h => h.elim) hs hr

theorem pipeline_later (hs : s.Fresh)
    (hc : (site.pipeline admits).Reaches cond (Config.idle s) c)
    (hr : (site.pipeline admits).Reaches cond c d) (a : Nat) (r : ActionRow)
    (hget : c.shared.db.actions.get? a = some r) :
    ∃ r', d.shared.db.actions.get? a = some r' ∧ r.Later r' :=
  later_of_obeyed (pipeline_obeyed False (fun h => h.elim) fun h => h.elim) hs hc hr a r hget

end

/-! ## A deployment -/

mutual

/-- A text of a value, in place of its digest. -/
def sampleText : Json → String
  | .str text => text
  | .arr items => sampleTexts items
  | .obj fields => sampleFields fields
  | _ => "-"

def sampleTexts : List Json → String
  | [] => "."
  | v :: vs => sampleText v ++ "," ++ sampleTexts vs

def sampleFields : List (String × Json) → String
  | [] => "."
  | (k, v) :: fields => k ++ ":" ++ sampleText v ++ "," ++ sampleFields fields

end

/-- Restarting a job: a write of tier T1 that cannot be undone. -/
def sampleCapability : Capability where
  id := "JOB_RESTART"
  kind := .write
  tier := some .t1
  properties := ["job"]
  targetParameters := ["job"]
  verify := some { capability := "JOB_STATUS", assertion := "result.running" }
  rollback := "none: a restart cannot be undone"

/-- A deployment that may act, with one connector. -/
def sampleSite : Site where
  eng := sampleEngine
  withActions := rfl
  registry :=
    { capabilities := [sampleCapability]
      linted := by
        intro c hc _
        cases List.mem_singleton.mp hc
        exact ⟨_, rfl, by decide, by decide⟩ }
  tenant := "acme"
  sha := sampleText
  canonicalText := sampleText
  contentHash content := content.sop.sopId
  text := ⟨fun name pattern => name == pattern, fun _ => ""⟩
  fold text := text
  maxTier := .t2
  maxAutonomy := .automatic
  matcher _ _ := (none, none, "")
  threshold := 0
  maxAttempts := 3
  lease := minutes 5
  claiming := true
  agentUser := "agent"
  l2Team _ := "L2"

/-- An incident about the job. -/
def sampleIncident : Incident where
  sysId := "abc"
  number := "INC1"

/-- The attempt at the step that restarts the job. -/
def sampleCall : ActionCall where
  step :=
    { stepId := "restart", stepType := "ACTION", capability := "JOB_RESTART"
      parameters := .obj [("job", .str "billing")] }
  incident := sampleIncident
  sop := { sampleSop with contentHash := "hash", changeTemplate := "standard" }
  runId := some 0

/-- The tenant lets the agent restart the job by itself. -/
def samplePolicy : TenantPolicy where
  autonomy := .automatic
  rules :=
    { sopAutonomy := [("restart-job", .automatic, .str "hash")]
      automatic := [{ capability := "JOB_RESTART", targets := ["billing"] }] }

/-- One run of the incident, and nothing done yet. -/
def sampleEstate : Estate where
  db :=
    { incidents := [⟨0, "servicenow", "abc", sampleIncident⟩]
      runs := [{ id := 0, incidentId := 0, number := "INC1", state := "received" }]
      policy := samplePolicy }

theorem sampleEstate_fresh : sampleEstate.Fresh := ⟨rfl, rfl, rfl⟩

end L1Agent
