import L1Agent.Actions.Pipeline

/-! # At most one write for an authorised action

The table allows one started row for an incident and a digest of a call; a row is licensed
at most once for its write and at most once for its rollback, whatever coroutine asks and
wherever one was stopped; a licence gives one grant, and a grant one call.

`at_most_one_write` is about every interleaving of attempts, approvals, sweeps and expiries, each of
them possibly stopped for good at any point, and about every state that is reached on the way.
-/
namespace L1Agent
open Interleaving Ledger

/-- Both deeds are the write, or both the rollback, of one action. -/
def Deed.Again (x y : Deed) : Prop :=
  ∃ p a, (∃ n c ps b r, x = .wrote p a n c ps b r) ∧ ∃ n c ps b r, y = .wrote p a n c ps b r

/-- What holds of the writes of a run that goes from `s` to `s'`. -/
structure WritesOnce (s s' : Estate) : Prop where
  /-- One action is ever started for an incident and a call. -/
  started : ∀ r ∈ s.db.actions.rows, ∀ r' ∈ s'.db.actions.rows,
    r.executionStartedAt.isSome = true → r'.executionStartedAt.isSome = true →
    r.incidentId = r'.incidentId → r.callDigest = r'.callDigest → r.id = r'.id
  /-- An action has at most one grant for its write and one for its rollback. -/
  grants : s'.issued.Pairwise fun i j => ¬ (i.purpose = j.purpose ∧ i.action = j.action)
  /-- A write is invoked under a grant that was minted for it, -/
  granted : ∀ t p a n c ps b r, ⟨t, .wrote p a n c ps b r⟩ ∈ s'.deeds →
    ∃ i ∈ s'.issued, i.purpose = p ∧ i.action = a ∧ i.grant.nonce = n
  /-- and once under each grant, -/
  invoked : ∀ n, s'.deeds.Pairwise fun x y => x.deed.nonce? = some n → y.deed.nonce? ≠ some n
  /-- so that nothing is written again for an action. -/
  written : s'.deeds.Pairwise fun x y => ¬ x.deed.Again y.deed

namespace Ledger
variable {site : Site} {l : Ledger}

/-- One grant for a write and one for a rollback. -/
theorem Grants.pairwise (h : l.Grants) :
    l.issued.Pairwise fun i j => ¬ (i.purpose = j.purpose ∧ i.action = j.action) :=
  h.once.imp fun hij hboth => hij hboth.1 hboth.2

/-- Two writes of one action were made under one grant, and so are one. -/
theorem Regular.written (h : l.Regular site) :
    l.deeds.Pairwise fun x y => ¬ x.deed.Again y.deed := by
  have hall : l.deeds.Pairwise fun x y => ∀ n, x.deed.nonce? = some n → y.deed.nonce? ≠ some n := by
    rw [List.pairwise_iff_forall_sublist]
    intro x y hxy n
    exact List.pairwise_iff_forall_sublist.mp (h.writes.once n) hxy
  refine List.Pairwise.imp_of_mem (fun {x y} hx hy hxy => ?_) hall
  rintro ⟨p, a, ⟨n, c, ps, b, r, hdx⟩, n', c', ps', b', r', hdy⟩
  obtain ⟨t, d⟩ := x
  obtain ⟨t', d'⟩ := y
  subst hdx hdy
  obtain ⟨i, hi, hp, ha, -, hn, -⟩ := h.writes.issued hx
  obtain ⟨j, hj, hp', ha', -, hn', -⟩ := h.writes.issued hy
  obtain rfl := h.grants.unique hi hj (hp.trans hp'.symm) (ha.trans ha'.symm)
  refine hxy n rfl ?_
  show some n' = some n
  rw [← hn, ← hn']

end Ledger

/-- The constraint of the table: two started rows for one incident and one call are
one row. -/
theorem ActionTable.started_eq (t : ActionTable) {r r' : ActionRow} (hr : r ∈ t.rows)
    (hr' : r' ∈ t.rows) (hs : r.executionStartedAt.isSome = true)
    (hs' : r'.executionStartedAt.isSome = true) (hincident : r.incidentId = r'.incidentId)
    (hdigest : r.callDigest = r'.callDigest) : r = r' := by
  refine pairwise_unique (P := fun x : ActionRow => x.executionStartedAt.isSome = true ∧
    x.incidentId = r.incidentId ∧ x.callDigest = r.callDigest)
    (t.ok.oncePerIncident.imp fun {x y} hxy hx hy => hxy ⟨hx.1, hy.1, hx.2.1.trans hy.2.1.symm,
      hx.2.2.trans hy.2.2.symm⟩) hr hr' ⟨hs, rfl, rfl⟩ ⟨hs', hincident.symm, hdigest.symm⟩

/-- **At most one write for an authorised action**, for every interleaving of any number of
attempts at any steps, of approvals, expiries and sweeps, each stopped wherever it may be. -/
theorem at_most_one_write (site : Site) (s : Estate) (hs : s.Fresh)
    (c d : Config Calls Exn Estate)
    (hc : (site.pipeline fun _ => True).Reaches (System.anyStep _) (Config.idle s) c)
    (hd : (site.pipeline fun _ => True).Reaches (System.anyStep _) c d) :
    WritesOnce c.shared d.shared := by
  have hregular := pipeline_regular hs (hc.trans hd)
  refine ⟨fun r hr r' hr' hstart hstart' hincident hdigest => ?_, hregular.grants.pairwise,
    fun t p a n cap ps b x hmem => ?_, hregular.writes.once, hregular.written⟩
  · -- The earlier row is still there, still started.
    obtain ⟨x, hx, hlater⟩ := pipeline_later hs hc hd r.id r (ActionTable.get?_of_mem hr)
    have hbegun : r.status.begun = true := by
      have hreg := (pipeline_regular hs hc).row r.id r (ActionTable.get?_of_mem hr)
      rw [← hreg.begun]
      exact hstart
    have hxstart : x.executionStartedAt.isSome = true := by
      rw [(hregular.row r.id x hx).begun]
      exact hlater.status.begun hbegun
    have hsubject : x.incidentId = r.incidentId ∧ x.callDigest = r.callDigest := by
      have h1 : x.subject.incidentId = r.subject.incidentId := by rw [hlater.subject]
      have h2 : x.subject.callDigest = r.subject.callDigest := by rw [hlater.subject]
      exact ⟨h1, h2⟩
    have heq := d.shared.db.actions.started_eq (ActionTable.get?_mem hx) hr' hxstart hstart'
      (hsubject.1.trans hincident) (hsubject.2.trans hdigest)
    rw [← heq]
    exact hlater.id_eq.symm
  · obtain ⟨i, hi, hp, ha, -, hn, -⟩ := hregular.writes.issued hmem
    exact ⟨i, hi, hp, ha, hn⟩

/-- What a connector and a read answer that find nothing wrong. -/
def smooth : Choice where
  nonce := "n"
  performed := true
  written := .ok { success := true }
  answer := { status := .success, result := some {} }

/-- The statuses of the actions. -/
def Estate.statuses (s : Estate) : List ActionStatus := s.db.actions.rows.map (·.status)

/-- An attempt at the sample step. -/
def samplePerform : Prog Unit :=
  (ActionService.perform sampleSite sampleCall).bind fun _ => .ret ()

/-- An attempt that goes through to `verified`, and the state while its write is under way. -/
theorem at_most_one_write_sample : ∃ c d : Config Calls Exn Estate,
    c.shared.statuses = [.executing] ∧ d.shared.statuses = [.verified] ∧
      WritesOnce c.shared d.shared := by
  have hplay : (((sampleSite.pipeline fun _ => True).play (Config.idle sampleEstate)
      (.start samplePerform :: List.replicate 16 (.op 0 smooth))).bind fun c =>
        ((sampleSite.pipeline fun _ => True).play c (List.replicate 7 (.op 0 smooth))).map fun d =>
          (c.shared.statuses, d.shared.statuses)) = some ([.executing], [.verified]) := by
    decide +kernel
  obtain ⟨c, hc, hplay⟩ := Option.bind_eq_some_iff.mp hplay
  obtain ⟨d, hd, hstatuses⟩ := Option.map_eq_some_iff.mp hplay
  obtain ⟨hsc, hsd⟩ := Prod.mk.inj hstatuses
  refine ⟨c, d, hsc, hsd, at_most_one_write sampleSite sampleEstate sampleEstate_fresh c d
    (System.play_reaches _ (fun p hp => ?_) hc) (System.play_reaches _ (fun p hp => ?_) hd)⟩
  · rcases List.mem_cons.mp hp with hp | hp
    · cases hp
      exact .perform sampleCall trivial
    · cases List.eq_of_mem_replicate hp
  · cases List.eq_of_mem_replicate hp

end L1Agent
