import L1Agent.Actions.Attempts

/-! # A decision is recorded or refused

`decide` writes the row, its event and the waking of the run in one transaction, or it raises and
nothing is written but an expiry that is due.  The rule that the author of an SOP does not approve
a T2 action from it is stated twice: in code, where approvals are checked, and as a constraint on
the row, where it is about whoever decided.  So a rejection by the author passes the code and not
the constraint (`Answer.BySelf`): it is refused with a server error, and the action stays pending.

`decisions_clean` says exactly when a decision is recorded or refused cleanly, for every state that
a deployment has reached and every answer to it; `decidedCleanly_iff` is the equivalence for one
decision, and `author_cannot_reject` the rejection that fails.
-/
namespace L1Agent
open Interleaving ActionService

/-- What a call of `decide` raises, and the rows after it.  A transaction that raises has written
nothing. -/
def decided (db : Db) (now id : Nat) (a : Answer) : Option Exn × Db :=
  match decideAction now id a db with
  | .error e => (some e, db)
  | .ok (true, db') => (some (actionError "WrongState" "The approval request has expired"), db')
  | .ok (false, db') => (none, db')

/-- The request for an approval has expired. -/
def ActionRow.Lapsed (row : ActionRow) (now : Nat) : Prop := row.expiresAt.all (· ≤ now) = true

/-- The answer is about the action that was shown. -/
def Answer.About (a : Answer) (row : ActionRow) : Prop :=
  a.seenHash ≠ "" ∧ a.seenHash = row.actionHash

/-- The action is in the table, its event has been added and the run has been woken. -/
def Db.Recorded (db db' : Db) (now : Nat) (row : ActionRow) (name : String) : Prop :=
  ∃ actions event, db.actions.put row = .ok actions ∧ event.event = name ∧
    db' = { db with
      actions, audit := db.audit ++ [event], jobs := wakeRun now row.runId db.jobs }

/-- **A decision is recorded or refused cleanly.** -/
structure DecidedCleanly (db : Db) (now : Nat) (row : ActionRow) (a : Answer) : Prop where
  /-- It raises an ActionError and nothing is written, or only an expiry that is due; or it
  raises nothing and the answer is recorded. -/
  clean :
    (∃ e, (decided db now row.id a).1 = some e ∧ isActionError e = true ∧
      ((decided db now row.id a).2 = db ∨
        row.Lapsed now ∧ db.Recorded (decided db now row.id a).2 now (row.expiredAt now)
          "approval.expired")) ∨
    ((decided db now row.id a).1 = none ∧ ∃ validUntil,
      db.Recorded (decided db now row.id a).2 now (row.answered now validUntil a) "approval.decided")
  /-- A rejection of the action that was shown, in time, stops the action. -/
  rejects : a.approve = false → a.About row → ¬ row.Lapsed now →
    (decided db now row.id a).1 = none ∧
      ∃ row', (decided db now row.id a).2.actions.get? row.id = some row' ∧
        row'.status = .rejected

/-- The author of the SOP rejects a T2 action from it, in time and about the action shown. -/
def Answer.BySelf (a : Answer) (row : ActionRow) (now : Nat) : Prop :=
  a.approve = false ∧ row.tier = .t2 ∧ a.actor = row.sopAuthorId ∧ a.About row ∧
    ¬ row.Lapsed now

section
variable {db : Db} {now : Nat} {row : ActionRow} {a : Answer}

theorem refuses_error {e : Exn} (h : refuses now row a = some e) : isActionError e = true := by
  unfold refuses at h
  split at h
  · cases h
    rfl
  · split at h
    · cases h
      rfl
    · split at h
      · cases h
      · split at h
        · split at h
          · cases h
            rfl
          · split at h
            · cases h
              rfl
            · cases h
        · cases h

/-- An answer that `decide` does not refuse is about the action that was shown. -/
theorem refuses_about (h : refuses now row a = none) : a.About row := by
  unfold refuses at h
  split at h
  · cases h
  · split at h
    · cases h
    · rename_i hseen
      rw [not_or, not_not] at hseen
      exact hseen

/-- In time, an approval of a T2 action that `decide` does not refuse is not by its author, who is
on record. -/
theorem refuses_author (h : refuses now row a = none) (hlapsed : ¬ row.Lapsed now)
    (happrove : a.approve = true) (htier : row.tier = .t2) :
    row.sopAuthorId ≠ "" ∧ row.sopAuthorId ≠ a.actor := by
  have hstatus := refuses_pending h
  have habout := refuses_about h
  unfold refuses at h
  rw [if_neg (not_not.mpr hstatus), if_neg (by rw [not_or, not_not]; exact habout),
    if_neg (show ¬ row.expiresAt.all (· ≤ now) = true from hlapsed),
    if_pos ⟨happrove, htier⟩] at h
  split at h
  · cases h
  · split at h
    · cases h
    · exact ⟨by assumption, by assumption⟩

/-- A rejection is refused for the same reasons as any answer, and for no other. -/
theorem refuses_rejection (hpending : row.status = .pending) (hreject : a.approve = false)
    (habout : a.About row) : refuses now row a = none := by
  unfold refuses
  rw [if_neg (not_not.mpr hpending), if_neg (by rw [not_or, not_not]; exact habout)]
  split
  · rfl
  · rw [if_neg]
    rintro ⟨happrove, -⟩
    rw [hreject] at happrove
    cases happrove

/-- The constraints let an expiry through. -/
theorem expiredAt_checks (h : row.Checks) : (row.expiredAt now).Checks where
  tier := h.tier
  onlyT1Unattended := h.onlyT1Unattended
  approvalIsForThisAction := by rintro ⟨⟩
  t2TwoPeople := h.t2TwoPeople
  executedWasAuthorised := h.executedWasAuthorised

/-- The constraints let an answer through, unless it is by the author of the SOP. -/
theorem answered_checks (h : row.Checks) (hstarted : row.executionStartedAt = none)
    {validUntil : Nat} (hauthor : row.tier = .t2 → a.actor ≠ row.sopAuthorId) :
    (row.answered now validUntil a).Checks where
  tier := h.tier
  onlyT1Unattended := h.onlyT1Unattended
  approvalIsForThisAction := by
    intro hstatus
    have happrove : a.approve = true := by
      cases happrove : a.approve with
      | true => rfl
      | false =>
        simp only [ActionRow.answered, happrove] at hstatus
        cases hstatus
    exact ⟨rfl, by simp only [ActionRow.answered, happrove, if_true]⟩
  t2TwoPeople := fun htier heq => hauthor htier (Option.some_inj.mp heq)
  executedWasAuthorised := by
    intro hsome
    have hsome : row.executionStartedAt.isSome = true := hsome
    rw [hstarted] at hsome
    cases hsome

theorem put_expired (hrow : db.actions.get? row.id = some row) :
    ∃ actions, db.actions.put (row.expiredAt now) = .ok actions :=
  ActionTable.put_total hrow ⟨rfl, rfl⟩ ⟨rfl, rfl, rfl⟩
    (expiredAt_checks (db.actions.ok.checks row (ActionTable.get?_mem hrow)))

theorem put_answered (hrow : db.actions.get? row.id = some row)
    (hstarted : row.executionStartedAt = none) {validUntil : Nat}
    (hauthor : row.tier = .t2 → a.actor ≠ row.sopAuthorId) :
    ∃ actions, db.actions.put (row.answered now validUntil a) = .ok actions :=
  ActionTable.put_total hrow ⟨rfl, rfl⟩ ⟨rfl, rfl, rfl⟩
    (answered_checks (db.actions.ok.checks row (ActionTable.get?_mem hrow)) hstarted hauthor)

theorem decided_refused (hrow : db.actions.get? row.id = some row) {e : Exn}
    (h : refuses now row a = some e) : decided db now row.id a = (some e, db) := by
  unfold decided decideAction
  rw [hrow]
  dsimp only
  rw [h]

/-- An answer that comes too late ends the request. -/
theorem decided_lapsed (hrow : db.actions.get? row.id = some row) (h : refuses now row a = none)
    (hlapsed : row.Lapsed now) :
    (decided db now row.id a).1 =
        some (actionError "WrongState" "The approval request has expired") ∧
      db.Recorded (decided db now row.id a).2 now (row.expiredAt now) "approval.expired" := by
  obtain ⟨actions, hput⟩ : ∃ actions, db.actions.put (row.expiredAt now) = .ok actions :=
    put_expired hrow
  have hlapsed : row.expiresAt.all (· ≤ now) = true := hlapsed
  unfold decided decideAction
  rw [hrow]
  dsimp only
  rw [h]
  dsimp only
  rw [hlapsed, if_pos rfl]
  unfold saveAction
  rw [hput]
  exact ⟨rfl, actions, _, hput, rfl, rfl⟩

/-- An answer in time is recorded, if the constraints let it through. -/
theorem decided_recorded (hrow : db.actions.get? row.id = some row)
    (h : refuses now row a = none) (hlapsed : ¬ row.Lapsed now) :
    ∃ validUntil, (∀ actions, db.actions.put (row.answered now validUntil a) = .ok actions →
        (decided db now row.id a).1 = none ∧ db.Recorded (decided db now row.id a).2 now
          (row.answered now validUntil a) "approval.decided") ∧
      (∀ e, db.actions.put (row.answered now validUntil a) = .error e →
        decided db now row.id a = (some e, db)) := by
  have hlapsed : row.expiresAt.all (· ≤ now) = false := Bool.eq_false_iff.mpr hlapsed
  refine ⟨now + minutes db.policy.rules.executeWithinMinutes, fun actions hput => ?_,
    fun e hput => ?_⟩
  · unfold decided decideAction
    rw [hrow]
    dsimp only
    rw [h]
    dsimp only
    rw [hlapsed, if_neg Bool.false_ne_true]
    unfold saveAction
    rw [hput]
    exact ⟨rfl, actions, _, hput, rfl, rfl⟩
  · unfold decided decideAction
    rw [hrow]
    dsimp only
    rw [h]
    dsimp only
    rw [hlapsed, if_neg Bool.false_ne_true]
    unfold saveAction
    rw [hput]
    rfl

/-- The constraint refuses an answer by the author of the SOP. -/
theorem put_author {validUntil : Nat} (hrow : db.actions.get? row.id = some row)
    (htier : row.tier = .t2) (hauthor : a.actor = row.sopAuthorId) :
    db.actions.put (row.answered now validUntil a) = .error integrityError := by
  have hfail : ∀ actions, db.actions.put (row.answered now validUntil a) ≠ .ok actions := by
    intro actions hput
    have hget := (ActionTable.put_get? hput hrow row.id).trans (if_pos rfl)
    refine (actions.ok.checks _ (ActionTable.get?_mem hget)).t2TwoPeople htier ?_
    exact congrArg some hauthor
  cases hput : db.actions.put (row.answered now validUntil a) with
  | ok actions => exact absurd hput (hfail actions)
  | error e =>
    unfold ActionTable.put ActionTable.ofRows at hput
    split at hput
    · cases hput
    · cases hput
      rfl

/-- **When a decision is recorded or refused cleanly**: always, but for a rejection of a T2 action
by the author of its SOP. -/
theorem decidedCleanly_iff (hrow : db.actions.get? row.id = some row)
    (hpending : row.status = .pending) (hsound : row.Sound) :
    DecidedCleanly db now row a ↔ ¬ a.BySelf row now := by
  have hstarted := hsound.not_started (by rw [hpending]; rfl)
  constructor
  · rintro h ⟨hreject, htier, hauthor, habout, hlapsed⟩
    have hraised := (h.rejects hreject habout hlapsed).1
    obtain ⟨validUntil, -, hfails⟩ := decided_recorded hrow
      (refuses_rejection hpending hreject habout) hlapsed
    rw [hfails _ (put_author hrow htier hauthor)] at hraised
    cases hraised
  · intro hself
    cases hrefuses : refuses now row a with
    | some e =>
      have hdecided := decided_refused hrow hrefuses
      refine ⟨.inl ⟨e, by rw [hdecided], refuses_error hrefuses, .inl (by rw [hdecided])⟩,
        fun hreject habout => ?_⟩
      rw [refuses_rejection hpending hreject habout] at hrefuses
      cases hrefuses
    | none =>
      by_cases hlapsed : row.Lapsed now
      · obtain ⟨hraised, hrecorded⟩ := decided_lapsed hrow hrefuses hlapsed
        exact ⟨.inl ⟨_, hraised, rfl, .inr ⟨hlapsed, hrecorded⟩⟩,
          fun _ _ hopen => absurd hlapsed hopen⟩
      · have hauthor : row.tier = .t2 → a.actor ≠ row.sopAuthorId := by
          intro htier heq
          cases happrove : a.approve with
          | true => exact (refuses_author hrefuses hlapsed happrove htier).2 heq.symm
          | false => exact hself ⟨happrove, htier, heq, refuses_about hrefuses, hlapsed⟩
        obtain ⟨validUntil, hsaved, -⟩ := decided_recorded hrow hrefuses hlapsed
        obtain ⟨actions, hput⟩ : ∃ actions, db.actions.put (row.answered now validUntil a) = .ok actions :=
          put_answered hrow hstarted hauthor
        obtain ⟨hraised, hrecorded⟩ := hsaved actions hput
        refine ⟨.inr ⟨hraised, validUntil, hrecorded⟩, fun hreject _ _ => ⟨hraised, ?_⟩⟩
        obtain ⟨actions', event, hput', -, hdb⟩ := hrecorded
        rw [hdb]
        refine ⟨_, (ActionTable.put_get? hput' hrow row.id).trans (if_pos rfl), ?_⟩
        show (if a.approve then ActionStatus.approved else .rejected) = .rejected
        rw [hreject]
        rfl

end

/-- The rows of a deployment stay sound. -/
theorem rows_sound {site : Site} {cond : site.service.Cond} {s : Estate}
    {d : Config Calls Exn Estate} (hd : site.service.Reaches cond (Config.idle s) d)
    (hs : s.RowsSound) : d.shared.RowsSound :=
  (System.reaches_issues site.service (fun _ hp => service_orderly hp)
    (fun _ _ _ _ _ _ ho _ hstep hs => (ho.step hs hstep).1) hd (Config.issues_idle _ s) hs).2

/-- **A decision is recorded or refused cleanly**, whatever the deployment has done before, unless
the author of the SOP rejects a T2 action from it. -/
theorem decisions_clean (site : Site) (s : Estate) (hs : s.RowsSound) (d : Config Calls Exn Estate)
    (hd : site.service.Reaches (System.anyStep _) (Config.idle s) d) (id : Nat) (row : ActionRow)
    (hrow : d.shared.db.actions.get? id = some row) (hpending : row.status = .pending)
    (now : Nat) (a : Answer) :
    DecidedCleanly d.shared.db now row a ↔ ¬ a.BySelf row now := by
  have hid := ActionTable.get?_id hrow
  subst hid
  exact decidedCleanly_iff hrow hpending (rows_sound hd hs row.id row hrow)

/-- A tenant that counts every restart of the job as T2, and asks for an approval. -/
def strictEstate : Estate :=
  let s := servingEstate .approval
  { s with db := { s.db with policy := { s.db.policy with rules := { s.db.policy.rules with
      raiseTier := [{ capability := "JOB_RESTART", targets := ["billing"] }] } } } }

theorem strictEstate_sound : strictEstate.RowsSound := by
  intro id r hr
  cases hr

/-- The action waits for an approval. -/
theorem strict_pending : ∃ d : Config Calls Exn Estate,
    servingSite.service.Reaches (System.anyStep _) (Config.idle strictEstate) d ∧
      ∃ row, d.shared.db.actions.get? 0 = some row ∧ row.status = .pending ∧ row.tier = .t2 ∧
        row.sopAuthorId = "user:a" ∧ row.actionHash = servingHash ∧
          row.expiresAt.all (· ≤ 0) = false := by
  have hplay : (servingSite.service.play (Config.idle strictEstate)
      (.start servingTurn :: List.replicate 27 (.op 0 smooth))).map (fun d =>
        (d.shared.db.actions.get? 0).map fun row => (row.status, row.tier, row.sopAuthorId,
          decide (row.actionHash = servingHash), row.expiresAt.all (· ≤ 0))) =
      some (some (.pending, .t2, "user:a", true, false)) := by
    decide +kernel
  obtain ⟨d, hd, hrow⟩ := Option.map_eq_some_iff.mp hplay
  obtain ⟨row, hrow, hends⟩ := Option.map_eq_some_iff.mp hrow
  obtain ⟨hstatus, hends⟩ := Prod.mk.inj hends
  obtain ⟨htier, hends⟩ := Prod.mk.inj hends
  obtain ⟨hauthor, hends⟩ := Prod.mk.inj hends
  obtain ⟨hhash, hexpires⟩ := Prod.mk.inj hends
  exact ⟨d, System.play_reaches _ (servingTurn_starts 27) hd, row, hrow, hstatus, htier, hauthor,
    of_decide_eq_true hhash, hexpires⟩

/-- Another person's rejection. -/
theorem decisions_clean_sample : ∃ (d : Config Calls Exn Estate) (row : ActionRow),
    d.shared.db.actions.get? 0 = some row ∧ row.status = .pending ∧ row.tier = .t2 ∧
      DecidedCleanly d.shared.db 0 row (servingAnswer false) := by
  obtain ⟨d, hd, row, hrow, hpending, htier, hauthor, -, -⟩ := strict_pending
  refine ⟨d, row, hrow, hpending, htier, (decisions_clean servingSite strictEstate
    strictEstate_sound d hd 0 row hrow hpending 0 (servingAnswer false)).mpr ?_⟩
  rintro ⟨-, -, hself, -, -⟩
  rw [hauthor] at hself
  exact absurd hself (by decide)

/-- **The author cannot stop the action.**  The constraint that the approver of a T2 action is not
its author refuses the author's rejection too. -/
theorem author_cannot_reject : ¬ ∀ (site : Site) (s : Estate), s.RowsSound →
    ∀ d : Config Calls Exn Estate,
      site.service.Reaches (System.anyStep _) (Config.idle s) d →
      ∀ (id : Nat) (row : ActionRow), d.shared.db.actions.get? id = some row →
        row.status = .pending → ∀ (now : Nat) (a : Answer),
          DecidedCleanly d.shared.db now row a := by
  intro hall
  obtain ⟨d, hd, row, hrow, hpending, htier, hauthor, hhash, hexpires⟩ := strict_pending
  have hclean := hall servingSite strictEstate strictEstate_sound d hd 0 row hrow hpending 0
    { servingAnswer false with actor := "user:a" }
  have hid := ActionTable.get?_id hrow
  rw [← hid] at hrow
  refine (decidedCleanly_iff hrow hpending
    (rows_sound hd strictEstate_sound row.id row hrow)).mp hclean ⟨rfl, htier, hauthor.symm, ?_, ?_⟩
  · refine ⟨?_, hhash.symm⟩
    show servingHash ≠ ""
    decide +kernel
  · intro hlapsed
    exact absurd (hlapsed.symm.trans hexpires) (by decide)

end L1Agent
