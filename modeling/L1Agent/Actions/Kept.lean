import L1Agent.Actions.Rules

/-! # The pipeline keeps the protocol

One triple for each function of the pipeline, in the order of `Actions/Service.lean`.  A
stage before the write needs to know nothing.  From the authorisation on the coroutine
carries what it knows: the licence and the unused grant, then what became of the write.

The two that matter are `spec_invokeWrite`, where the grant is used, and `spec_verifyReads`, where
the row says what became of the write; `spec_perform` puts an attempt together from them and from
the stages before.  Decisions and sweeps have their triples at the end.
-/
namespace L1Agent
open Interleaving Ledger
namespace ActionService

section
variable {site : Site} {entry : Prog Unit → Prop} {hon : Prop}
  {cond : (site.system entry).Cond} {t : Nat} {A B : Ledger → Prop}
  (hcond : hon → ∀ t o ch s, cond t o ch s → Op.Faithful t ch s.ledger o)
include hcond

/-! ## Helpers -/

omit hcond in
theorem spec_killSwitches (hA : Steady site hon t A) :
    Spec hon cond t A killSwitches fun _ => A :=
  Spec.bind (Spec.quiet rfl hA) fun _ => Spec.bind (Spec.quiet rfl hA) fun _ =>
    Spec.ret fun _ h => h

/-- `finish` moves the row or takes over what another attempt made of it; either way the
row is known. -/
theorem spec_finish {row : ActionRow} {fromStatuses : List ActionStatus} {f : Finish}
    (hA : Steady site hon t A) (hB : Lasting site hon B)
    (hnext : ∀ st ∈ fromStatuses, f.toStatus ∈ st.next) (hne : f.toStatus ≠ .executing)
    (hroll : f.toStatus ≠ .rollingBack)
    (htrue : hon → ∀ (l : Ledger) (r r' : ActionRow), l.Good site hon → A l →
      (∀ st, r.status = st → (f.toStatus = .failed ∧ f.unknown = false) ∨
        f.toStatus = .rollbackFailed → st = .rollingBack →
          l.Did t (.rollbackAuthorised row.id)) →
      l.actions.get? row.id = some r → r.status ∈ fromStatuses → r'.id = row.id →
      r'.status = f.toStatus → r'.unknown = f.unknown →
      l.RowTruth site r' ∧ ∀ p, r.status = p.held → l.Did t (.licence p row.id) ∨ r'.Held p)
    (hsome : ∀ (l : Ledger) (r : ActionRow), l.actions.get? row.id = some r →
      r.status = f.toStatus → B l)
    (hnone : ∀ l : Ledger, l.Good site hon → A l →
      (hon → ∀ r, l.actions.get? row.id = some r → f.toStatus = .verified →
        r.status ∈ fromStatuses ∨ r.status = .verified) →
      (∀ r, l.actions.get? row.id = some r → r.status ∉ fromStatuses) → B l) :
    Spec hon cond t A (finish row fromStatuses f) fun r l =>
      (r.id = row.id ∧ Known hon t r l) ∧ B l := by
  have hunknown : ∀ r : ActionRow,
      (f.values.result.or r.result).any (·.unknown) = f.unknown := fun _ => rfl
  refine Spec.bind (B := fun moved l => B l ∧ ∀ r, moved = some r → r.id = row.id ∧
    Known hon t r l) (Spec.transition hcond hA hnext hne (fun h => absurd h hroll)
      (fun hh l r r' hgood ha hfaith hr hfrom hid hs hu => ?_)
      (fun l l' r r' hgood hgood' ha hm hr hfrom hr' hid hs _ _ => ?_)
      (fun l hgood ha hfaith hnot => ?_)) fun moved => ?_
  · refine htrue hh l r r' hgood ha (fun st hst hto hroll' => ?_) hr hfrom hid hs
      (hu.trans (hunknown r))
    subst hst
    refine ((hfaith {}) r hr).2 ?_ hroll'
    exact hto
  · refine ⟨hsome l' r' hr' hs, ?_⟩
    rintro x ⟨⟩
    exact ⟨hid, hgood'.known hr'⟩
  · refine ⟨hnone l hgood ha (fun hh r hr hv => ((hfaith hh {}) r hr).1 hv) hnot, ?_⟩
    rintro x ⟨⟩
  · cases moved with
    | some r => exact Spec.ret fun l h => ⟨h.2 r rfl, h.1⟩
    | none =>
      exact ((Spec.get hcond row.id).frame hB).conseq (fun l h => ⟨trivial, h.1⟩) fun r l h => h

/-- An action whose write has not begun is ended. -/
theorem spec_finish_early {row : ActionRow} {fromStatuses : List ActionStatus} {f : Finish}
    (hnext : ∀ st ∈ fromStatuses, f.toStatus ∈ st.next ∧ st.begun = false)
    (hb : f.toStatus.begun = false) :
    Spec hon cond t (fun _ => True) (finish row fromStatuses f) fun r l =>
      r.id = row.id ∧ Known hon t r l := by
  refine (spec_finish hcond (Steady.const True) (Lasting.const True) (fun st hst => (hnext st hst).1)
    (fun h => ?_) (fun h => ?_) (fun _ l r r' _ _ _ _ hfrom _ hs _ => ?_) (fun _ _ _ _ => trivial)
    fun _ _ _ _ _ => trivial).post fun r l h => h.1
  · rw [h] at hb
    cases hb
  · rw [h] at hb
    cases hb
  · refine ⟨rowTruth_of_not_begun (by rw [hs]; exact hb), fun p hp => ?_⟩
    have hbegun := (hnext _ hfrom).2
    rw [hp] at hbegun
    cases p <;> cases hbegun

/-! ## Stage 1: decide -/

omit hcond in
/-- The row that a decision makes is regular. -/
theorem decision_regular (call : ActionCall) (capability : Capability) (runId : Nat)
    (author : String) (now : Nat) (rules : Rules) (ruling : Ruling) (id incident : Nat) :
    ((decision site call capability runId
      (actionHash site call.incident call.sop capability.id call.step.parameters) author now rules
      ruling).toRow id incident).Regular site where
  begun := by
    show false = (verdictStatus ruling.verdict).begun
    cases ruling.verdict <;> rfl
  completed := by
    show (if (verdictStatus ruling.verdict).isFinal then some now else none).isSome =
      (verdictStatus ruling.verdict).isFinal
    cases ruling.verdict <;> rfl
  digested := ⟨rfl, call.incident, call.sop, rfl, rfl, rfl⟩

theorem spec_record {d : Decision} (autonomy : Autonomy)
    (hd : ∀ id incident, (d.toRow id incident).Regular site) (hb : d.status.begun = false) :
    Spec hon cond t (fun _ => True) (record d autonomy) fun found l =>
      ∀ row, found = some row → Known hon t row l := by
  refine Spec.bind (Spec.attempt (Spec.recordDecision hcond hd hb)) fun recorded => ?_
  cases recorded with
  | ok row =>
    refine Spec.ret fun l h => ?_
    rintro x ⟨⟩
    exact h
  | error e =>
    exact Spec.ite (fun _ => Spec.find hcond _ _) fun _ => Spec.raise

theorem spec_decide (call : ActionCall) (capability : Capability) (runId : Nat) :
    Spec hon cond t (fun _ => True) (decide site call capability runId
        (actionHash site call.incident call.sop capability.id call.step.parameters))
      fun found l => ∀ row, found = some row → Known hon t row l := by
  have hsteady : Steady site hon t fun _ => True := Steady.const True
  unfold decide
  refine Spec.bind (Spec.quiet rfl hsteady) fun policy => Spec.bind (Spec.quiet rfl hsteady)
    fun found => Spec.bind (Spec.quiet rfl hsteady) fun now => Spec.bind
      (spec_killSwitches hsteady) fun on => Spec.bind (Spec.quiet rfl hsteady) fun refusals => ?_
  refine spec_record hcond _ (fun id incident => decision_regular call capability runId _ _ _ _ id
    incident) ?_
  generalize evaluate _ _ _ = ruling
  show (verdictStatus ruling.verdict).begun = false
  cases ruling.verdict <;> rfl

/-! ## Stages 2 and 3: the change record, the approval -/

theorem spec_ensureChange (call : ActionCall) (row : ActionRow) :
    Spec hon cond t (Known hon t row) (ensureChange call row) (Known hon t) := by
  unfold ensureChange
  split
  · exact Spec.ret fun _ h => h
  · have hopen : Spec hon cond t (fun _ => True) (openChange call row) fun _ _ => True :=
      Spec.ite (fun _ => Spec.raise) fun _ => Spec.quiet rfl (Steady.const True)
    refine Spec.bind (Spec.pre (Spec.attempt hopen) fun _ _ => trivial) fun opened => ?_
    cases opened with
    | error e =>
      have hnext : ∀ st ∈ undone, ActionStatus.denied ∈ st.next ∧ st.begun = false := by decide
      exact (spec_finish_early hcond hnext rfl).conseq (fun _ _ => trivial) fun _ _ h => h.2
    | ok ref => exact (Spec.note hcond rfl).post fun _ _ h => h.2

theorem spec_requestApproval (row : ActionRow) :
    Spec hon cond t (fun _ => True) (requestApproval site row) (Known hon t) := by
  have hsteady : Steady site hon t fun _ => True := Steady.const True
  have hask : Spec hon cond t (fun _ => True) (askInServicenow row) fun _ _ => True := by
    unfold askInServicenow
    split
    · refine Spec.bind (Spec.quiet rfl hsteady) fun policy => Spec.bind (B := fun _ _ => True)
        ((Spec.attempt (Spec.quiet rfl hsteady)).post fun _ _ _ => trivial) fun asked => ?_
      exact Spec.ret fun _ _ => trivial
    · exact Spec.ret fun _ _ => trivial
  exact Spec.bind hask fun asked => Spec.bind (Spec.quiet rfl hsteady) fun now =>
    (Spec.note hcond rfl).post fun _ _ h => h.2

/-- A compare-and-set that ends a pending action. -/
theorem spec_endPending {id : Nat} {toStatus : ActionStatus} {event : String}
    {payload : List (String × Json)} {values : Values} {wake : Bool}
    (hto : toStatus = .expired ∨ toStatus = .invalid) :
    Spec hon cond t (fun _ => True)
      (askDb (.transition id [.pending] toStatus event payload values wake)) fun moved l =>
        ∀ row, moved = some row → Known hon t row l := by
  have hb : toStatus.begun = false := by rcases hto with rfl | rfl <;> rfl
  refine Spec.transition hcond (Steady.const True) (fun st hst => ?_) (fun h => ?_) (fun h => ?_)
    (fun _ l r r' _ _ _ _ hfrom _ hs _ => ?_) (fun l l' r r' _ hgood' _ _ _ _ hr' _ _ _ _ => ?_)
    fun l _ _ _ _ => ?_
  · cases List.mem_singleton.mp hst
    rcases hto with rfl | rfl <;> decide
  · rw [h] at hb
    cases hb
  · rw [h] at hb
    cases hb
  · refine ⟨rowTruth_of_not_begun (by rw [hs]; exact hb), fun p hp => ?_⟩
    rw [hp] at hfrom
    cases p <;> cases List.mem_singleton.mp hfrom
  · rintro x ⟨⟩
    exact hgood'.known hr'
  · rintro x ⟨⟩

theorem spec_lapse (row : ActionRow) (now : Nat) :
    Spec hon cond t (Known hon t row) (lapse site row now) (Known hon t) := by
  unfold lapse
  split
  · exact Spec.raise
  · split
    · refine Spec.bind (Spec.pre (spec_endPending hcond (.inl rfl)) fun _ _ => trivial)
        fun expired => ?_
      cases expired with
      | some r => exact Spec.ret fun l h => h r rfl
      | none => exact (Spec.get hcond row.id).conseq (fun _ _ => trivial) fun _ _ h => h.2
    · exact Spec.ret fun _ h => h

theorem spec_await (call : ActionCall) (capability : Capability) (row : ActionRow) :
    Spec hon cond t (Known hon t row) (await site call capability row) (Known hon t) := by
  unfold await
  split
  · have honce : Spec hon cond t (Known hon t row) (requestOnce site row) (Known hon t) := by
      unfold requestOnce
      split
      · exact Spec.pre (spec_requestApproval hcond row) fun _ _ => trivial
      · exact Spec.ret fun _ h => h
    refine Spec.bind honce fun row => Spec.bind (Spec.quiet rfl Known.steady) fun now =>
      Spec.bind (spec_lapse hcond row now) fun row => ?_
    exact Spec.ite (fun _ => Spec.raise) fun _ => Spec.ret fun _ h => h
  · exact Spec.ret fun _ h => h

/-! ## Stages 4 to 6: what may stop the write -/

/-- The statuses of an action that was stopped before its write. -/
def stops : List ActionStatus := [.aborted, .invalid, .notDone]

theorem spec_stopped (call : ActionCall) (row : ActionRow) {s : Stop} (hs : s.toStatus ∈ stops) :
    Spec hon cond t (fun _ => True) (stopped site call row s) fun _ _ => True := by
  have hcases : s.toStatus = .aborted ∨ s.toStatus = .invalid ∨ s.toStatus = .notDone := by
    simpa [stops] using hs
  refine Spec.bind (spec_finish_early hcond (fun st hst => ?_) ?_) fun row =>
    Spec.ofExcept fun _ _ _ _ => trivial
  · have hwait : st = .approved ∨ st = .allowed := by simpa [waiting] using hst
    show s.toStatus ∈ st.next ∧ st.begun = false
    rcases hcases with h | h | h <;> rcases hwait with rfl | rfl <;> rw [h] <;> decide
  · show s.toStatus.begun = false
    rcases hcases with h | h | h <;> rw [h] <;> rfl

omit hcond in
theorem eq_of_ite {φ : Prop} [Decidable φ] {x s : Stop}
    (h : (if φ then none else some x) = some s) : s = x := by
  split at h
  · cases h
  · cases h
    rfl

omit hcond in
theorem spec_switchStop : Spec hon cond t (fun _ => True) switchStop fun stop _ =>
    ∀ s, stop = some s → s.toStatus ∈ stops := by
  refine Spec.bind (spec_killSwitches (Steady.const True)) fun on => Spec.ret fun _ _ s hs => ?_
  obtain rfl := eq_of_ite hs
  show ActionStatus.aborted ∈ stops
  decide

omit hcond in
theorem spec_timeStop (row : ActionRow) :
    Spec hon cond t (fun _ => True) (timeStop row) fun stop _ =>
      ∀ s, stop = some s → s.toStatus ∈ stops := by
  refine Spec.bind (Spec.quiet rfl (Steady.const True)) fun now => Spec.ret fun _ _ s hs => ?_
  split at hs
  · cases hs
    decide
  · cases hs

omit hcond in
theorem spec_preCheckStop (call : ActionCall) (checks : List PreCheck) :
    Spec hon cond t (fun _ => True) (preCheckStop site call checks) fun stop _ =>
      ∀ s, stop = some s → s.toStatus ∈ stops := by
  induction checks with
  | nil => exact Spec.ret fun _ _ s hs => nomatch hs
  | cons check checks ih =>
    refine Spec.bind (Spec.quiet rfl (Steady.const True)) fun a =>
      Spec.bind (Spec.ofExcept fun _ _ _ h => h) fun ok => ?_
    refine Spec.ite (fun _ => ih) fun _ => Spec.ret fun _ _ s hs => ?_
    cases hs
    show ActionStatus.notDone ∈ stops
    decide

omit hcond in
theorem spec_dryRunStop (call : ActionCall) (capability : Capability) :
    Spec hon cond t (fun _ => True) (dryRunStop call capability) fun stop _ =>
      ∀ s, stop = some s → s.toStatus ∈ stops := by
  unfold dryRunStop
  split
  · refine Spec.bind (B := fun _ _ => True) ((Spec.attempt (B := fun _ _ => True)
      (Spec.bind (Spec.quiet rfl (Steady.const True)) fun _ =>
        Spec.quiet rfl (Steady.const True))).post fun _ _ _ => trivial) fun trial => ?_
    refine Spec.ret fun _ _ s hs => ?_
    obtain rfl := eq_of_ite hs
    show ActionStatus.notDone ∈ stops
    decide
  · exact Spec.ret fun _ _ s hs => nomatch hs

omit hcond in
theorem spec_firstStop {stages : List (Prog (Option Stop))}
    (h : ∀ stage ∈ stages, Spec hon cond t (fun _ => True) stage fun stop _ =>
      ∀ s, stop = some s → s.toStatus ∈ stops) :
    Spec hon cond t (fun _ => True) (firstStop stages) fun stop _ =>
      ∀ s, stop = some s → s.toStatus ∈ stops := by
  induction stages with
  | nil => exact Spec.ret fun _ _ s hs => nomatch hs
  | cons stage stages ih =>
    refine Spec.bind (h stage List.mem_cons_self) fun stop => ?_
    cases stop with
    | some s =>
      refine Spec.ret fun _ hs x hx => ?_
      cases hx
      exact hs s rfl
    | none => exact Spec.pre (ih fun s hs => h s (List.mem_cons_of_mem _ hs)) fun _ _ => trivial

omit hcond in
theorem notAuthorised_stops (why : String) : (notAuthorised why).toStatus ∈ stops := by
  have hstatus : (notAuthorised why).toStatus = .aborted ∨ (notAuthorised why).toStatus = .notDone ∨
      (notAuthorised why).toStatus = .invalid := by
    unfold notAuthorised
    by_cases hswitch : contains "kill switch" why = true
    · exact .inl (if_pos hswitch)
    · by_cases hdone : contains "already" why = true
      · exact .inr (.inl (by simp [hswitch, hdone]))
      · exact .inr (.inr (by simp [hswitch, hdone]))
  rcases hstatus with h | h | h <;> rw [h] <;> decide

/-! ## Stage 7: the grant, and the write -/

omit hcond in
theorem quiet_killSwitches : killSwitches.Issues fun o => Op.quiet o = true :=
  Program.Issues.bind (issues_ask rfl) fun _ => Program.Issues.bind (issues_ask rfl) fun _ => trivial

/-- What the holder of a grant knows before it makes the write. -/
structure Granted (hon : Prop) (t : Nat) (p : Purpose) (a : Nat) (grant : Grant) (l : Ledger) :
    Prop where
  token : ∃ i, Unspent t i l ∧ i.grant = grant ∧ i.purpose = p ∧ i.action = a
  unperformed : Unperformed t p a l
  owns : hon → Owns t p a l

/-- What it knows after. -/
structure Written (hon : Prop) (t : Nat) (p : Purpose) (a : Nat) (r : Except Exn WriteAnswer)
    (l : Ledger) : Prop where
  outcome : Outcome hon t p a r l
  licence : l.Did t (.licence p a)
  owns : hon → Owns t p a l

theorem spec_authorise (row : ActionRow) :
    Spec hon cond t (fun _ => True) (authorise row) fun r l => ∀ row' grant, r = .ok (row', grant) →
      Granted hon t .write row'.id grant l ∧ Known hon t row' l ∧ row'.status = .executing := by
  unfold authorise
  refine Spec.bind (Spec.quiet rfl (Steady.const True)) fun file =>
    Spec.bind (Spec.authoriseExecution hcond row.id file) fun authorised => ?_
  cases authorised with
  | error why => exact Spec.ret fun _ _ row' grant h => nomatch h
  | ok executing =>
    refine Spec.bind (Spec.pre (Spec.mint hcond (F := fun l => (hon → Owns t .write executing.id l) ∧
      Known hon t executing l ∧ executing.status = .executing)
      (Owns.steady.and (Known.steady.and (Steady.const _))) (fun l is h =>
        ⟨h.1, ⟨h.2.1.was, h.2.1.begun, h.2.1.accepted, h.2.1.noUndo⟩, h.2.2⟩)
      fun _ => ⟨rfl, rfl⟩) fun l h => ?_) fun grant => Spec.ret fun l h row' grant' heq => ?_
    · obtain ⟨hknown, hstatus, hbare, howns⟩ := h executing rfl
      exact ⟨⟨hbare, fun _ => hknown⟩, howns, hknown, hstatus⟩
    · cases heq
      obtain ⟨htoken, hunperf, howns, hknown, hstatus⟩ := h
      exact ⟨⟨htoken, hunperf, howns⟩, hknown, hstatus⟩

/-- **The call to the connector**, whatever comes of it. -/
theorem spec_invokeWrite {purpose : Purpose} {row : ActionRow} {capabilityId : String}
    {parameters : Json} {grant : Grant} {F : Ledger → Prop} (hF : Apart site hon t F) :
    Spec hon cond t (fun l => Granted hon t purpose row.id grant l ∧ F l)
      ((invokeWrite site purpose row capabilityId parameters grant).attempt : Prog _) fun r l =>
        Written hon t purpose row.id r l ∧ F l := by
  intro s hs
  obtain ⟨⟨⟨i, htoken, rfl, rfl, ha⟩, hunperf, howns⟩, hFs⟩ := hs
  rw [← ha] at howns hunperf
  have hA : Steady site hon t fun l => ((Unspent t i l ∧ (hon → Owns t i.purpose i.action l)) ∧
      F l) ∧ Unperformed t i.purpose i.action l :=
    ((Unspent.steady.and Owns.steady).and hF.steady).and Unperformed.steady
  have herror : ∀ (e : Exn) (l : Ledger), (((Unspent t i l ∧ (hon → Owns t i.purpose i.action l)) ∧
      F l) ∧ Unperformed t i.purpose i.action l) →
      Written hon t i.purpose row.id (.error e) l ∧ F l := by
    intro e l h
    rw [← ha]
    exact ⟨⟨.inr fun _ => h.2, h.2.licence, h.1.1.2⟩, h.1.2⟩
  refine Program.Keeps.mono (Program.Keeps.attempt (Q := fun r s' =>
    Written hon t i.purpose row.id r s'.ledger ∧ F s'.ledger) ?_) fun r s' hr => ?_
  swap
  · cases r with
    | ok a => exact hr
    | error e => exact True.intro
  unfold invokeWrite
  refine Program.Keeps.bind ((keeps_of_quiet (issues_ask rfl) hA
    ⟨⟨⟨htoken, howns⟩, hFs⟩, hunperf⟩).mono fun r s' hr => ?_)
  cases r with
  | error e => exact herror e _ hr
  | ok u =>
    refine Program.Keeps.bind ((keeps_of_quiet quiet_killSwitches hA hr).mono fun r s' hr => ?_)
    cases r with
    | error e => exact herror e _ hr
    | ok on =>
      refine Program.Keeps.ite (fun _ => herror _ _ hr) fun _ => ?_
      rw [← ha]
      refine (keeps_write hcond hF hr.1).mono fun r s' hr => ?_
      exact ⟨⟨hr.1.1, hr.1.2.1, hr.1.2.2⟩, hr.2⟩

/-! ## The change record -/

omit hcond in
theorem spec_noteChange (row : ActionRow) (text : String) (hA : Steady site hon t A) :
    Spec hon cond t A (noteChange row text) fun _ => A := by
  unfold noteChange
  split
  · exact Spec.ret fun _ h => h
  · refine Spec.of_quiet (Program.Issues.bind ?_ fun _ => trivial) hA
    exact ⟨rfl, fun x => by cases x <;> trivial⟩

theorem spec_closeChange (row : ActionRow) (successful : Bool) (notes : String) :
    Spec hon cond t (fun l => successful = true → hon →
        ∃ r, l.actions.get? row.id = some r ∧ r.status = .verified)
      (closeChange row successful notes) fun _ _ => True := by
  unfold closeChange
  split
  · exact Spec.ret fun _ _ => trivial
  · refine Spec.bind (B := fun _ _ => True)
      ((Spec.attempt (Spec.close hcond)).post fun _ _ _ => trivial) fun closed =>
      Spec.bind (B := fun _ _ => True) ((Spec.note hcond rfl).post fun _ _ _ => trivial)
        fun _ => Spec.ret fun _ _ => trivial

/-! ## Stage 9: the rollback -/

/-- What must be known to undo a write: no rollback was begun by this coroutine, and either
the write is its own and was not performed, or a read does not show what was accepted. -/
structure MayUndo (site : Site) (t : Nat) (a : Nat) (l : Ledger) : Prop where
  noUndo : ¬ l.Did t (.rollbackAuthorised a)
  why : Unperformed t .write a l ∨ (Past a l ∧ l.NotShown site a)

omit hcond in
theorem MayUndo.steady {a : Nat} : Steady site hon t fun l => hon → MayUndo site t a l := by
  have h : Steady site hon t fun l => hon → ((¬ l.Did t (.rollbackAuthorised a)) ∧
      (Unperformed t .write a l ∨ (Past a l ∧ l.NotShown site a))) :=
    Steady.imp (notDid_steady.and (Unperformed.steady.or (Past.lasting.and after_lasting).steady))
  intro s s' hr hs hh
  have hs' := h s s' hr (fun hh => ⟨(hs hh).noUndo, (hs hh).why⟩) hh
  exact ⟨hs'.1, hs'.2⟩

omit hcond in
/-- The write is not in doubt while the action is under way. -/
theorem MayUndo.sure {l : Ledger} {r : ActionRow} {a : Nat} (h : MayUndo site t a l)
    (hgood : l.Good site hon) (hh : hon) (hr : l.actions.get? a = some r)
    (hs : r.status = .executing ∨ r.status = .executed) :
    l.Sure .write a ∧ (¬ l.Performed .write a ∨ l.NotShown site a) ∧
      ∀ p, r.status = p.held → l.Did t (.licence p a) := by
  obtain rfl := ActionTable.get?_id hr
  rcases hs with hs | hs
  · have hunperf : Unperformed t .write r.id l := by
      rcases h.why with h | ⟨⟨x, hx, -, hne⟩, -⟩
      · exact h
      · rw [hr] at hx
        cases hx
        exact absurd hs hne
    refine ⟨.inr hunperf.not, .inl hunperf.not, fun p hp => ?_⟩
    rw [hs] at hp
    cases p with
    | write => exact hunperf.licence
    | rollback => cases hp
  · have htruth := (hgood.truthful hh).row _ r hr
    unfold RowTruth at htruth
    rw [hs] at htruth
    refine ⟨.inl htruth, ?_, fun p hp => ?_⟩
    · exact h.why.imp (·.not) (·.2)
    · rw [hs] at hp
      cases p <;> cases hp

/-- What is known of a rollback that was made, or was not. -/
structure Undone (site : Site) (t : Nat) (a : Nat) (answer : WriteAnswer) (l : Ledger) : Prop where
  made : answer.success = true → l.Did t (.rollbackAuthorised a) ∧ l.Accepted .rollback a ∧
    l.Performed .rollback a
  not : answer.success = false → Unperformed t .rollback a l ∨ MayUndo site t a l

omit hcond in
theorem Undone.steady {a : Nat} {answer : WriteAnswer} :
    Steady site hon t fun l => hon → Undone site t a answer l := by
  refine steady_of fun u l l' htu hgood hgood' hm h hh => ?_
  refine ⟨fun hs => ?_, fun hs => ?_⟩
  · obtain ⟨hd, hacc, hperf⟩ := (h hh).made hs
    exact ⟨hm.grows.did hd, hm.grows.accepted hacc, hm.grows.performed hperf⟩
  · have hor : Steady site hon t fun l => Unperformed t .rollback a l ∨
        (hon → MayUndo site t a l) := Unperformed.steady.or MayUndo.steady
    have hnext := hor { db := { actions := l.actions }, issued := l.issued, deeds := l.deeds }
      { db := { actions := l'.actions }, issued := l'.issued, deeds := l'.deeds }
      ⟨hgood, hgood', u, Ne.symm htu, hm⟩ (((h hh).not hs).imp id fun h _ => h)
    exact hnext.imp id fun h => h hh

theorem spec_authoriseRollback (row : ActionRow) (capabilityId : String) (parameters : Json) :
    Spec hon cond t (fun l => hon → MayUndo site t row.id l)
      (authoriseRollback site row capabilityId parameters) fun grant l =>
        match grant with
        | none => hon → MayUndo site t row.id l
        | some g => Granted hon t .rollback row.id g l := by
  have hA : Steady site hon t fun l => hon → MayUndo site t row.id l := MayUndo.steady
  unfold authoriseRollback
  refine Spec.bind (spec_killSwitches hA) fun on => Spec.ite (fun _ => Spec.ret fun _ h => h)
    fun _ => ?_
  have hnext : ∀ st ∈ [ActionStatus.executing, .executed], ActionStatus.rollingBack ∈ st.next := by
    decide
  have hundoing : ∀ st ∈ [ActionStatus.executing, .executed], st.undoing = false := by decide
  refine Spec.bind (B := fun moved l => moved.elim (hon → MayUndo site t row.id l)
      fun _ => Bare t .rollback row.id l ∧ (hon → Owns t .rollback row.id l))
    (Spec.transition hcond hA hnext (by decide) (fun _ => hundoing)
      (fun hh l r r' hgood ha _ hr hfrom hid hs _ => ?_)
      (fun l l' r r' hgood hgood' ha hm hr hfrom hr' hid hs hissued hdid => ?_)
      fun l _ ha _ _ => ha) fun moved => ?_
  · have hstatus : r.status = .executing ∨ r.status = .executed := by simpa using hfrom
    obtain ⟨hsure, -, hlic⟩ := (ha hh).sure hgood hh hr hstatus
    refine ⟨?_, fun p hp => .inl (hlic p hp)⟩
    unfold RowTruth
    rw [hs, hid]
    exact hsure
  · have hlic := hdid rfl
    refine ⟨⟨hlic, fun i hi hp ha' => ?_⟩, fun _ => ⟨hlic, r', hr', .inl hs⟩⟩
    rw [hissued] at hi
    have hold := hgood.regular.grants.licensed i hi
    rw [hp, ha'] at hold
    have hreached := hgood.reached_of_did hold hr
    rw [Purpose.reached, hundoing _ hfrom] at hreached
    cases hreached
  · cases moved with
    | none => exact Spec.ret fun _ h => h
    | some r =>
      refine Spec.bind (Spec.pre (Spec.mint hcond (F := fun l => hon → Owns t .rollback row.id l)
        Owns.steady (fun _ _ h => h) fun h => by cases h)
        fun l h => ⟨⟨h.1, fun hp => by cases hp⟩, h.2⟩) fun grant =>
          Spec.ret fun l h => ⟨h.1, h.2.1, h.2.2⟩

theorem spec_undo (row : ActionRow) (declared : String) (parameters : Json) :
    Spec hon cond t (fun l => hon → MayUndo site t row.id l)
      (undo site row declared parameters) fun answer l => hon → Undone site t row.id answer l := by
  unfold undo
  refine Spec.bind (spec_authoriseRollback hcond row declared parameters) fun grant => ?_
  cases grant with
  | none =>
    refine Spec.ret fun l h hh => ⟨fun hs => ?_, fun _ => .inr (h hh)⟩
    cases hs
  | some grant =>
    refine Spec.bind (Spec.pre (spec_invokeWrite hcond (Apart.const True)) fun l h =>
      ⟨h, trivial⟩) fun undone => Spec.ret fun l h hh => ?_
    obtain ⟨⟨houtcome, hlic, -⟩, -⟩ := h
    cases undone with
    | ok x =>
      show Undone site t row.id x l
      exact ⟨fun hs => ⟨hlic, houtcome.success hs⟩, fun hs => .inl (houtcome.failure hs hh)⟩
    | error e =>
      refine ⟨fun hs => ?_, fun _ => ?_⟩
      · cases hs
      rcases houtcome with ⟨hp, -⟩ | h
      · cases hp
      · exact .inl (h hh)

theorem spec_settleRollback (call : ActionCall) (capability : Capability) (row : ActionRow)
    (why evidence : String) :
    Spec hon cond t (fun l => hon → MayUndo site t row.id l)
      (settleRollback site call capability row why evidence) fun r l => r.id = row.id ∧
        Known hon t r l := by
  have hopen : ∀ st ∈ openStatuses, st = .executing ∨ st = .executed ∨ st = .rollingBack := by
    decide
  have hnotReached : ∀ {l : Ledger} {r : ActionRow}, l.Good site hon →
      l.actions.get? row.id = some r → r.status = .executing ∨ r.status = .executed →
      ¬ l.Performed .rollback row.id := by
    intro l r hgood hr hs
    refine hgood.regular.not_performed hr ?_
    rcases hs with hs | hs <;> rw [hs] <;> rfl
  unfold settleRollback
  refine Spec.ite (fun _ => ?_) fun _ => Spec.bind (spec_undo hcond row _ _) fun undone => ?_
  · -- Nothing is declared that would undo the write.
    have hnext : ∀ st ∈ openStatuses, ActionStatus.failed ∈ st.next := by decide
    refine (spec_finish hcond MayUndo.steady (Lasting.const True) hnext
      (fun h => ActionStatus.noConfusion h) (fun h => ActionStatus.noConfusion h)
      (fun hh l r r' hgood ha hroll hr hfrom hid hs _ => ?_) (fun _ _ _ _ => trivial)
      fun _ _ _ _ _ => trivial).post fun r l h => h.1
    have hopenr : r.status = .executing ∨ r.status = .executed := by
      rcases hopen _ hfrom with h | h | h
      · exact .inl h
      · exact .inr h
      · exact absurd (hroll _ h (.inl ⟨rfl, rfl⟩) rfl) (ha hh).noUndo
    obtain ⟨hsure, hwrite, hlic⟩ := (ha hh).sure hgood hh hr hopenr
    refine ⟨?_, fun p hp => .inl (hlic p hp)⟩
    unfold RowTruth
    rw [hs, hid]
    exact .inr ⟨hsure, hwrite, hnotReached hgood hr hopenr⟩
  · by_cases hmade : undone.success = true
    · -- The rollback was made: only this coroutine can have begun it.
      have hnext : ∀ st ∈ openStatuses, ActionStatus.rolledBack ∈ st.next := by decide
      have hafter : afterUndo capability.rollback why evidence undone =
          { toStatus := .rolledBack, event := "action.rolled_back"
            message := s!"{why}. Rolled back with {capability.rollback}", evidence
            payload := [("rollback", .str capability.rollback), ("reason", .str why)] } :=
        if_pos hmade
      rw [hafter]
      refine (spec_finish hcond Undone.steady (Lasting.const True) hnext
        (fun h => ActionStatus.noConfusion h) (fun h => ActionStatus.noConfusion h)
        (fun hh l r r' hgood ha _ hr hfrom hid hs _ => ?_) (fun _ _ _ _ => trivial)
        fun _ _ _ _ _ => trivial).post fun r l h => h.1
      obtain ⟨hlic, hacc, hperf⟩ := (ha hh).made hmade
      have hreached := hgood.reached_of_did (p := .rollback) hlic hr
      have hrolling : r.status = .rollingBack := by
        rcases hopen _ hfrom with h | h | h
        · rw [Purpose.reached, h] at hreached
          cases hreached
        · rw [Purpose.reached, h] at hreached
          cases hreached
        · exact h
      have htruth := (hgood.truthful hh).row _ r hr
      unfold RowTruth at htruth ⊢
      rw [hrolling, ActionTable.get?_id hr] at htruth
      rw [hs, hid]
      refine ⟨⟨htruth, hacc, hperf⟩, fun p hp => ?_⟩
      rw [hrolling] at hp
      cases p with
      | write => cases hp
      | rollback => exact .inl hlic
    · have hnext : ∀ st ∈ openStatuses, ActionStatus.rollbackFailed ∈ st.next := by decide
      have hafter : afterUndo capability.rollback why evidence undone =
          { toStatus := .rollbackFailed, event := "action.rollback_failed"
            message := s!"{why}. The rollback ({capability.rollback}) also failed: {undone.error}"
            evidence
            payload := [("rollback", .str capability.rollback), ("reason", .str why)] } :=
        if_neg hmade
      rw [hafter]
      refine (spec_finish hcond Undone.steady (Lasting.const True) hnext
        (fun h => ActionStatus.noConfusion h) (fun h => ActionStatus.noConfusion h)
        (fun hh l r r' hgood ha hroll hr hfrom hid hs _ => ?_) (fun _ _ _ _ => trivial)
        fun _ _ _ _ _ => trivial).post fun r l h => h.1
      unfold RowTruth
      rw [hs, hid]
      rcases (ha hh).not (by simpa using hmade) with hunperf | hmay
      · have hreached := hgood.reached_of_did hunperf.licence hr
        have hrolling : r.status = .rollingBack := by
          rcases hopen _ hfrom with h | h | h
          · rw [Purpose.reached, h] at hreached
            cases hreached
          · rw [Purpose.reached, h] at hreached
            cases hreached
          · exact h
        have htruth := (hgood.truthful hh).row _ r hr
        unfold RowTruth at htruth
        rw [hrolling, ActionTable.get?_id hr] at htruth
        refine ⟨⟨htruth, hunperf.not⟩, fun p hp => ?_⟩
        rw [hrolling] at hp
        cases p with
        | write => cases hp
        | rollback => exact .inl hunperf.licence
      · -- It was not authorised, and the action is still under way.
        have hopenr : r.status = .executing ∨ r.status = .executed := by
          rcases hopen _ hfrom with h | h | h
          · exact .inl h
          · exact .inr h
          · exact absurd (hroll _ h (.inr rfl) rfl) hmay.noUndo
        obtain ⟨hsure, -, hlic⟩ := hmay.sure hgood hh hr hopenr
        exact ⟨⟨hsure, hnotReached hgood hr hopenr⟩, fun p hp => .inl (hlic p hp)⟩

theorem spec_rollBack (call : ActionCall) (capability : Capability) (row : ActionRow)
    (why evidence : String) :
    Spec hon cond t (fun l => hon → MayUndo site t row.id l)
      (rollBack site call capability row why evidence) fun _ _ => True := by
  unfold rollBack
  refine Spec.bind (spec_settleRollback hcond call capability row why evidence) fun row' =>
    Spec.bind (Spec.pre (spec_closeChange hcond row' false _) fun _ _ h => nomatch h) fun _ =>
      Spec.ofExcept fun _ _ _ _ => trivial

/-! ## Stage 8: verification -/

omit hcond in
/-- What a glance at an answer says of it. -/
theorem glance_shown (action : Nat) {step : SOPStep} {assertion : Json} {failed : String}
    {a : CallAnswer} {g : Glance} (h : glance site step assertion failed a = .ok g) :
    (∃ result, g = .holds result ∧ Deed.Shows site action
      (.looked ⟨action, assertion, step.parameters⟩ a)) ∨
    ((∀ result, g ≠ .holds result) ∧ Deed.Hides site action
      (.looked ⟨action, assertion, step.parameters⟩ a)) := by
  unfold glance at h
  split at h
  · rename_i result hstatus hresult
    cases hholds : holds site assertion result step.parameters with
    | error e =>
      rw [hholds] at h
      cases h
    | ok yes =>
      rw [hholds] at h
      cases yes with
      | true =>
        cases h
        exact .inl ⟨result, rfl, rfl, hstatus, result, hresult, hholds⟩
      | false =>
        refine .inr ⟨?_, rfl, ?_⟩
        · change (if failed = "" then (.ok (Glance.notYet result) : Except Exn Glance) else _) =
            .ok g at h
          split at h
          · cases h
            exact fun _ h => nomatch h
          · cases hagain : holds site (.str failed) result step.parameters with
            | error e =>
              rw [hagain] at h
              cases h
            | ok again =>
              rw [hagain] at h
              cases again <;> cases h <;> exact fun _ h => nomatch h
        · rintro ⟨-, result', hresult', hyes⟩
          rw [hresult] at hresult'
          cases hresult'
          rw [hholds] at hyes
          cases hyes
  · rename_i hnot
    cases h
    refine .inr ⟨fun _ h => (nomatch h), rfl, ?_⟩
    rintro ⟨hstatus, result, hresult, -⟩
    exact hnot result hstatus hresult

/-- **The verification reads.**  The write was authorised, and with `acc` it was accepted. -/
theorem spec_verifyReads (acc : Prop) {F : Ledger → Prop} (hF : Apart site hon t F)
    (step : SOPStep) (action : Nat) (spec : Verify) (assertion parameters : Json) (n k : Nat)
    (why : String) (last : Option AdapterResult) :
    Spec hon cond t (fun l => ((l.Done (.authorised action) ∧
        (acc → l.Accepted .write action)) ∧ F l) ∧ (0 < k → acc → l.NotShown site action))
      (verifyReads site step action spec assertion parameters n k why last) fun seen l =>
        F l ∧ match seen with
        | .shown .. => l.Shown site action
        | .notShown .. => 0 < n + k → acc → l.NotShown site action := by
  have hA : Lasting site hon fun l => (l.Done (.authorised action) ∧
      (acc → l.Accepted .write action)) := done_lasting.and accepted_lasting.imp
  induction n generalizing k why last with
  | zero => exact Spec.ret fun l h => ⟨h.1.2, fun hk => h.2 (by omega)⟩
  | succ n ih =>
    refine Spec.bind (Spec.pre (Spec.read hcond hA hF) fun l h => h.1) fun a =>
      Spec.bind (B := fun g l => (((l.Done (.authorised action) ∧
        (acc → l.Accepted .write action)) ∧ F l) ∧ ((∃ result, g = .holds result) →
          l.Shown site action)) ∧ ((∀ result, g ≠ .holds result) → acc →
            l.NotShown site action)) (Spec.ofExcept fun g hg l h => ?_) fun g => ?_
    · obtain ⟨hl, hafter⟩ := h
      refine ⟨⟨hl, fun hshows => ?_⟩, fun hhides hacc => ?_⟩
      · rcases glance_shown action hg with ⟨_, -, hs⟩ | ⟨hnot, -⟩
        · obtain ⟨x, y, hx, hy, hsub⟩ := hafter (· = .authorised action) fun l' hl' => by
            obtain ⟨u, hu⟩ := hl'.1
            exact ⟨_, hu, rfl⟩
          exact ⟨x, y, hx, by rw [hy]; exact hs, hsub⟩
        · obtain ⟨result, hr⟩ := hshows
          exact absurd hr (hnot result)
      · rcases glance_shown action hg with ⟨result, hr, -⟩ | ⟨-, hh⟩
        · exact absurd hr (hhides result)
        · obtain ⟨x, y, hx, hy, hsub⟩ := hafter (Deed.Accepts .write action) fun l' hl' =>
            hl'.2 hacc
          exact ⟨x, y, hx, by rw [hy]; exact hh, hsub⟩
    · have hmore : ∀ (why' : String) (last' : Option AdapterResult),
          (∀ result, g ≠ .holds result) →
          Spec hon cond t (fun l => (((l.Done (.authorised action) ∧
            (acc → l.Accepted .write action)) ∧ F l) ∧ ((∃ result, g = .holds result) →
              l.Shown site action)) ∧ ((∀ result, g ≠ .holds result) → acc →
                l.NotShown site action))
            (verifyReads site step action spec assertion parameters n (k + 1) why' last')
            fun seen l => F l ∧ match seen with
              | .shown .. => l.Shown site action
              | .notShown .. => 0 < n + 1 + k → acc → l.NotShown site action := by
        intro why' last' hg
        refine (ih (k + 1) why' last').conseq (fun l h => ⟨h.1.1, fun _ => h.2 hg⟩)
          fun seen l h => ?_
        cases seen with
        | shown attempts result => exact h
        | notShown why last => exact ⟨h.1, fun hk hacc => h.2 (by omega) hacc⟩
      cases g with
      | failed error => exact hmore _ _ fun _ h => nomatch h
      | holds result => exact Spec.ret fun l h => ⟨h.1.1.2, h.1.2 ⟨result, rfl⟩⟩
      | failedAgain result => exact Spec.ret fun l h => ⟨h.1.1.2, fun _ => h.2 fun _ h => nomatch h⟩
      | notYet result => exact hmore _ _ fun _ h => nomatch h

/-- At least one read is made to verify the action. -/
def ReadsOnce (site : Site) (call : ActionCall) (capability : Capability) : Prop :=
  ∀ spec plan, capability.verify = some spec → verifyPlan site call.step spec = .ok plan →
    0 ≤ plan.2

/-- What is known as the verification reads begin. -/
structure MayVerify (hon : Prop) (t : Nat) (row : ActionRow) (lost : Option String)
    (l : Ledger) : Prop where
  known : ∃ r, l.actions.get? row.id = some r
  authorised : l.Done (.authorised row.id)
  accepted : hon ∧ lost = none → l.Accepted .write row.id
  past : hon ∧ lost = none → Past row.id l
  noUndo : hon ∧ lost = none → ¬ l.Did t (.rollbackAuthorised row.id)

theorem spec_afterReads (call : ActionCall) (capability : Capability) (row : ActionRow)
    (assertion evidence : String) (lost : Option String) (seen : Seen) :
    Spec hon cond t (fun l => (∃ r, l.actions.get? row.id = some r) ∧
        match seen with
        | .shown .. => l.Shown site row.id
        | .notShown .. => lost = none → hon → MayUndo site t row.id l)
      (afterReads site call capability row assertion evidence lost seen) fun _ _ => True := by
  cases seen with
  | shown attempts result =>
    have hnext : ∀ st ∈ [ActionStatus.executed, .executing], ActionStatus.verified ∈ st.next := by
      decide
    refine Spec.bind (spec_finish hcond (B := fun l => hon →
        ∃ r, l.actions.get? row.id = some r ∧ r.status = .verified)
      (exists_lasting.and after_lasting).steady (ended_lasting rfl).imp hnext
      (fun h => ActionStatus.noConfusion h) (fun h => ActionStatus.noConfusion h)
      (fun hh l r r' hgood ha _ hr hfrom hid hs _ => ?_) (fun l r hr hs _ => ⟨r, hr, hs⟩)
      fun l hgood ha hfaith hnot hh => ?_) fun row' => Spec.bind (Spec.pre
        (spec_closeChange hcond row' true _) fun l h _ hh => by rw [h.1.1]; exact h.2 hh)
        fun _ => Spec.ofExcept fun _ _ _ _ => trivial
    · refine ⟨?_, fun p hp => ?_⟩
      · unfold RowTruth
        rw [hs, hid]
        exact ha.2
      · have hfrom' : r.status = .executed ∨ r.status = .executing := by simpa using hfrom
        cases p with
        | write => exact .inr (.inr (.inl ⟨rfl, hs⟩))
        | rollback => rcases hfrom' with h | h <;> rw [h] at hp <;> cases hp
    · obtain ⟨r, hr⟩ := ha.1
      rcases hfaith hh r hr rfl with h | h
      · exact absurd h (hnot r hr)
      · exact ⟨r, hr, h⟩
  | notShown why last =>
    cases lost with
    | some lost =>
      have hnext : ∀ st ∈ [ActionStatus.executing], ActionStatus.failed ∈ st.next := by decide
      refine Spec.bind (Spec.pre (spec_finish hcond (Steady.const True) (Lasting.const True) hnext
        (fun h => ActionStatus.noConfusion h) (fun h => ActionStatus.noConfusion h)
        (fun hh l r r' hgood ha _ hr hfrom hid hs hu => ?_) (fun _ _ _ _ => trivial)
        fun _ _ _ _ _ => trivial) fun _ _ => trivial) fun row' =>
          Spec.ofExcept fun _ _ _ _ => trivial
      refine ⟨?_, fun p hp => .inr (.inr (.inr ⟨hs, hu⟩))⟩
      unfold RowTruth
      rw [hs]
      exact .inl hu
    | none =>
      exact Spec.pre (spec_rollBack hcond call capability row _ _) fun l h => h.2 rfl

theorem spec_verifyAndFinish (call : ActionCall) (capability : Capability) (row : ActionRow)
    (evidence : String) (lost : Option String) (hreads : hon → ReadsOnce site call capability) :
    Spec hon cond t (MayVerify hon t row lost)
      (verifyAndFinish site call capability row evidence lost) fun _ _ => True := by
  unfold verifyAndFinish
  cases hverify : capability.verify with
  | none => exact Spec.raise
  | some spec =>
    refine Spec.bind (B := fun plan l => (hon → 0 ≤ plan.2) ∧ MayVerify hon t row lost l)
      (Spec.ofExcept fun plan hplan l h => ⟨fun hh => hreads hh spec plan hverify hplan, h⟩)
      fun plan => Spec.of_pure fun hplan => ?_
    have hlast : Lasting site hon fun l => (∃ r, l.actions.get? row.id = some r) ∧
        (hon ∧ lost = none → Past row.id l) := (exists_lasting).and Past.lasting.imp
    refine Spec.bind (Spec.pre ((spec_verifyReads hcond (hon ∧ lost = none)
      (noUndo_apart (a := row.id) (q := hon ∧ lost = none)) call.step row.id spec plan.1 _
      (plan.2 + 1).toNat 0 _ none).frame hlast) fun l h => ?_) fun seen => Spec.pre
        (spec_afterReads hcond call capability row _ evidence lost seen) fun l h => ?_
    · exact ⟨⟨⟨⟨h.authorised, h.accepted⟩, h.noUndo⟩, fun hk => nomatch hk⟩, h.known, h.past⟩
    · obtain ⟨⟨hnoUndo, hseen⟩, hknown, hpast⟩ := h
      refine ⟨hknown, ?_⟩
      cases seen with
      | shown attempts result => exact hseen
      | notShown why last =>
        intro hlost hh
        have hn : 0 < (plan.2 + 1).toNat + 0 := by
          have := hplan hh
          omega
        exact ⟨hnoUndo ⟨hh, hlost⟩, .inr ⟨hpast ⟨hh, hlost⟩, hseen hn ⟨hh, hlost⟩⟩⟩

/-! ## The step -/

omit hcond in
/-- What is known of a row under way is enough to verify it. -/
theorem mayVerify_of_known {row : ActionRow} {lost : Option String} {l : Ledger}
    (h : Known hon t row l) (hs : row.status = .executed ∨
      (row.status = .executing ∧ lost ≠ none)) : MayVerify hon t row lost l := by
  obtain ⟨r, hr, -⟩ := h.was
  have hb : row.status.begun = true := by rcases hs with hs | ⟨hs, -⟩ <;> rw [hs] <;> rfl
  refine ⟨⟨r, hr⟩, h.begun hb, fun ⟨hh, hl⟩ => ?_, fun ⟨_, hl⟩ => ?_, fun ⟨_, hl⟩ => ?_⟩
  all_goals
    have hexecuted : row.status = .executed := by
      rcases hs with hs | ⟨-, hne⟩
      · exact hs
      · exact absurd hl hne
  · exact h.accepted hh hexecuted
  · exact h.past hb (by rw [hexecuted]; decide)
  · exact h.noUndo (by rw [hexecuted]; rfl)

theorem spec_recordExecuted (call : ActionCall) (capability : Capability) (row : ActionRow)
    (written : WriteAnswer) (hreads : hon → ReadsOnce site call capability) :
    Spec hon cond t (fun l => l.Accepted .write row.id ∧ l.Did t (.licence .write row.id))
      (recordExecuted site call capability row written) fun _ _ => True := by
  have hA : Lasting site hon fun l => l.Accepted .write row.id ∧
      l.Did t (.licence .write row.id) :=
    accepted_lasting.and (lasting_of fun _ _ _ hg h => hg.did h)
  have hnext : ∀ st ∈ [ActionStatus.executing], ActionStatus.executed ∈ st.next := by decide
  unfold recordExecuted
  refine Spec.bind (B := fun moved l => ∀ r, moved = some r → Known hon t r l ∧
    r.status = .executed) (Spec.transition hcond hA.steady hnext
      (fun h => ActionStatus.noConfusion h) (fun h => ActionStatus.noConfusion h)
      (fun hh l r r' hgood ha _ hr hfrom hid hs _ => ?_)
      (fun l l' r r' _ hgood' _ _ _ _ hr' _ hs _ _ => ?_) fun l _ _ _ _ r h => nomatch h)
    fun moved => ?_
  · refine ⟨?_, fun p hp => ?_⟩
    · unfold RowTruth
      rw [hs, hid]
      exact ha.1
    · rw [List.mem_singleton.mp hfrom] at hp
      cases p with
      | write => exact .inl ha.2
      | rollback => cases hp
  · rintro x ⟨⟩
    exact ⟨hgood'.known hr', hs⟩
  · cases moved with
    | none => exact Spec.raise
    | some r =>
      have hsteady : Steady site hon t fun l => Known hon t r l ∧ r.status = .executed :=
        Known.steady.and (Steady.const _)
      refine Spec.bind (Spec.pre (spec_noteChange r _ hsteady) fun l h => h r rfl) fun _ =>
        Spec.pre (spec_verifyAndFinish hcond call capability r _ none hreads) fun l h => ?_
      exact mayVerify_of_known h.1 (.inl h.2)

theorem spec_send (call : ActionCall) (capability : Capability) (row : ActionRow) (grant : Grant)
    (hreads : hon → ReadsOnce site call capability) :
    Spec hon cond t (fun l => Granted hon t .write row.id grant l ∧ Known hon t row l ∧
        row.status = .executing)
      (send site call capability row grant) fun _ _ => True := by
  have hF : Apart site hon t fun l => (True → ¬ l.Did t (.rollbackAuthorised row.id)) :=
    noUndo_apart
  have hexists : Lasting site hon fun l => ∃ r, l.actions.get? row.id = some r := exists_lasting
  unfold send
  refine Spec.bind (Spec.pre ((spec_invokeWrite hcond hF).frame hexists) fun l h => ?_)
    fun written => ?_
  · obtain ⟨r, hr, -⟩ := h.2.1.was
    exact ⟨⟨h.1, fun _ => h.2.1.noUndo (by rw [h.2.2]; rfl)⟩, r, hr⟩
  have hundo : ∀ {l : Ledger}, (hon → Unperformed t .write row.id l) →
      (True → ¬ l.Did t (.rollbackAuthorised row.id)) → hon → MayUndo site t row.id l :=
    fun hunperf hno hh => ⟨hno trivial, .inl (hunperf hh)⟩
  cases written with
  | ok a =>
    refine Spec.ite (fun hs => Spec.pre (spec_recordExecuted hcond call capability row a hreads)
      fun l h => ?_) fun hs => Spec.pre (spec_rollBack hcond call capability row _ _) fun l h => ?_
    · exact ⟨(h.1.1.outcome.success hs).1, h.1.1.licence⟩
    · exact hundo (h.1.1.outcome.failure (by simpa using hs)) h.1.2
  | error e =>
    refine Spec.ite (fun hk => Spec.pre (spec_verifyAndFinish hcond call capability row _ _ hreads)
      fun l h => ?_) fun hk => Spec.pre (spec_rollBack hcond call capability row _ _) fun l h => ?_
    · exact ⟨h.2, ⟨t, h.1.1.licence⟩, fun h => (nomatch h.2), fun h => (nomatch h.2),
        fun h => (nomatch h.2)⟩
    · refine hundo ?_ h.1.2
      rcases h.1.1.outcome with ⟨-, hkind⟩ | hunperf
      · exact absurd hkind hk
      · exact hunperf

theorem spec_act (call : ActionCall) (capability : Capability) (row : ActionRow)
    (hreads : hon → ReadsOnce site call capability) :
    Spec hon cond t (fun _ => True) (act site call capability row) fun _ _ => True := by
  unfold act
  refine Spec.bind (spec_firstStop fun stage hstage => ?_) fun stop => ?_
  · rcases List.mem_cons.mp hstage with rfl | hstage
    · exact spec_switchStop
    rcases List.mem_cons.mp hstage with rfl | hstage
    · exact spec_timeStop row
    rcases List.mem_cons.mp hstage with rfl | hstage
    · exact spec_preCheckStop call capability.preChecks
    · cases List.mem_singleton.mp hstage
      exact spec_dryRunStop call capability
  · cases stop with
    | some s =>
      intro st hst
      exact spec_stopped hcond call row (hst s rfl) st trivial
    | none =>
      refine Spec.bind (Spec.pre (spec_authorise hcond row) fun _ _ => trivial) fun authorised => ?_
      cases authorised with
      | error why =>
        exact Spec.pre (spec_stopped hcond call row (notAuthorised_stops why)) fun _ _ => trivial
      | ok r =>
        obtain ⟨row', grant⟩ := r
        exact Spec.pre (spec_send hcond call capability row' grant hreads) fun l h => h row' grant rfl

theorem spec_proceed (call : ActionCall) (capability : Capability) (row : ActionRow)
    (hreads : hon → ReadsOnce site call capability) :
    Spec hon cond t (Known hon t row) (proceed site call capability row) fun _ _ => True := by
  unfold proceed
  split
  · exact Spec.pre (spec_act hcond call capability row hreads) fun _ _ => trivial
  · exact Spec.pre (spec_act hcond call capability row hreads) fun _ _ => trivial
  · rename_i hs
    exact Spec.pre (spec_verifyAndFinish hcond call capability row _ none hreads)
      fun l h => mayVerify_of_known h (.inl hs)
  · rename_i hs
    exact Spec.pre (spec_verifyAndFinish hcond call capability row _ _ hreads)
      fun l h => mayVerify_of_known h (.inr ⟨hs, fun h => nomatch h⟩)
  · have hnext : ∀ st ∈ [ActionStatus.rollingBack], ActionStatus.failed ∈ st.next := by decide
    refine Spec.bind (Spec.pre (spec_finish hcond (Steady.const True) (Lasting.const True) hnext
      (fun h => ActionStatus.noConfusion h) (fun h => ActionStatus.noConfusion h)
      (fun hh l r r' hgood ha _ hr hfrom hid hs hu => ?_) (fun _ _ _ _ => trivial)
      fun _ _ _ _ _ => trivial) fun _ _ => trivial) fun row' => Spec.ofExcept fun _ _ _ _ => trivial
    refine ⟨?_, fun p hp => .inr (.inr (.inr ⟨hs, hu⟩))⟩
    unfold RowTruth
    rw [hs]
    exact .inl hu
  · exact Spec.ofExcept fun _ _ _ _ => trivial

theorem spec_continueStep (call : ActionCall) (capability : Capability) (row : ActionRow)
    (hreads : hon → ReadsOnce site call capability) :
    Spec hon cond t (Known hon t row) (continueStep site call capability row) fun _ _ => True := by
  have hrest : ∀ row, Spec hon cond t (Known hon t row) (do
      let row ← await site call capability row
      proceed site call capability row) fun _ _ => True :=
    fun row => Spec.bind (spec_await hcond call capability row) fun row =>
      spec_proceed hcond call capability row hreads
  unfold continueStep
  by_cases hs : row.status ∈ undone
  · simp only [hs, if_true]
    exact Spec.bind (spec_ensureChange hcond call row) hrest
  · simp only [hs, if_false]
    exact hrest row

theorem spec_obtainRow (call : ActionCall) (capability : Capability) (runId : Nat) :
    Spec hon cond t (fun _ => True) (obtainRow site call capability runId) fun found l =>
      ∀ row, found = some row → Known hon t row l := by
  unfold obtainRow
  refine Spec.bind (Spec.find hcond runId call.step.stepId) fun found => ?_
  cases found with
  | none => exact Spec.pre (spec_decide hcond call capability runId) fun _ _ => trivial
  | some row =>
    refine Spec.ite (fun _ => ?_) fun _ => Spec.ret fun l h => h
    have hnext : ∀ st ∈ undone, ActionStatus.invalid ∈ st.next ∧ st.begun = false := by decide
    refine Spec.bind (Spec.pre (spec_finish_early hcond (f := changed) hnext rfl)
      fun _ _ => trivial) fun row' => Spec.ret fun l h x hx => ?_
    cases hx
    exact h.2

/-- Every write capability is verified by at least one read, as the step sets it. -/
def Verifiable (site : Site) (call : ActionCall) : Prop :=
  ∀ capability, site.registry.capability call.step.capability = some capability →
    capability.kind = .write → ReadsOnce site call capability

/-- **An attempt at a step** keeps the protocol. -/
theorem spec_perform (call : ActionCall) (hreads : hon → Verifiable site call) :
    Spec hon cond t (fun _ => True) (perform site call) fun _ _ => True := by
  unfold perform
  split
  · exact Spec.ret fun _ _ => trivial
  · rename_i capability hcap
    refine Spec.ite (fun _ => Spec.ret fun _ _ => trivial) fun hkind => ?_
    cases call.runId with
    | none => exact Spec.ret fun _ _ => trivial
    | some runId =>
      refine Spec.bind (spec_obtainRow hcond call capability runId) fun row => ?_
      cases row with
      | none => exact Spec.raise
      | some row => exact Spec.pre (spec_continueStep hcond call capability row
          fun hh => hreads hh capability hcap (not_not.mp hkind)) fun l h => h row rfl

/-! ## The sweeper, and the approvers -/

theorem spec_decideAction (id : Nat) (answer : Answer) :
    Spec hon cond t (fun _ => True) (decideAction id answer) fun _ _ => True :=
  Spec.bind (Spec.decide hcond id answer) fun _ => Spec.ite (fun _ => Spec.raise)
    fun _ => Spec.ret fun _ _ => trivial

omit hcond in
theorem quiet_problemWith (row : ActionRow) (found : ChangeApproval) :
    (problemWith site row found).Issues fun o => Op.quiet o = true := by
  unfold problemWith
  split
  · trivial
  · split
    · trivial
    · split
      · exact Program.Issues.bind (issues_ask rfl) fun _ => trivial
      · trivial

theorem spec_collect (row : ActionRow) :
    Spec hon cond t (fun _ => True) (collect site row) fun _ _ => True := by
  unfold collect
  refine Spec.bind (Spec.quiet rfl (Steady.const True)) fun found =>
    Spec.ite (fun _ => Spec.ret fun _ _ => trivial) fun _ =>
      Spec.bind (Spec.of_quiet (quiet_problemWith row found) (Steady.const True)) fun problem =>
        Spec.ite (fun _ => ?_) fun _ => ?_
  · exact Spec.bind (B := fun _ _ => True)
      ((spec_endPending hcond (.inr rfl)).post fun _ _ _ => trivial) fun _ =>
        Spec.ret fun _ _ => trivial
  · refine Spec.bind (B := fun _ _ => True) (Spec.tryCatch (spec_decideAction hcond row.id _)
      fun e => ?_) fun _ => Spec.ret fun _ _ => trivial
    exact Spec.ite (fun _ => Spec.ret fun _ _ => trivial) fun _ => Spec.raise

theorem spec_sweepRow (now : Nat) (pollDue : Bool) (row : ActionRow) :
    Spec hon cond t (fun _ => True) (sweepRow site now pollDue row) fun _ _ => True := by
  unfold sweepRow
  split
  · exact Spec.bind (B := fun _ _ => True)
      ((spec_endPending hcond (.inl rfl)).post fun _ _ _ => trivial) fun _ =>
        Spec.ret fun _ _ => trivial
  · split
    · exact Spec.tryCatch (spec_collect hcond row) fun e => Spec.ret fun _ _ => trivial
    · exact Spec.ret fun _ _ => trivial

theorem spec_sweep (pollDue : Bool) :
    Spec hon cond t (fun _ => True) (sweep site pollDue) fun _ _ => True := by
  have hrows : ∀ (now : Nat) (rows : List ActionRow),
      Spec hon cond t (fun _ => True) (sweepRows site now pollDue rows) fun _ _ => True := by
    intro now rows
    induction rows with
    | nil => exact Spec.ret fun _ _ => trivial
    | cons row rows ih =>
      exact Spec.bind (spec_sweepRow hcond now pollDue row) fun _ => Spec.bind ih fun _ =>
        Spec.ret fun _ _ => trivial
  exact Spec.bind (Spec.quiet rfl (Steady.const True)) fun waiting =>
    Spec.bind (Spec.quiet rfl (Steady.const True)) fun now => hrows now waiting

end
end ActionService
end L1Agent
