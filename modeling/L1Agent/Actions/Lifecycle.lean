import Mathlib.Logic.Relation
import L1Agent.Actions.Store

/-! # The life of an action

The statuses of an action form a machine without cycles: `ActionStatus.next` lists, for
each status, those that an action may go to in one statement, and the statuses of `FINAL`
have none.  `ActionRow.Later` is what the statements keep of a row from one reading of it
to any later one.

`Leads.final` says that a final status is never left, and `ActionRow.Change` what one statement may
do to a row.  Both are of the table alone: which of its moves a coroutine may make is said by the
protocol.
-/
namespace L1Agent

/-! ## The machine of the statuses -/

namespace ActionStatus

/-- Where an action may go in one statement. -/
def next : ActionStatus → List ActionStatus
  | pending => [approved, rejected, expired, invalid, denied]
  | approved | allowed => [denied, invalid, aborted, notDone, executing]
  | executing => [executed, verified, failed, rollingBack, rolledBack, rollbackFailed]
  | executed => [verified, failed, rollingBack, rolledBack, rollbackFailed]
  | rollingBack => [failed, rolledBack, rollbackFailed]
  | denied | shadowed | recommended | rejected | expired | invalid | notDone
  | verified | failed | rolledBack | rollbackFailed | aborted => []

/-- Where an action may go in any number of statements. -/
def Leads : ActionStatus → ActionStatus → Prop := Relation.ReflTransGen fun a b => b ∈ a.next

/-- The write has been authorised. -/
def begun : ActionStatus → Bool
  | executing | executed | verified | failed | rollingBack | rolledBack | rollbackFailed => true
  | denied | shadowed | recommended | pending | approved | rejected | expired | invalid
  | allowed | notDone | aborted => false

/-- The rollback may have been authorised. -/
def undoing : ActionStatus → Bool
  | failed | rollingBack | rolledBack | rollbackFailed => true
  | _ => false

theorem next_begun {a b : ActionStatus} (h : b ∈ a.next) (ha : a.begun = true) :
    b.begun = true := by
  cases a <;> cases b <;> first | rfl | (exfalso; revert h ha; decide)

theorem next_undoing {a b : ActionStatus} (h : b ∈ a.next) (ha : a.undoing = true) :
    b.undoing = true := by
  cases a <;> cases b <;> first | rfl | (exfalso; revert h ha; decide)

/-- Only the statement that authorises a write makes an action begin. -/
theorem begun_of_next {a b : ActionStatus} (h : b ∈ a.next) (hb : b.begun = true)
    (hne : b ≠ executing) : a.begun = true := by
  cases a <;> cases b <;> first | rfl | (exfalso; revert h hb hne; decide)

theorem next_final {a : ActionStatus} : a.isFinal = true ↔ a.next = [] := by
  cases a <;> decide

theorem Leads.begun {a b : ActionStatus} (h : a.Leads b) (ha : a.begun = true) :
    b.begun = true := by
  induction h with
  | refl => exact ha
  | tail _ hs ih => exact next_begun hs ih

theorem Leads.undoing {a b : ActionStatus} (h : a.Leads b) (ha : a.undoing = true) :
    b.undoing = true := by
  induction h with
  | refl => exact ha
  | tail _ hs ih => exact next_undoing hs ih

/-- **A final status is never left.** -/
theorem Leads.final {a b : ActionStatus} (h : a.Leads b) (ha : a.isFinal = true) : b = a := by
  induction h with
  | refl => rfl
  | tail _ hs ih =>
    subst ih
    rw [next_final.mp ha] at hs
    cases hs

/-- An action whose write is under way, or over, is not authorised again. -/
theorem Leads.past {a b : ActionStatus} (h : a.Leads b) (ha : a.begun = true)
    (hne : a ≠ executing) : b ≠ executing := by
  have hstep : ∀ {a b : ActionStatus}, b ∈ a.next → a.begun = true → a ≠ executing →
      b ≠ executing := by
    intro a b h ha hne hb
    subst hb
    revert h ha hne
    cases a <;> decide
  induction h with
  | refl => exact hne
  | @tail b c hab hs ih => exact hstep hs (Leads.begun hab ha) ih

end ActionStatus

/-! ## What a row keeps -/

/-- What is settled when the row is inserted: the columns that no statement changes. -/
def ActionRow.subject (r : ActionRow) : ActionRow :=
  { r with
    verdict := .deny
    reasonCode := ""
    rule := ""
    status := .pending
    changeSysId := ""
    changeNumber := ""
    requestedAt := none
    approverId := none
    approverEmail := ""
    approvedHash := ""
    decidedVia := ""
    decisionNote := ""
    decidedAt := none
    validUntil := none
    executionStartedAt := none
    completedAt := none
    result := none }

/-- `r'` may be what has become of `r`. -/
structure ActionRow.Later (r r' : ActionRow) : Prop where
  subject : r'.subject = r.subject
  status : r.status.Leads r'.status
  result : r.status.isFinal = true → r'.result = r.result

theorem ActionRow.Later.refl (r : ActionRow) : r.Later r := ⟨rfl, .refl, fun _ => rfl⟩

theorem ActionRow.Later.trans {a b c : ActionRow} (hab : a.Later b) (hbc : b.Later c) :
    a.Later c where
  subject := hbc.subject.trans hab.subject
  status := Relation.ReflTransGen.trans hab.status hbc.status
  result ha := by
    have hb : b.status = a.status := hab.status.final ha
    rw [hbc.result (by rw [hb]; exact ha), hab.result ha]

theorem ActionRow.Later.id_eq {r r' : ActionRow} (h : r.Later r') : r'.id = r.id := by
  have hid : r'.subject.id = r.subject.id := by rw [h.subject]
  exact hid

theorem ActionRow.Later.final {r r' : ActionRow} (h : r.Later r') (hr : r.status.isFinal = true) :
    r'.status = r.status ∧ r'.result = r.result :=
  ⟨h.status.final hr, h.result hr⟩

/-- **One statement about a row**: its subject stays, and its status moves along
the machine or not at all. -/
structure ActionRow.Change (r r' : ActionRow) : Prop where
  subject : r'.subject = r.subject
  status : r'.status = r.status ∨ r'.status ∈ r.status.next
  result : r.status.isFinal = true → r'.result = r.result

theorem ActionRow.Change.later {r r' : ActionRow} (h : r.Change r') : r.Later r' where
  subject := h.subject
  status := by
    rcases h.status with hs | hs
    · rw [hs]
      exact .refl
    · exact .single hs
  result := h.result

theorem ActionRow.Change.id_eq {r r' : ActionRow} (h : r.Change r') : r'.id = r.id :=
  h.later.id_eq

/-! ## The statements on one row -/

@[simp] theorem ActionRow.with_subject (r : ActionRow) (v : Values) :
    (r.with v).subject = r.subject := rfl
@[simp] theorem ActionRow.with_status (r : ActionRow) (v : Values) :
    (r.with v).status = r.status := rfl
@[simp] theorem ActionRow.with_completedAt (r : ActionRow) (v : Values) :
    (r.with v).completedAt = r.completedAt := rfl
@[simp] theorem ActionRow.with_executionStartedAt (r : ActionRow) (v : Values) :
    (r.with v).executionStartedAt = r.executionStartedAt := rfl
@[simp] theorem ActionRow.moved_status (r : ActionRow) (now : Nat) (to' : ActionStatus)
    (v : Values) : (r.moved now to' v).status = to' := rfl
@[simp] theorem ActionRow.moved_executionStartedAt (r : ActionRow) (now : Nat)
    (to' : ActionStatus) (v : Values) :
    (r.moved now to' v).executionStartedAt = r.executionStartedAt := rfl

/-- `note` sets no result. -/
theorem ActionRow.with_change (r : ActionRow) {v : Values} (hv : v.result = none) :
    r.Change (r.with v) :=
  ⟨rfl, .inl rfl, fun _ => by rw [ActionRow.with, hv]; rfl⟩

theorem ActionRow.moved_change {r : ActionRow} (now : Nat) {to' : ActionStatus} (v : Values)
    (h : to' ∈ r.status.next) : r.Change (r.moved now to' v) where
  subject := rfl
  status := .inr h
  result hfinal := by
    rw [ActionStatus.next_final.mp hfinal] at h
    cases h

theorem ActionRow.begun_change {r : ActionRow} (now : Nat)
    (h : r.status = .approved ∨ r.status = .allowed) : r.Change (r.begun now) where
  subject := rfl
  status := .inr (by rcases h with h | h <;> rw [h] <;> simp [ActionRow.begun, ActionStatus.next])
  result hfinal := by rcases h with h | h <;> rw [h] at hfinal <;> cases hfinal

theorem ActionRow.answered_change {r : ActionRow} (now validUntil : Nat) (a : Answer)
    (h : r.status = .pending) : r.Change (r.answered now validUntil a) where
  subject := rfl
  status := .inr (by
    rw [h]
    cases ha : a.approve <;> simp [ActionRow.answered, ActionStatus.next, ha])
  result hfinal := by rw [h] at hfinal; cases hfinal

theorem ActionRow.expiredAt_change {r : ActionRow} (now : Nat) (h : r.status = .pending) :
    r.Change (r.expiredAt now) where
  subject := rfl
  status := .inr (by rw [h]; simp [ActionRow.expiredAt, ActionStatus.next])
  result hfinal := by rw [h] at hfinal; cases hfinal

end L1Agent
