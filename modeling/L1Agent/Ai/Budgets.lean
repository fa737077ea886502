import L1Agent.Ai.Accounted

/-! # The budgets of a run and of a day

A budget is checked before a request is sent, with what the request may need, and what it has used
is counted afterwards.  The counters are read from the record of calls each time, so a process may
end anywhere in between.

Every request takes one of a few courses (`Store.course`), and leaves one row at most
(`Store.leaves_cases`).  What it adds to a sum was within the budget when it was checked, so a run
stays within its budget (`run_within`), and a day within its own (`days_within`).  A refusal for a
budget is recorded (`Store.Refuses.recorded`), and ends the requests of its run
(`unsent_of_recorded`).

`budgets_kept` puts these together.  The last of them needs that the refusal can be recorded
(`Asked.Recordable`); `served_after_refusal` is a run in which its transaction fails.
-/
namespace L1Agent
open Decoded Interleaving
namespace Gateway

/-! ## One request and the tables -/

/-- A request, and what it meets. -/
structure Asked where
  provider : Provider
  request : Request
  /-- The transaction that reads the policy and the record is carried out. -/
  reads : Bool := true
  reply : Except Raised Completion
  /-- The transaction of the record is carried out. -/
  commits : Bool := true
  /-- The process ends after this many operations. -/
  ends : Option Nat := none
  /-- The clock, when the record is read and when it is written. -/
  checkedAt : Nat
  recordedAt : Nat

section
variable (tools : Tools) (s : Store) (a : Asked)

/-- What the operations of a request are answered. -/
def Store.answer : ∀ o : sig.Op, sig.Ans o
  | .refusal provider scope task neededTokens neededCost =>
    if a.reads = true then
      (.ok (Store.refusal tools { s with now := a.checkedAt } provider scope task neededTokens
        neededCost) : Except Raised (Option Reason × String))
    else .error databaseError
  | .complete .. => a.reply
  | .record row =>
    if a.commits = true ∧ row.Storable then (.ok () : Except Raised Unit)
    else .error databaseError

/-- The operations that a request carries out. -/
def Store.carriesOut : List Op :=
  let ops := (ask tools (some a.provider) a.request).ops (s.answer tools a)
  a.ends.elim ops ops.take

/-- The rows that these operations leave. -/
def Asked.leaves (ops : List Op) : List ModelCall :=
  ops.filterMap fun
    | .record row =>
      if a.commits = true ∧ row.Storable then some { row with createdAt := a.recordedAt } else none
    | _ => none

/-- The request reaches the provider. -/
def Store.Sends : Prop :=
  ∃ system user tool most, .complete system user tool most ∈ s.carriesOut tools a

/-- The tokens that a request may need. -/
def Asked.needed : Nat :=
  estimateTokens (sentText tools a.request).length + a.request.maxOutputTokens

/-- The request is refused because a budget does not suffice for it. -/
def Store.Refuses : Prop :=
  ∃ provider scope task neededTokens neededCost budget,
    .refusal provider scope task neededTokens neededCost ∈ s.carriesOut tools a ∧
      s.answer tools a (.refusal provider scope task neededTokens neededCost) =
        (.ok (some .overBudget, budget) : Except Raised (Option Reason × String))

/-- The refusal can be recorded: the process goes on to write it, the text that was not sent has a
UTF-8 form, the column takes the price of no tokens, the subject is text of the database, and the
transaction is carried out. -/
structure Asked.Recordable : Prop where
  goesOn : ∀ n, a.ends = some n → 2 ≤ n
  encodes : Encodes (sentText tools a.request)
  priced : ∃ micros, cost tools a.provider 0 0 = .ok micros ∧ 0 ≤ micros ∧ micros < 2 ^ 63
  subject : TakesText (a.request.scope.subject.take 200)
  commits : a.commits = true

/-- What meets a request, as far as its reply and its record go. -/
def Asked.surroundings : Surroundings := ⟨.ok (none, ""), a.reply, a.commits⟩

/-- The reply counts no more than was asked for: what it reports, and where it does not, the
estimate. -/
def Asked.Modest : Prop :=
  (counted tools a.request a.surroundings).1 + (counted tools a.request a.surroundings).2 ≤
    a.needed tools

end

/-! ## A sequence of requests -/

/-- What happens to the record of a tenant. -/
inductive Event where
  | asked (a : Asked)
  /-- Requests of other runs, at the same time, leave these rows. -/
  | others (rows : List ModelCall)

/-- The event is a request, or it is of other runs than this. -/
def Event.Apart (run : Nat) : Event → Prop
  | .asked _ => True
  | .others rows => ∀ row ∈ rows, row.runId ≠ some run

def Store.next (tools : Tools) (s : Store) : Event → Store
  | .asked a => { s with calls := s.calls ++ a.leaves (s.carriesOut tools a) }
  | .others rows => { s with calls := s.calls ++ rows }

/-- The tables after these events, from an empty record on. -/
def recordAfter (tools : Tools) (policy : ModelPolicy) (events : List Event) : Store :=
  events.foldl (Store.next tools) { policy }

/-! ## What one request does -/

section
variable {tools : Tools} {provider : Provider} {request : Request} {w : ∀ o : sig.Op, sig.Ans o}
  {s : Store} {a : Asked}

/-- A row that a request which was sent may leave. -/
def Charged (tools : Tools) (request : Request) (reply : Except Raised Completion)
    (row : ModelCall) : Prop :=
  row.runId = request.scope.runId ∧ row.outcome ≠ .overBudget ∧
    row.inputTokens = (counted tools request ⟨.ok (none, ""), reply, true⟩).1 ∧
    row.outputTokens = (counted tools request ⟨.ok (none, ""), reply, true⟩).2

/-- The operations write nothing, or the one row that charges the request. -/
def ChargesOnce (tools : Tools) (request : Request) (reply : Except Raised Completion)
    (ops : List Op) : Prop :=
  ∃ rows : List ModelCall, ops = rows.map .record ∧ rows.length ≤ 1 ∧
    ∀ row ∈ rows, Charged tools request reply row

theorem chargesOnce_recordCall {reply : Except Raised Completion} {out : Text}
    {answer : Option Value} {inputTokens outputTokens : Nat} {outcome : Outcome} {detail : String}
    (houtcome : outcome ≠ .overBudget)
    (hcounted : counted tools request ⟨.ok (none, ""), reply, true⟩ =
      (inputTokens, outputTokens)) :
    ChargesOnce tools request reply ((recordCall tools provider request out answer inputTokens
      outputTokens outcome detail).ops w) := by
  rw [ops_recordCall]
  cases hrow : recordRow tools provider request out answer inputTokens outputTokens outcome
      detail with
  | error e => exact ⟨[], rfl, Nat.zero_le _, fun row h => absurd h List.not_mem_nil⟩
  | ok row =>
    obtain ⟨hrun, -, hinput, houtput, hsame, -⟩ := recordRow_ok hrow
    refine ⟨[row], rfl, Nat.le_refl _, fun row' h => ?_⟩
    cases List.mem_singleton.mp h
    exact ⟨hrun, hsame ▸ houtcome, by rw [hcounted, hinput], by rw [hcounted, houtput]⟩

/-- **A request that is sent is charged once, or not at all.** -/
theorem ops_send {user : Text} {reply : Except Raised Completion}
    (hreply : ∀ system user tool most, w (.complete system user tool most) = reply) :
    ∃ ops, (send tools provider request user (sentText tools request)).ops w =
        .complete request.prompt.system user
          ⟨request.prompt.tool, request.prompt.toolDescription, request.parameters⟩
          request.maxOutputTokens :: ops ∧ ChargesOnce tools request reply ops := by
  unfold send
  refine ⟨_, rfl, ?_⟩
  dsimp only [Program.bind]
  rw [hreply]
  cases reply with
  | error exn =>
    dsimp only
    rw [Program.ops_bind_ret]
    exact chargesOnce_recordCall (by decide) rfl
  | ok completion =>
    dsimp only
    unfold settle
    rw [Program.ops_ofExcept_bind]
    cases hread : readAnswer tools request completion with
    | error e => exact ⟨[], rfl, Nat.zero_le _, fun row h => absurd h List.not_mem_nil⟩
    | ok r =>
      obtain ⟨found, written⟩ := r
      obtain ⟨-, hwritten⟩ := readAnswer_ok hread
      obtain ⟨-, rfl⟩ := answered_ok.mp hwritten
      dsimp only
      rw [Program.ops_bind_ret]
      refine chargesOnce_recordCall ?_ rfl
      split
      · decide
      · decide

/-- What the check finds, for a request that may cost this much. -/
def Store.verdict (tools : Tools) (s : Store) (a : Asked) (neededCost : Int) :
    Option Reason × String :=
  Store.refusal tools { s with now := a.checkedAt } a.provider a.request.scope
    a.request.prompt.task (a.needed tools) neededCost

/-- The check of a request. -/
def Asked.check (tools : Tools) (a : Asked) (neededCost : Int) : Op :=
  .refusal a.provider a.request.scope a.request.prompt.task (a.needed tools) neededCost

/-- What a request does unless the process ends: nothing; it is checked and not allowed, and when
that is for want of a budget it is recorded; or it is sent and charged. -/
inductive Course (tools : Tools) (s : Store) (a : Asked) : List Op → Prop where
  | nothing : Course tools s a []
  | stopped (neededCost : Int) (h : ∀ budget, s.answer tools a (a.check tools neededCost) ≠
      (.ok (some .overBudget, budget) : Except Raised (Option Reason × String))) :
      Course tools s a [a.check tools neededCost]
  | refused (neededCost : Int) (budget : String)
      (h : s.verdict tools a neededCost = (some .overBudget, budget)) :
      Course tools s a (a.check tools neededCost ::
        (recordCall tools a.provider a.request (sentText tools a.request) none 0 0 .overBudget
          budget).ops (s.answer tools a))
  | sent (neededCost : Int) (h : (s.verdict tools a neededCost).1 = none) (system user : Text)
      (tool : ToolSpec) (most : Nat) (ops : List Op)
      (hops : ChargesOnce tools a.request a.reply ops) :
      Course tools s a (a.check tools neededCost :: .complete system user tool most :: ops)

/-- **Every request takes one of these courses.** -/
theorem Store.course : Course tools s a ((ask tools (some a.provider) a.request).ops
    (s.answer tools a)) := by
  rcases ask_cases (s.answer tools a) with hnone | ⟨user, neededCost, hschema, huser, hout, hcost⟩
  · rw [hnone]
    exact .nothing
  by_cases hreads : a.reads = true
  · have hanswer : s.answer tools a (a.check tools neededCost) =
        (.ok (s.verdict tools a neededCost) : Except Raised (Option Reason × String)) :=
      if_pos hreads
    rw [ask_ops hschema huser hout hcost hanswer, Program.ops_ofExcept_bind]
    dsimp only
    cases hverdict : s.verdict tools a neededCost with
    | mk reason budget =>
      cases reason with
      | none =>
        obtain ⟨ops, hsend, hcharged⟩ : ∃ ops, (send tools a.provider a.request user
            (sentText tools a.request)).ops (s.answer tools a) = .complete a.request.prompt.system
              user ⟨a.request.prompt.tool, a.request.prompt.toolDescription, a.request.parameters⟩
              a.request.maxOutputTokens :: ops ∧ ChargesOnce tools a.request a.reply ops :=
          ops_send fun _ _ _ _ => rfl
        dsimp only [proceed]
        rw [hsend]
        exact .sent neededCost (by rw [hverdict]) _ _ _ _ ops hcharged
      | some reason =>
        cases reason with
        | overBudget =>
          dsimp only [proceed]
          rw [Program.ops_bind_ret]
          exact .refused neededCost budget hverdict
        | modelOff | taskNotEnabled | providerNotAllowed | regionNotAllowed | retentionNotAllowed
          | budgetAlreadyExceeded =>
          refine .stopped neededCost fun budget' h => ?_
          rw [hanswer, hverdict] at h
          cases h
  · have hanswer : s.answer tools a (a.check tools neededCost) =
        (.error databaseError : Except Raised (Option Reason × String)) := if_neg hreads
    rw [ask_ops hschema huser hout hcost hanswer, Program.ops_ofExcept_bind]
    refine .stopped neededCost fun budget' h => ?_
    rw [hanswer] at h
    cases h

/-- The process may end on the way. -/
theorem Store.carriesOut_sublist : (s.carriesOut tools a).Sublist
    ((ask tools (some a.provider) a.request).ops (s.answer tools a)) := by
  unfold carriesOut
  dsimp only
  cases a.ends with
  | none => exact List.Sublist.refl _
  | some n => exact List.take_sublist _ _

theorem Asked.leaves_sublist {ops ops' : List Op} (h : ops.Sublist ops') :
    (a.leaves ops).Sublist (a.leaves ops') := h.filterMap _

/-- A row is left by an operation that writes it. -/
theorem Asked.mem_leaves {ops : List Op} {row : ModelCall} (h : row ∈ a.leaves ops) :
    ∃ row', .record row' ∈ ops ∧ row = { row' with createdAt := a.recordedAt } := by
  obtain ⟨o, ho, hrow⟩ := List.mem_filterMap.mp h
  cases o with
  | record row' =>
    dsimp only at hrow
    split at hrow
    · cases hrow
      exact ⟨row', ho, rfl⟩
    · cases hrow
  | refusal => cases hrow
  | complete => cases hrow

/-- What a request that was allowed may leave. -/
def Spends (tools : Tools) (s : Store) (a : Asked) (row : ModelCall) : Prop :=
  ∃ neededCost, (s.verdict tools a neededCost).1 = none ∧
    row.tokens = (counted tools a.request a.surroundings).1 +
      (counted tools a.request a.surroundings).2

/-- **A request leaves one row at most**, of its own run: without tokens, or with those of a request
that was allowed. -/
theorem Store.leaves_cases : a.leaves (s.carriesOut tools a) = [] ∨ ∃ row,
    a.leaves (s.carriesOut tools a) = [row] ∧ row.runId = a.request.scope.runId ∧
      row.createdAt = a.recordedAt ∧ (row.tokens = 0 ∨ Spends tools s a row) := by
  have hsub : (a.leaves (s.carriesOut tools a)).Sublist (a.leaves _) :=
    Asked.leaves_sublist Store.carriesOut_sublist
  have hcourse : Course tools s a _ := Store.course
  generalize (ask tools (some a.provider) a.request).ops (s.answer tools a) = ops at hsub hcourse
  have hone : (a.leaves ops).length ≤ 1 ∧ ∀ row ∈ a.leaves ops,
      row.runId = a.request.scope.runId ∧ row.createdAt = a.recordedAt ∧
        (row.tokens = 0 ∨ Spends tools s a row) := by
    cases hcourse with
    | nothing => exact ⟨Nat.zero_le _, fun row h => absurd h List.not_mem_nil⟩
    | stopped => exact ⟨Nat.zero_le _, fun row h => absurd h List.not_mem_nil⟩
    | refused neededCost budget hverdict =>
      rw [ops_recordCall]
      cases hrow : recordRow tools a.provider a.request (sentText tools a.request) none 0 0
          .overBudget budget with
      | error e => exact ⟨Nat.zero_le _, fun row h => absurd h List.not_mem_nil⟩
      | ok made =>
        obtain ⟨hrun, -, hinput, houtput, -, -⟩ := recordRow_ok hrow
        have hlength : (a.leaves [Op.record made]).length ≤ 1 := List.length_filterMap_le _ _
        refine ⟨hlength, fun row h => ?_⟩
        obtain ⟨row', hmem, rfl⟩ := Asked.mem_leaves h
        have hsame : row' = made := by simpa [Asked.check, Except.toOption] using hmem
        subst hsame
        refine ⟨hrun, rfl, .inl ?_⟩
        show row'.inputTokens + row'.outputTokens = 0
        rw [hinput, houtput]
    | sent neededCost hverdict system user tool most ops hops =>
      obtain ⟨rows, rfl, hlength, hcharged⟩ := hops
      refine ⟨?_, fun row h => ?_⟩
      · refine Nat.le_trans (List.length_filterMap_le _ (rows.map Op.record)) ?_
        rw [List.length_map]
        exact hlength
      · obtain ⟨row', hmem, rfl⟩ := Asked.mem_leaves h
        have hmade : row' ∈ rows := by simpa [Asked.check] using hmem
        obtain ⟨hrun, -, hinput, houtput⟩ := hcharged row' hmade
        refine ⟨hrun, rfl, .inr ⟨neededCost, hverdict, ?_⟩⟩
        show row'.inputTokens + row'.outputTokens = _
        rw [hinput, houtput]
        rfl
  cases hleaves : a.leaves (s.carriesOut tools a) with
  | nil => exact .inl rfl
  | cons row rest =>
    rw [hleaves] at hsub
    have hlength := hsub.length_le
    have hrest : rest = [] := by
      rw [List.length_cons] at hlength
      exact List.eq_nil_of_length_eq_zero (by omega)
    subst hrest
    exact .inr ⟨row, rfl, hone.2 row (hsub.subset List.mem_cons_self)⟩

/-- **Only an allowed request is sent.** -/
theorem Store.Sends.allowed (h : s.Sends tools a) :
    ∃ neededCost, (s.verdict tools a neededCost).1 = none := by
  obtain ⟨system, user, tool, most, hmem⟩ := h
  replace hmem := Store.carriesOut_sublist.subset hmem
  have hcourse : Course tools s a _ := Store.course
  generalize (ask tools (some a.provider) a.request).ops (s.answer tools a) = ops at hmem hcourse
  cases hcourse with
  | nothing => exact absurd hmem List.not_mem_nil
  | stopped => simp [Asked.check] at hmem
  | refused neededCost budget hverdict =>
    rcases List.mem_cons.mp hmem with hmem | hmem
    · cases hmem
    · simp [ops_recordCall] at hmem
  | sent neededCost hverdict => exact ⟨neededCost, hverdict⟩

/-- The row of a refusal can be made and stored. -/
theorem Asked.Recordable.row (h : a.Recordable tools) (budget : String) : ∃ row,
    recordRow tools a.provider a.request (sentText tools a.request) none 0 0 .overBudget budget =
      .ok row ∧ row.Storable ∧ row.runId = a.request.scope.runId ∧ row.outcome = .overBudget := by
  obtain ⟨micros, hmicros, hpositive, hcost⟩ := h.priced
  have hdepth : ∀ v, (none : Option Value) = some v → v.depth ≤ tools.room := by
    intro v hv
    cases hv
  obtain ⟨row, hrow⟩ : ∃ row, recordRow tools a.provider a.request (sentText tools a.request) none
      0 0 .overBudget budget = .ok row := (recordRow_isOk hdepth).mpr ⟨h.encodes, micros, hmicros⟩
  obtain ⟨hrun, hsubject, hinput, houtput, houtcome, hpriced⟩ := recordRow_ok hrow
  have hsame : row.costMicros = micros := Except.ok.inj (hpriced.symm.trans hmicros)
  refine ⟨row, hrow, ?_, hrun, houtcome⟩
  unfold ModelCall.Storable
  rw [hinput, houtput, hsubject, hsame]
  exact ⟨by decide, by decide, hpositive, hcost, h.subject⟩

/-- **A refusal for a budget is on record**, when it can be recorded. -/
theorem Store.Refuses.recorded (h : s.Refuses tools a) (hcan : a.Recordable tools) :
    ∃ row ∈ a.leaves (s.carriesOut tools a), row.runId = a.request.scope.runId ∧
      row.outcome = .overBudget := by
  obtain ⟨provider, scope, task, neededTokens, neededCost, budget, hmem, hanswer⟩ := h
  replace hmem := Store.carriesOut_sublist.subset hmem
  have hcourse : Course tools s a _ := Store.course
  have hcarries : s.carriesOut tools a = a.ends.elim
      ((ask tools (some a.provider) a.request).ops (s.answer tools a))
      ((ask tools (some a.provider) a.request).ops (s.answer tools a)).take := rfl
  generalize (ask tools (some a.provider) a.request).ops (s.answer tools a) = ops
    at hmem hcourse hcarries
  cases hcourse with
  | nothing => exact absurd hmem List.not_mem_nil
  | stopped neededCost' hnot =>
    unfold Asked.check at hmem
    cases List.mem_singleton.mp hmem
    exact absurd hanswer (hnot budget)
  | refused neededCost' budget' hverdict =>
    obtain ⟨row, hrow, hstorable, hrun, houtcome⟩ := hcan.row budget'
    rw [ops_recordCall, hrow] at hcarries
    have hall : s.carriesOut tools a = [a.check tools neededCost', .record row] := by
      rw [hcarries]
      cases hends : a.ends with
      | none => rfl
      | some n => exact List.take_of_length_le (hcan.goesOn n hends)
    refine ⟨{ row with createdAt := a.recordedAt }, ?_, hrun, houtcome⟩
    rw [hall]
    refine List.mem_filterMap.mpr ⟨.record row, by simp, ?_⟩
    exact if_pos ⟨hcan.commits, hstorable⟩
  | sent neededCost' hverdict system user tool most ops hops =>
    obtain ⟨rows, rfl, -, -⟩ := hops
    have hsame : .refusal provider scope task neededTokens neededCost =
        a.check tools neededCost' := by simpa using hmem
    unfold Asked.check at hsame
    cases hsame
    have hcheck : s.answer tools a (a.check tools neededCost) = if a.reads = true then
        (.ok (s.verdict tools a neededCost) : Except Raised (Option Reason × String))
      else .error databaseError := rfl
    replace hanswer := hcheck.symm.trans hanswer
    split at hanswer
    · rw [Except.ok.inj hanswer] at hverdict
      cases hverdict
    · cases hanswer

/-- What a request does that is checked, while the process goes on. -/
theorem Store.carriesOut_of {user : Text} {neededCost : Int}
    (hschema : checkSchema a.request.parameters = .ok ())
    (huser : a.request.user = .ok user)
    (hout : outbound tools a.request user = .ok (sentText tools a.request))
    (hcost : cost tools a.provider (estimateTokens (sentText tools a.request).length)
      a.request.maxOutputTokens = .ok neededCost)
    (hreads : a.reads = true) (hends : a.ends = none) :
    s.carriesOut tools a = a.check tools neededCost ::
      (proceed tools a.provider a.request user (sentText tools a.request)
        (s.verdict tools a neededCost)).ops (s.answer tools a) := by
  have hanswer : s.answer tools a (a.check tools neededCost) =
      (.ok (s.verdict tools a neededCost) : Except Raised (Option Reason × String)) :=
    if_pos hreads
  unfold carriesOut
  rw [hends, Option.elim_none, ask_ops hschema huser hout hcost hanswer,
    Program.ops_ofExcept_bind]
  rfl

theorem Store.Refuses.of {neededCost : Int} {budget : String}
    (h : a.check tools neededCost ∈ s.carriesOut tools a)
    (hreads : a.reads = true)
    (hverdict : s.verdict tools a neededCost = (some .overBudget, budget)) :
    s.Refuses tools a := by
  have hanswer : s.answer tools a (a.check tools neededCost) =
      (.ok (s.verdict tools a neededCost) : Except Raised (Option Reason × String)) :=
    if_pos hreads
  rw [hverdict] at hanswer
  exact ⟨a.provider, a.request.scope, a.request.prompt.task, a.needed tools, neededCost, budget, h,
    hanswer⟩

/-- Nothing is left when the transaction of the record fails. -/
theorem Asked.leaves_uncommitted (h : a.commits = false) (ops : List Op) : a.leaves ops = [] := by
  refine List.filterMap_eq_nil_iff.mpr fun o _ => ?_
  cases o with
  | record row => simp [h]
  | refusal => rfl
  | complete => rfl

/-! ## The sums -/

/-- The tokens of a day. -/
def dayTokens (calls : List ModelCall) (d : Nat) : Nat :=
  ((calls.filter fun row => row.createdAt / day = d).map ModelCall.tokens).sum

theorem dayTokens_append (calls rows : List ModelCall) (d : Nat) :
    dayTokens (calls ++ rows) d = dayTokens calls d + dayTokens rows d := by
  simp [dayTokens]

theorem spent_append (calls rows : List ModelCall) (runId : Option Nat) :
    (spent (calls ++ rows) runId).tokens =
      (spent calls runId).tokens + (spent rows runId).tokens := by
  simp [spent]

/-- Rows of other runs do not count. -/
theorem spent_others {rows : List ModelCall} {run : Nat} (h : ∀ row ∈ rows, row.runId ≠ some run) :
    (spent rows (some run)).tokens = 0 := by
  have hnone : rows.filter (fun row => ((some run).isNone || row.runId == some run) &&
      (none : Option Nat).all fun moment => moment ≤ row.createdAt) = [] := by
    refine List.filter_eq_nil_iff.mpr fun row hrow => ?_
    simp [h row hrow]
  unfold spent
  dsimp only
  rw [hnone]
  rfl

theorem spent_singleton (row : ModelCall) (runId : Option Nat) :
    (spent [row] runId).tokens ≤ row.tokens := by
  unfold spent
  dsimp only
  rw [List.filter_cons]
  split <;> simp

theorem dayTokens_singleton (row : ModelCall) (d : Nat) :
    dayTokens [row] d = if row.createdAt / day = d then row.tokens else 0 := by
  unfold dayTokens
  rw [List.filter_cons]
  by_cases h : row.createdAt / day = d
  · simp [h]
  · simp [h]

/-- What is counted from midnight on is the tokens of the day, when no row is of a later one. -/
theorem spent_today {calls : List ModelCall} {now : Nat} (h : ∀ row ∈ calls, row.createdAt ≤ now) :
    (spent calls none (some (startOfDay now))).tokens = dayTokens calls (now / day) := by
  unfold spent dayTokens
  dsimp only
  refine congrArg (fun rows => (List.map ModelCall.tokens rows).sum)
    (List.filter_congr fun row hrow => ?_)
  have hnow := h row hrow
  have hmidnight : startOfDay now ≤ row.createdAt ↔ row.createdAt / day = now / day := by
    unfold startOfDay day
    omega
  simp [hmidnight]

/-- **What an allowed request needs is within the budgets.** -/
theorem refusal_none {provider : Provider} {scope : Scope} {task : String} {neededTokens : Nat}
    {neededCost : Int}
    (h : (Store.refusal tools s provider scope task neededTokens neededCost).1 = none) :
    (∀ run, scope.runId = some run → stopped s.calls run = false ∧
      (spent s.calls (some run)).tokens + neededTokens ≤ s.policy.incidentTokens) ∧
    (spent s.calls none (some (startOfDay s.now))).tokens + neededTokens ≤
      s.policy.dailyTokens := by
  unfold Store.refusal at h
  cases hpermits : permits tools s.policy provider task with
  | some reason =>
    rw [hpermits] at h
    cases h
  | none =>
    rw [hpermits] at h
    dsimp only at h
    by_cases hstopped : (scope.runId.any fun run => stopped s.calls run) = true
    · rw [if_pos hstopped] at h
      cases h
    rw [if_neg hstopped] at h
    dsimp only at h
    by_cases hincident : s.policy.incidentTokens <
        (if scope.runId.isSome then spent s.calls scope.runId else {}).tokens + neededTokens
    · simp [hincident] at h
    by_cases hdaily : s.policy.dailyTokens <
        (spent s.calls none (some (startOfDay s.now))).tokens + neededTokens
    · simp [hincident, hdaily] at h
    refine ⟨fun run hrun => ?_, Nat.le_of_not_lt hdaily⟩
    rw [hrun] at hstopped hincident
    exact ⟨by simpa using hstopped, Nat.le_of_not_lt hincident⟩

/-- A request that spends spends no more than it needs. -/
theorem Spends.tokens_le {row : ModelCall} (h : Spends tools s a row) (hmodest : a.Modest tools) :
    row.tokens ≤ a.needed tools := by
  obtain ⟨neededCost, -, htokens⟩ := h
  rw [htokens]
  exact hmodest

/-- **A request keeps its run within its budget.** -/
theorem Store.run_next {run : Nat} (hmodest : a.request.scope.runId = some run → a.Modest tools)
    (h : (spent s.calls (some run)).tokens ≤ s.policy.incidentTokens) :
    (spent (s.next tools (.asked a)).calls (some run)).tokens ≤ s.policy.incidentTokens := by
  show (spent (s.calls ++ a.leaves (s.carriesOut tools a)) (some run)).tokens ≤ _
  rw [spent_append]
  have hleaves : a.leaves (s.carriesOut tools a) = [] ∨ _ := Store.leaves_cases
  rcases hleaves with hnone | ⟨row, hrow, hrun, -, hspends⟩
  · rw [hnone]
    exact h
  · rw [hrow]
    have hrowTokens := spent_singleton row (some run)
    by_cases hmine : a.request.scope.runId = some run
    · rcases hspends with hzero | hspends
      · omega
      · have htokens := hspends.tokens_le (hmodest hmine)
        obtain ⟨neededCost, hverdict, -⟩ := hspends
        have hwithin := ((refusal_none hverdict).1 run hmine).2
        dsimp only at hwithin
        omega
    · have hothers : (spent [row] (some run)).tokens = 0 := by
        refine spent_others fun row' hrow' => ?_
        cases List.mem_singleton.mp hrow'
        rw [hrun]
        exact hmine
      omega

/-- **A request keeps each day within its budget**, when it is not before what is on record. -/
theorem Store.day_next (hmodest : a.Modest tools) (hclock : a.checkedAt ≤ a.recordedAt)
    (hpast : ∀ row ∈ s.calls, row.createdAt ≤ a.checkedAt) {d : Nat}
    (h : dayTokens s.calls d ≤ s.policy.dailyTokens) :
    dayTokens (s.next tools (.asked a)).calls d ≤ s.policy.dailyTokens := by
  show dayTokens (s.calls ++ a.leaves (s.carriesOut tools a)) d ≤ _
  rw [dayTokens_append]
  have hleaves : a.leaves (s.carriesOut tools a) = [] ∨ _ := Store.leaves_cases
  rcases hleaves with hnone | ⟨row, hrow, -, hcreated, hspends⟩
  · rw [hnone]
    exact h
  · rw [hrow, dayTokens_singleton, hcreated]
    by_cases htoday : a.recordedAt / day = d
    · rw [if_pos htoday]
      rcases hspends with hzero | hspends
      · omega
      · have htokens := hspends.tokens_le hmodest
        obtain ⟨neededCost, hverdict, -⟩ := hspends
        have hwithin := (refusal_none hverdict).2
        have htodaySum : (spent s.calls none (some (startOfDay a.checkedAt))).tokens =
            dayTokens s.calls (a.checkedAt / day) := spent_today hpast
        dsimp only at hwithin
        rw [htodaySum] at hwithin
        by_cases hsame : a.checkedAt / day = d
        · rw [hsame] at hwithin
          omega
        · -- The row is of a later day than the check, on which nothing else is on record.
          have hnew : dayTokens s.calls d = 0 := by
            have hnone : s.calls.filter (fun row => row.createdAt / day = d) = [] := by
              refine List.filter_eq_nil_iff.mpr fun row' hrow' => ?_
              have hbefore := hpast row' hrow'
              have hdays := Nat.div_le_div_right (c := day) hbefore
              have hlater := Nat.div_le_div_right (c := day) hclock
              simp only [decide_eq_true_eq]
              omega
            unfold dayTokens
            rw [hnone]
            rfl
          omega
    · rw [if_neg htoday]
      omega

end

/-! ## A sequence of requests -/

section
variable {tools : Tools} {policy : ModelPolicy} {events : List Event}

theorem recordAfter_concat (e : Event) : recordAfter tools policy (events ++ [e]) =
    (recordAfter tools policy events).next tools e := by
  unfold recordAfter
  rw [List.foldl_append]
  rfl

theorem Store.next_policy (s : Store) (e : Event) : (s.next tools e).policy = s.policy := by
  cases e with
  | asked a => rfl
  | others rows => rfl

theorem recordAfter_policy : (recordAfter tools policy events).policy = policy := by
  induction events using List.reverseRecOn with
  | nil => rfl
  | append_singleton events e ih =>
    rw [recordAfter_concat, Store.next_policy]
    exact ih

/-- Nothing is taken from the record. -/
theorem Store.next_calls (s : Store) (e : Event) :
    ∃ rows, (s.next tools e).calls = s.calls ++ rows := by
  cases e with
  | asked a => exact ⟨_, rfl⟩
  | others rows => exact ⟨rows, rfl⟩

theorem recordAfter_calls {row : ModelCall} (h : row ∈ (recordAfter tools policy events).calls)
    (later : List Event) : row ∈ (recordAfter tools policy (events ++ later)).calls := by
  induction later using List.reverseRecOn with
  | nil =>
    rw [List.append_nil]
    exact h
  | append_singleton later e ih =>
    rw [← List.append_assoc, recordAfter_concat]
    obtain ⟨rows, hrows⟩ := Store.next_calls (recordAfter tools policy (events ++ later)) e
    rw [hrows]
    exact List.mem_append_left _ ih

/-- **A run stays within its budget.** -/
theorem run_within {run : Nat} (hapart : ∀ e ∈ events, e.Apart run)
    (hmodest : ∀ a, .asked a ∈ events → a.request.scope.runId = some run → a.Modest tools) :
    (spent (recordAfter tools policy events).calls (some run)).tokens ≤ policy.incidentTokens := by
  induction events using List.reverseRecOn with
  | nil => exact Nat.zero_le _
  | append_singleton events e ih =>
    have hbefore := ih (fun e h => hapart e (List.mem_append_left _ h))
      fun a h => hmodest a (List.mem_append_left _ h)
    have hlast : e ∈ events ++ [e] := List.mem_append_right _ List.mem_cons_self
    have hpolicy : (recordAfter tools policy events).policy = policy := recordAfter_policy
    rw [recordAfter_concat]
    cases e with
    | asked a =>
      have hkept := Store.run_next (s := recordAfter tools policy events) (hmodest a hlast)
      rw [hpolicy] at hkept
      exact hkept hbefore
    | others rows =>
      show (spent (_ ++ rows) (some run)).tokens ≤ _
      rw [spent_append, spent_others (hapart _ hlast)]
      exact hbefore

/-- The rows of requests are of the times at which they were recorded. -/
theorem created_of_mem {asks : List Asked} {row : ModelCall}
    (h : row ∈ (recordAfter tools policy (asks.map .asked)).calls) :
    ∃ a ∈ asks, row.createdAt = a.recordedAt := by
  induction asks using List.reverseRecOn with
  | nil => cases h
  | append_singleton asks a ih =>
    rw [List.map_append, List.map_singleton, recordAfter_concat] at h
    rcases List.mem_append.mp h with h | h
    · obtain ⟨b, hb, hrow⟩ := ih h
      exact ⟨b, List.mem_append_left _ hb, hrow⟩
    · obtain ⟨row', -, rfl⟩ := Asked.mem_leaves h
      exact ⟨a, List.mem_append_right _ List.mem_cons_self, rfl⟩

/-- **Each day stays within its budget**, when one request is recorded before the next is
checked. -/
theorem days_within {asks : List Asked} (hmodest : ∀ a ∈ asks, a.Modest tools)
    (hclock : ∀ a ∈ asks, a.checkedAt ≤ a.recordedAt)
    (horder : asks.Pairwise fun a b => a.recordedAt ≤ b.checkedAt) (d : Nat) :
    dayTokens (recordAfter tools policy (asks.map .asked)).calls d ≤ policy.dailyTokens := by
  induction asks using List.reverseRecOn with
  | nil => exact Nat.zero_le _
  | append_singleton asks a ih =>
    obtain ⟨horder, -, hlater⟩ := List.pairwise_append.mp horder
    have hlast : a ∈ asks ++ [a] := List.mem_append_right _ List.mem_cons_self
    have hbefore := ih (fun b hb => hmodest b (List.mem_append_left _ hb))
      (fun b hb => hclock b (List.mem_append_left _ hb)) horder
    have hpolicy : (recordAfter tools policy (asks.map .asked)).policy = policy :=
      recordAfter_policy
    have hpast : ∀ row ∈ (recordAfter tools policy (asks.map .asked)).calls,
        row.createdAt ≤ a.checkedAt := by
      intro row hrow
      obtain ⟨b, hb, hcreated⟩ := created_of_mem hrow
      rw [hcreated]
      exact hlater b hb a List.mem_cons_self
    have hkept := Store.day_next (hmodest a hlast) (hclock a hlast) hpast (d := d)
    rw [hpolicy] at hkept
    rw [List.map_append, List.map_singleton, recordAfter_concat]
    exact hkept hbefore

/-- **A recorded refusal ends the run's requests.** -/
theorem unsent_of_recorded {s : Store} {a : Asked} {run : Nat} {row : ModelCall}
    (hrow : row ∈ s.calls) (hrun : row.runId = some run) (houtcome : row.outcome = .overBudget)
    (ha : a.request.scope.runId = some run) : ¬s.Sends tools a := by
  intro hsends
  obtain ⟨neededCost, hverdict⟩ := hsends.allowed
  have hopen := ((refusal_none hverdict).1 run ha).1
  have hstopped : stopped s.calls run = true :=
    List.any_eq_true.mpr ⟨row, hrow, by simp [hrun, houtcome]⟩
  exact absurd (hstopped.symm.trans hopen) (by decide)

end

/-- **The budgets are kept.**  With replies that count no more than was asked for, a run stays
within its budget, whatever other runs do meanwhile, and each day stays within its own if the
requests do not overlap.  And after a request of a run that was refused for a budget no other of
that run reaches the provider, when the refusal can be recorded. -/
theorem budgets_kept (tools : Tools) (policy : ModelPolicy) :
    (∀ (events : List Event) (run : Nat), (∀ e ∈ events, e.Apart run) →
      (∀ a, .asked a ∈ events → a.request.scope.runId = some run → a.Modest tools) →
        (spent (recordAfter tools policy events).calls (some run)).tokens ≤
          policy.incidentTokens) ∧
    (∀ asks : List Asked, (∀ a ∈ asks, a.Modest tools) → (∀ a ∈ asks, a.checkedAt ≤ a.recordedAt) →
      (asks.Pairwise fun a b => a.recordedAt ≤ b.checkedAt) → ∀ d,
        dayTokens (recordAfter tools policy (asks.map .asked)).calls d ≤ policy.dailyTokens) ∧
    ∀ (events later : List Event) (a b : Asked) (run : Nat), a.request.scope.runId = some run →
      b.request.scope.runId = some run → (recordAfter tools policy events).Refuses tools a →
        a.Recordable tools →
          ¬(recordAfter tools policy (events ++ .asked a :: later)).Sends tools b := by
  refine ⟨fun events run => run_within, fun asks => days_within, ?_⟩
  intro events later a b run ha hb hrefuses hcan
  obtain ⟨row, hleft, hrun, houtcome⟩ := hrefuses.recorded hcan
  have hrow : row ∈ (recordAfter tools policy (events ++ [.asked a])).calls := by
    rw [recordAfter_concat]
    exact List.mem_append_right _ hleft
  have hlater := recordAfter_calls hrow later
  rw [List.append_assoc] at hlater
  exact unsent_of_recorded hlater (hrun.trans ha) houtcome hb

/-- A tenant whose runs have few tokens. -/
def samplePolicy : ModelPolicy where
  enabled := true
  providers := ["openai_compatible"]
  tasks := ["rank"]
  incidentTokens := 1200

/-- A request for an answer of this many tokens. -/
def sampleAsk (most : Nat) (commits : Bool) : Asked where
  provider := sampleProvider
  request := { sampleRequest with maxOutputTokens := most }
  reply := (answering 1).reply
  commits
  checkedAt := 0
  recordedAt := 1

theorem sample_carriesOut (s : Store) {most : Nat} (commits : Bool)
    (hcost : cost sampleTools sampleProvider
      (estimateTokens (sentText sampleTools (sampleAsk most commits).request).length) most = .ok 0) :
    s.carriesOut sampleTools (sampleAsk most commits) =
      (sampleAsk most commits).check sampleTools 0 ::
        (proceed sampleTools sampleProvider (sampleAsk most commits).request (text "disk full")
          (sentText sampleTools (sampleAsk most commits).request)
          (s.verdict sampleTools (sampleAsk most commits) 0)).ops
            (s.answer sampleTools (sampleAsk most commits)) :=
  Store.carriesOut_of rfl rfl rfl hcost rfl rfl

/-- A request for 1200 tokens is over the budget. -/
theorem sample_refused (commits : Bool) :
    (recordAfter sampleTools samplePolicy []).Refuses sampleTools (sampleAsk 1200 commits) := by
  have hcost : cost sampleTools sampleProvider
      (estimateTokens (sentText sampleTools (sampleAsk 1200 commits).request).length) 1200 =
      .ok 0 := by
    cases commits <;> decide +kernel
  have hops := sample_carriesOut (recordAfter sampleTools samplePolicy []) commits hcost
  have hverdict : (recordAfter sampleTools samplePolicy []).verdict sampleTools
      (sampleAsk 1200 commits) 0 = (some .overBudget, "incident_tokens") := by
    cases commits <;> decide +kernel
  refine Store.Refuses.of ?_ rfl hverdict
  rw [hops]
  exact List.mem_cons_self

theorem budgets_kept_sample :
    (spent (recordAfter sampleTools samplePolicy [.asked (sampleAsk 800 true)]).calls
      (some 7)).tokens ≤ 1200 ∧
    ¬(recordAfter sampleTools samplePolicy [.asked (sampleAsk 1200 true)]).Sends sampleTools
      (sampleAsk 800 true) := by
  have hkept := budgets_kept sampleTools samplePolicy
  refine ⟨hkept.1 [.asked (sampleAsk 800 true)] 7 ?_ ?_, ?_⟩
  · rintro e he
    cases List.mem_singleton.mp he
    trivial
  · intro a ha _
    cases List.mem_singleton.mp ha
    unfold Asked.Modest
    decide +kernel
  · refine hkept.2.2 [] [] _ _ 7 rfl rfl (sample_refused true) ?_
    exact ⟨fun n h => (nomatch h), by decide +kernel, ⟨0, by decide +kernel, by decide, by decide⟩,
      by decide +kernel, rfl⟩

/-- **A run can be served after a refusal.**  The transaction of the record fails; `ask` gives
no answer, as for any refusal, and a smaller request of the run is sent. -/
theorem served_after_refusal : ¬∀ (tools : Tools) (policy : ModelPolicy) (events later : List Event)
    (a b : Asked) (run : Nat), a.request.scope.runId = some run → b.request.scope.runId = some run →
      (recordAfter tools policy events).Refuses tools a →
        ¬(recordAfter tools policy (events ++ .asked a :: later)).Sends tools b := by
  intro hall
  refine hall sampleTools samplePolicy [] [] (sampleAsk 1200 false) (sampleAsk 800 true) 7 rfl rfl
    (sample_refused false) ?_
  have hrecord : recordAfter sampleTools samplePolicy [.asked (sampleAsk 1200 false)] =
      { policy := samplePolicy } := by
    show ({ policy := samplePolicy, calls := [] ++ Asked.leaves _ _ } : Store) = _
    rw [Asked.leaves_uncommitted rfl]
    rfl
  unfold Store.Sends
  show ∃ system user tool most, _ ∈ (recordAfter sampleTools samplePolicy
    [.asked (sampleAsk 1200 false)]).carriesOut sampleTools (sampleAsk 800 true)
  rw [hrecord, sample_carriesOut _ true (by decide +kernel)]
  have hverdict : Store.verdict sampleTools { policy := samplePolicy } (sampleAsk 800 true) 0 =
      (none, "") := by decide +kernel
  rw [hverdict]
  exact ⟨_, _, _, _, List.mem_cons_of_mem _ List.mem_cons_self⟩

end Gateway
end L1Agent
