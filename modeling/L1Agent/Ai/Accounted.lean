import L1Agent.Ai.Gateway

/-! # The account of a request

Between the reply of a provider and the row that charges it, the gateway reads the answer, writes
it out again, and digests what was sent.  Each of these may raise, and `ask` turns the exception
into no answer: then nothing is charged for the request.

Each operation is carried out at most once for a request, so what it meets is one answer to each
(`Surroundings`).

`requests_accounted` says that `ask` never raises, and exactly when a request that has been sent is
charged: when it is `Chargeable`, which is a condition on the request and on what it meets.  It is
put together from the request up to the sending (`Sent.cases`), what a reply leaves
(`left_settle_iff`) and the record itself (`left_recordCall_iff`).  `request_uncharged` is an answer
with an integer that is too large.
-/
namespace L1Agent
open Decoded Interleaving
namespace Gateway

/-- What a request meets. -/
structure Surroundings where
  refusal : Except Raised (Option Reason × String)
  /-- The reply, or the exception of the provider or of the time limit. -/
  reply : Except Raised Completion
  /-- The database carries out the transaction of the record. -/
  commits : Bool

/-- The database does not carry out a transaction. -/
def databaseError : Raised := ⟨"DBAPIError"⟩

/-- A row is written when its columns take it. -/
def Surroundings.answer (env : Surroundings) : ∀ o : sig.Op, sig.Ans o
  | .refusal .. => env.refusal
  | .complete .. => env.reply
  | .record row =>
    if env.commits = true ∧ row.Storable then (.ok () : Except Raised Unit)
    else .error databaseError

/-- The rows that these operations leave. -/
def Surroundings.left (env : Surroundings) (ops : List Op) : List ModelCall :=
  ops.filterMap fun
    | .record row => if env.commits = true ∧ row.Storable then some row else none
    | _ => none

section
variable (tools : Tools) (provider : Provider) (request : Request) (env : Surroundings)

/-- What a request carries out. -/
def carriedOut : List Op := (ask tools (some provider) request).ops env.answer

/-- The request has been sent to the provider. -/
def Sent : Prop := ∃ system user tool most, .complete system user tool most ∈
  carriedOut tools provider request env

/-- What is sent, as one text. -/
def sentText : Text := ((request.user.bind (outbound tools request)).toOption).getD []

/-- What the reply counts: what it reports, and otherwise an estimate. -/
def counted : Nat × Nat :=
  let estimate := estimateTokens (sentText tools request).length
  match env.reply with
  | .error _ => (estimate, 0)
  | .ok completion =>
    (completion.inputTokens.getD estimate,
      completion.outputTokens.getD (estimateTokens
        (completion.arguments.elim [] fun answer => answer.render tools.repr {}).length))

/-- The row charges the request to its run. -/
def Charges (row : ModelCall) : Prop :=
  row.runId = request.scope.runId ∧ row.inputTokens = (counted tools request env).1 ∧
    row.outputTokens = (counted tools request env).2

/-- **The request can be charged.**  The text that was sent has a UTF-8 form; no integer where the
schema asks for a number is too large for a float, and the answer is not nested too deeply to be
written out; the counts have a price, and the columns take them, the price and the subject; and the
database carries the transaction out. -/
structure Chargeable : Prop where
  encodes : Encodes (sentText tools request)
  numbers : ∀ completion answer, env.reply = .ok completion → completion.arguments = some answer →
    ∀ n ∈ request.parameters.numbers answer, ¬Overflows n
  nesting : ∀ completion answer, env.reply = .ok completion → completion.arguments = some answer →
    answer.depth ≤ tools.room
  priced : ∃ micros, cost tools provider (counted tools request env).1
    (counted tools request env).2 = .ok micros ∧ 0 ≤ micros ∧ micros < 2 ^ 63
  counts : (counted tools request env).1 < 2 ^ 31 ∧ (counted tools request env).2 < 2 ^ 31
  subject : TakesText (request.scope.subject.take 200)
  commits : env.commits = true

end

/-! ## What is recorded -/

section
variable {tools : Tools} {provider : Provider} {request : Request} {env : Surroundings}
  {out : Text} {answer : Option Value} {inputTokens outputTokens : Nat} {outcome : Outcome}
  {detail : String} {row : ModelCall}

theorem canonical_ok {v : Value} (h : v.depth ≤ tools.room) :
    ∃ t, canonical tools v = .ok t ∧ Encodes t := by
  unfold canonical Value.dumps
  rw [if_pos h]
  exact ⟨_, rfl, encodes_ofChars _⟩

/-- An answer that can be written out can be digested: it is written in ASCII. -/
theorem answerDigest_ok (h : ∀ v, answer = some v → v.depth ≤ tools.room) :
    ∃ digest, answerDigest tools answer = .ok digest := by
  cases answer with
  | none => exact ⟨"", rfl⟩
  | some v =>
    obtain ⟨t, ht, hencodes⟩ := canonical_ok (h v rfl)
    refine ⟨tools.sha256 t, ?_⟩
    rw [answerDigest, ht, ok_bind, sha256, if_pos hencodes]

/-- A row can be made when what was sent can be digested and what is counted has a price. -/
theorem recordRow_isOk (hdepth : ∀ v, answer = some v → v.depth ≤ tools.room) :
    (∃ row, recordRow tools provider request out answer inputTokens outputTokens outcome detail =
      .ok row) ↔ Encodes out ∧ ∃ micros, cost tools provider inputTokens outputTokens = .ok micros := by
  obtain ⟨digest, hdigest⟩ := answerDigest_ok hdepth
  unfold recordRow sha256
  rw [hdigest]
  by_cases hout : Encodes out
  · rw [if_pos hout]
    cases cost tools provider inputTokens outputTokens with
    | ok micros => exact iff_of_true ⟨_, rfl⟩ ⟨hout, micros, rfl⟩
    | error e =>
      exact iff_of_false (fun h => (nomatch h.choose_spec)) fun h => (nomatch h.2.choose_spec)
  · rw [if_neg hout]
    exact iff_of_false (fun h => (nomatch h.choose_spec)) fun h => hout h.1

theorem recordRow_ok (h : recordRow tools provider request out answer inputTokens outputTokens
    outcome detail = .ok row) :
    row.runId = request.scope.runId ∧ row.subject = request.scope.subject.take 200 ∧
      row.inputTokens = inputTokens ∧ row.outputTokens = outputTokens ∧ row.outcome = outcome ∧
      cost tools provider inputTokens outputTokens = .ok row.costMicros := by
  unfold recordRow at h
  obtain ⟨inputDigest, -, h⟩ := ok_of_bind h
  obtain ⟨outputDigest, -, h⟩ := ok_of_bind h
  obtain ⟨micros, hcost, h⟩ := ok_of_bind h
  cases h
  exact ⟨rfl, rfl, rfl, rfl, rfl, hcost⟩

/-- Recording writes the row, if it can be made. -/
theorem ops_recordCall {w : ∀ o : sig.Op, sig.Ans o} :
    (recordCall tools provider request out answer inputTokens outputTokens outcome detail).ops w =
      ((recordRow tools provider request out answer inputTokens outputTokens outcome
        detail).toOption.map Op.record).toList := by
  unfold recordCall
  rw [Program.ops_ofExcept_bind]
  cases recordRow tools provider request out answer inputTokens outputTokens outcome detail with
  | error e => rfl
  | ok row =>
    show .record row :: Program.ops w (.ofExcept _) = _
    rw [Program.ops_ofExcept]
    rfl

/-- What a call leaves when the row of the record can be made, and its columns take it. -/
theorem left_recordCall :
    env.left ((recordCall tools provider request out answer inputTokens outputTokens outcome
      detail).ops env.answer) =
      match recordRow tools provider request out answer inputTokens outputTokens outcome detail with
      | .ok row => if env.commits = true ∧ row.Storable then [row] else []
      | .error _ => [] := by
  rw [ops_recordCall]
  cases recordRow tools provider request out answer inputTokens outputTokens outcome detail with
  | error e => rfl
  | ok row =>
    show List.filterMap _ [Op.record row] = _
    dsimp only
    by_cases h : env.commits = true ∧ row.Storable
    · rw [if_pos h]
      exact List.filterMap_cons_some (if_pos h)
    · rw [if_neg h]
      exact List.filterMap_cons_none (if_neg h)

/-- **One row is left exactly when it can be made and stored.** -/
theorem left_recordCall_iff (hdepth : ∀ v, answer = some v → v.depth ≤ tools.room) :
    (∃ row, env.left ((recordCall tools provider request out answer inputTokens outputTokens outcome
      detail).ops env.answer) = [row] ∧ row.runId = request.scope.runId ∧
        row.inputTokens = inputTokens ∧ row.outputTokens = outputTokens) ↔
      Encodes out ∧ (∃ micros, cost tools provider inputTokens outputTokens = .ok micros ∧
        0 ≤ micros ∧ micros < 2 ^ 63) ∧ (inputTokens < 2 ^ 31 ∧ outputTokens < 2 ^ 31) ∧
      TakesText (request.scope.subject.take 200) ∧ env.commits = true := by
  rw [left_recordCall]
  constructor
  · rintro ⟨row, hleft, -, -, -⟩
    cases hrow : recordRow tools provider request out answer inputTokens outputTokens outcome
        detail with
    | error e =>
      rw [hrow] at hleft
      cases hleft
    | ok made =>
      rw [hrow] at hleft
      dsimp only at hleft
      split at hleft
      · rename_i hstored
        obtain ⟨hcommits, hinput, houtput, hpositive, hcost, hsubject⟩ := hstored
        obtain ⟨-, hsubjectEq, hinputEq, houtputEq, -, hpriced⟩ := recordRow_ok hrow
        rw [hinputEq] at hinput
        rw [houtputEq] at houtput
        rw [hsubjectEq] at hsubject
        exact ⟨((recordRow_isOk hdepth).mp ⟨made, hrow⟩).1, ⟨_, hpriced, hpositive, hcost⟩,
          ⟨hinput, houtput⟩, hsubject, hcommits⟩
      · cases hleft
  · rintro ⟨hencodes, ⟨micros, hmicros, hpositive, hcost⟩, ⟨hinput, houtput⟩, hsubject, hcommits⟩
    obtain ⟨row, hrow⟩ : ∃ row, recordRow tools provider request out answer inputTokens outputTokens
        outcome detail = .ok row := (recordRow_isOk hdepth).mpr ⟨hencodes, micros, hmicros⟩
    obtain ⟨hrun, hsubjectEq, hinputEq, houtputEq, -, hpriced⟩ := recordRow_ok hrow
    have hsame : row.costMicros = micros := Except.ok.inj (hpriced.symm.trans hmicros)
    have hstored : env.commits = true ∧ row.Storable := by
      refine ⟨hcommits, ?_⟩
      unfold ModelCall.Storable
      rw [hinputEq, houtputEq, hsubjectEq, hsame]
      exact ⟨hinput, houtput, hpositive, hcost, hsubject⟩
    refine ⟨row, ?_, hrun, hinputEq, houtputEq⟩
    rw [hrow]
    exact if_pos hstored

/-- An answer is written out as long as it is not nested too deeply. -/
theorem answered_ok {written : List Char} :
    answered tools answer = .ok written ↔
      (∀ v, answer = some v → v.depth ≤ tools.room) ∧
        written = answer.elim [] fun v => v.render tools.repr {} := by
  cases answer with
  | none =>
    constructor
    · intro h
      refine ⟨fun v hv => ?_, (Except.ok.inj h).symm⟩
      cases hv
    · rintro ⟨-, rfl⟩
      rfl
  | some v =>
    unfold answered dumps Value.dumps
    by_cases hdepth : v.depth ≤ tools.room
    · dsimp only
      rw [if_pos hdepth]
      constructor
      · intro h
        refine ⟨fun v' hv' => ?_, (Except.ok.inj h).symm⟩
        cases hv'
        exact hdepth
      · rintro ⟨-, rfl⟩
        rfl
    · dsimp only
      rw [if_neg hdepth]
      refine ⟨fun h => ?_, fun h => absurd (h.1 v rfl) hdepth⟩
      cases h

/-- The problems of an answer are found unless an integer that is tested has no float. -/
theorem answerProblems_isOk (hschema : checkSchema request.parameters = .ok ()) :
    (answerProblems tools request answer).isOk = true ↔
      ∀ v, answer = some v → ∀ n ∈ request.parameters.numbers v, ¬Overflows n := by
  cases answer with
  | none => exact iff_of_true rfl fun v h => by cases h
  | some v =>
    have hproblems : (problems tools.fullmatch request.parameters v (text "\x24")).isOk = true ↔
        ∀ n ∈ request.parameters.numbers v, ¬Overflows n := problems_isOk _ _ _ hschema
    rw [answerProblems, hproblems]
    constructor
    · intro h v' hv'
      cases hv'
      exact h
    · exact fun h => h v rfl

/-- **What is read of a reply**, unless it raises. -/
theorem readAnswer_ok {completion : Completion} {found : List Text} {written : List Char}
    (h : readAnswer tools request completion = .ok (found, written)) :
    (answerProblems tools request completion.arguments).isOk = true ∧
      answered tools completion.arguments = .ok written := by
  unfold readAnswer at h
  obtain ⟨found', hfound, h⟩ := ok_of_bind h
  obtain ⟨written', hwritten, h⟩ := ok_of_bind h
  cases h
  rw [hfound, hwritten]
  exact ⟨rfl, rfl⟩

theorem readAnswer_of_ok {completion : Completion} {written : List Char}
    (hfound : (answerProblems tools request completion.arguments).isOk = true)
    (hwritten : answered tools completion.arguments = .ok written) :
    ∃ found, readAnswer tools request completion = .ok (found, written) := by
  unfold readAnswer
  cases hproblems : answerProblems tools request completion.arguments with
  | error e =>
    rw [hproblems] at hfound
    cases hfound
  | ok found =>
    rw [ok_bind, hwritten, ok_bind]
    exact ⟨found, rfl⟩

/-- What is left of a request that was sent. -/
theorem left_send {user : Text} :
    env.left ((send tools provider request user out).ops env.answer) =
      match env.reply with
      | .error exn => env.left ((recordCall tools provider request out none
          (estimateTokens out.length) 0 .error exn.typeName).ops env.answer)
      | .ok completion => env.left ((settle tools provider request out completion).ops env.answer) := by
  unfold send
  rw [Program.ops_bind]
  show List.filterMap _ (.complete .. :: Program.ops env.answer (match env.reply with
    | .error exn => _
    | .ok completion => _)) = _
  rw [List.filterMap_cons_none rfl]
  cases env.reply with
  | error exn =>
    dsimp only
    rw [Program.ops_bind_ret]
    rfl
  | ok completion => rfl

/-- Recording sends nothing. -/
theorem recordCall_ops {o : Op} (h : o ∈ (recordCall tools provider request out answer inputTokens
    outputTokens outcome detail).ops env.answer) : ∃ row, o = .record row := by
  rw [ops_recordCall] at h
  cases hrow : recordRow tools provider request out answer inputTokens outputTokens outcome
      detail with
  | error e =>
    rw [hrow] at h
    cases h
  | ok row =>
    rw [hrow] at h
    exact ⟨row, List.mem_singleton.mp h⟩

/-- Only a permitted request is sent. -/
theorem left_proceed {user system user' : Text} {tool : ToolSpec} {most : Nat}
    {refusal : Option Reason × String} (h : Op.complete system user' tool most ∈
      (proceed tools provider request user out refusal).ops env.answer) :
    proceed tools provider request user out refusal = send tools provider request user out := by
  obtain ⟨reason, budget⟩ := refusal
  cases reason with
  | none => rfl
  | some reason =>
    cases reason with
    | overBudget =>
      unfold proceed at h
      rw [Program.ops_bind_ret] at h
      obtain ⟨row, hrow⟩ := recordCall_ops h
      cases hrow
    | modelOff | taskNotEnabled | providerNotAllowed | regionNotAllowed | retentionNotAllowed
      | budgetAlreadyExceeded => cases h

/-- **A request does nothing, or it has an accepted schema, a text and a price.** -/
theorem ask_cases (w : ∀ o : sig.Op, sig.Ans o) :
    (ask tools (some provider) request).ops w = [] ∨ ∃ user neededCost,
      checkSchema request.parameters = .ok () ∧ request.user = .ok user ∧
        outbound tools request user = .ok (sentText tools request) ∧
        cost tools provider (estimateTokens (sentText tools request).length)
          request.maxOutputTokens = .ok neededCost := by
  have hask : (ask tools (some provider) request).ops w =
      (askProvider tools provider request).ops w := Program.ops_tryCatch_ret _ _
  rw [hask]
  unfold askProvider
  rw [Program.ops_ofExcept_bind]
  cases checkSchema request.parameters with
  | error e => exact .inl rfl
  | ok u =>
    dsimp only
    rw [Program.ops_ofExcept_bind]
    cases huser : request.user with
    | error e => exact .inl rfl
    | ok user =>
      dsimp only
      rw [Program.ops_ofExcept_bind]
      cases hout : outbound tools request user with
      | error e => exact .inl rfl
      | ok out =>
        have htext : sentText tools request = out := by
          unfold sentText
          rw [huser, Except.bind, hout]
          rfl
        dsimp only
        rw [Program.ops_ofExcept_bind, htext]
        cases hcost : cost tools provider (estimateTokens out.length) request.maxOutputTokens with
        | error e => exact .inl rfl
        | ok neededCost => exact .inr ⟨user, neededCost, rfl, rfl, hout, rfl⟩

/-- **Then it is checked**, and goes on as the check says. -/
theorem ask_ops {w : ∀ o : sig.Op, sig.Ans o} {user : Text} {neededCost : Int}
    (hschema : checkSchema request.parameters = .ok ()) (huser : request.user = .ok user)
    (hout : outbound tools request user = .ok out)
    (hcost : cost tools provider (estimateTokens out.length) request.maxOutputTokens =
      .ok neededCost) {refusal : Except Raised (Option Reason × String)}
    (hrefusal : w (.refusal provider request.scope request.prompt.task
      (estimateTokens out.length + request.maxOutputTokens) neededCost) = refusal) :
    (ask tools (some provider) request).ops w =
      .refusal provider request.scope request.prompt.task
          (estimateTokens out.length + request.maxOutputTokens) neededCost ::
        ((Program.ofExcept refusal).bind (proceed tools provider request user out)).ops w := by
  have hask : (ask tools (some provider) request).ops w =
      (askProvider tools provider request).ops w := Program.ops_tryCatch_ret _ _
  rw [hask]
  unfold askProvider
  rw [Program.ops_ofExcept_bind, hschema]
  dsimp only
  rw [Program.ops_ofExcept_bind, huser]
  dsimp only
  rw [Program.ops_ofExcept_bind, hout]
  dsimp only
  rw [Program.ops_ofExcept_bind, hcost, ← hrefusal]
  rfl

/-- **A request that has been sent** had an accepted schema and a text; the rest of it is what
comes after sending. -/
theorem Sent.cases (h : Sent tools provider request env) :
    checkSchema request.parameters = .ok () ∧ ∃ user,
      env.left (carriedOut tools provider request env) =
        env.left ((send tools provider request user (sentText tools request)).ops env.answer) := by
  obtain ⟨system, user', tool, most, h⟩ := h
  unfold carriedOut at h ⊢
  rcases ask_cases env.answer with hnone | ⟨user, neededCost, hschema, huser, hout, hcost⟩
  · rw [hnone] at h
    cases h
  have hops : (ask tools (some provider) request).ops env.answer = .refusal .. ::
      ((Program.ofExcept env.refusal).bind _).ops env.answer :=
    ask_ops hschema huser hout hcost rfl
  refine ⟨hschema, user, ?_⟩
  rw [hops, Program.ops_ofExcept_bind] at h ⊢
  rcases List.mem_cons.mp h with h | h
  · cases h
  · cases hrefusal : env.refusal with
    | error e =>
      rw [hrefusal] at h
      cases h
    | ok refusal =>
      rw [hrefusal] at h
      dsimp only at h ⊢
      rw [left_proceed h]
      exact List.filterMap_cons_none rfl

/-- A request is sent that has an accepted schema, a text and a price, and that nothing refuses. -/
theorem Sent.of {user : Text} {neededCost : Int} {budget : String}
    (hschema : checkSchema request.parameters = .ok ()) (huser : request.user = .ok user)
    (hout : outbound tools request user = .ok out)
    (hcost : cost tools provider (estimateTokens out.length) request.maxOutputTokens =
      .ok neededCost) (hrefusal : env.refusal = .ok (none, budget)) :
    Sent tools provider request env := by
  unfold Sent carriedOut
  rw [ask_ops hschema huser hout hcost hrefusal, Program.ops_ofExcept_bind]
  exact ⟨_, _, _, _, List.mem_cons_of_mem _ (List.mem_cons_self ..)⟩

/-- **What a reply leaves is one row** that charges what it counts, exactly when it can be read and
the row can be made and stored. -/
theorem left_settle_iff {completion : Completion}
    (hschema : checkSchema request.parameters = .ok ()) :
    (∃ row, env.left ((settle tools provider request out completion).ops env.answer) = [row] ∧
      row.runId = request.scope.runId ∧
      row.inputTokens = completion.inputTokens.getD (estimateTokens out.length) ∧
      row.outputTokens = completion.outputTokens.getD (estimateTokens
        (completion.arguments.elim [] fun answer => answer.render tools.repr {}).length)) ↔
      ((∀ v, completion.arguments = some v → ∀ n ∈ request.parameters.numbers v, ¬Overflows n) ∧
        ∀ v, completion.arguments = some v → v.depth ≤ tools.room) ∧
      Encodes out ∧ (∃ micros, cost tools provider
        (completion.inputTokens.getD (estimateTokens out.length))
        (completion.outputTokens.getD (estimateTokens
          (completion.arguments.elim [] fun answer => answer.render tools.repr {}).length)) =
          .ok micros ∧ 0 ≤ micros ∧ micros < 2 ^ 63) ∧
      (completion.inputTokens.getD (estimateTokens out.length) < 2 ^ 31 ∧
        completion.outputTokens.getD (estimateTokens
          (completion.arguments.elim [] fun answer => answer.render tools.repr {}).length) <
          2 ^ 31) ∧
      TakesText (request.scope.subject.take 200) ∧ env.commits = true := by
  unfold settle
  rw [Program.ops_ofExcept_bind]
  cases hread : readAnswer tools request completion with
  | error e =>
    refine iff_of_false ?_ ?_
    · rintro ⟨row, hleft, -⟩
      cases hleft
    · rintro ⟨⟨hnumbers, hdepth⟩, -⟩
      obtain ⟨found, hok⟩ := readAnswer_of_ok ((answerProblems_isOk hschema).mpr hnumbers)
        (answered_ok.mpr ⟨hdepth, rfl⟩)
      rw [hread] at hok
      cases hok
  | ok r =>
    obtain ⟨found, written⟩ := r
    obtain ⟨hfound, hwritten⟩ := readAnswer_ok hread
    obtain ⟨hdepth, rfl⟩ := answered_ok.mp hwritten
    dsimp only
    rw [Program.ops_bind_ret, left_recordCall_iff]
    · exact (and_iff_right ⟨(answerProblems_isOk hschema).mp hfound, hdepth⟩).symm
    · split
      · exact hdepth
      · intro v hv
        cases hv

/-- **A request that has been sent is charged exactly when it can be**: it leaves one row, with the
run and the tokens of the request. -/
theorem charged_iff (h : Sent tools provider request env) :
    (∃ row, env.left (carriedOut tools provider request env) = [row] ∧
      Charges tools request env row) ↔ Chargeable tools provider request env := by
  obtain ⟨hschema, user, hleft⟩ := h.cases
  rw [hleft, left_send]
  unfold Charges
  cases hreply : env.reply with
  | error exn =>
    have hcounted : counted tools request env =
        (estimateTokens (sentText tools request).length, 0) := by
      unfold counted
      rw [hreply]
    dsimp only
    rw [hcounted, left_recordCall_iff]
    on_goal 2 =>
      intro v hv
      cases hv
    constructor
    · rintro ⟨hencodes, hpriced, hcounts, hsubject, hcommits⟩
      refine ⟨hencodes, fun _ _ hcompletion => ?_, fun _ _ hcompletion => ?_, ?_, ?_, hsubject,
        hcommits⟩
      · rw [hreply] at hcompletion
        cases hcompletion
      · rw [hreply] at hcompletion
        cases hcompletion
      · rwa [hcounted]
      · rwa [hcounted]
    · intro hcan
      have hpriced := hcan.priced
      have hcounts := hcan.counts
      rw [hcounted] at hpriced hcounts
      exact ⟨hcan.encodes, hpriced, hcounts, hcan.subject, hcan.commits⟩
  | ok completion =>
    have hcounted : counted tools request env =
        (completion.inputTokens.getD (estimateTokens (sentText tools request).length),
          completion.outputTokens.getD (estimateTokens
            (completion.arguments.elim [] fun answer => answer.render tools.repr {}).length)) := by
      unfold counted
      rw [hreply]
    dsimp only
    rw [hcounted, left_settle_iff hschema]
    constructor
    · rintro ⟨⟨hnumbers, hdepth⟩, hencodes, hpriced, hcounts, hsubject, hcommits⟩
      refine ⟨hencodes, fun completion' answer hcompletion => ?_,
        fun completion' answer hcompletion => ?_, ?_, ?_, hsubject, hcommits⟩
      · rw [hreply] at hcompletion
        cases hcompletion
        exact hnumbers answer
      · rw [hreply] at hcompletion
        cases hcompletion
        exact hdepth answer
      · rwa [hcounted]
      · rwa [hcounted]
    · intro hcan
      have hpriced := hcan.priced
      have hcounts := hcan.counts
      rw [hcounted] at hpriced hcounts
      exact ⟨⟨fun answer => hcan.numbers completion answer hreply,
        fun answer => hcan.nesting completion answer hreply⟩, hcan.encodes, hpriced, hcounts,
        hcan.subject, hcan.commits⟩

end

/-! ## Every request -/

/-- **`ask` never raises**, whatever its operations are answered. -/
theorem ask_answers (tools : Tools) (provider : Option Provider) (request : Request) :
    (ask tools provider request).Always fun r => ∃ answer, r = .ok answer := by
  cases provider with
  | none => exact ⟨none, rfl⟩
  | some provider =>
    refine Program.Always.tryCatch (Program.Always.trivial fun r => ?_)
    cases r with
    | ok answer => exact ⟨answer, rfl⟩
    | error e => exact ⟨none, rfl⟩

/-- **Every request is accounted for exactly when it can be charged.**  `ask` never raises; and a
request that has been sent leaves one row, which charges its tokens to its run, whether its answer
is used or not, just when nothing between the reply and the row raises. -/
theorem requests_accounted (tools : Tools) (request : Request) :
    (∀ provider, (ask tools provider request).Always fun r => ∃ answer, r = .ok answer) ∧
      ∀ provider env, Sent tools provider request env →
        ((∃ row, env.left (carriedOut tools provider request env) = [row] ∧
          Charges tools request env row) ↔ Chargeable tools provider request env) :=
  ⟨fun provider => ask_answers tools provider request, fun _ _ h => charged_iff h⟩

/-- A question that is answered by a number from 0 to 1. -/
def sampleRequest : Request where
  scope := ⟨some 7, text "INC1"⟩
  prompt := ⟨"rank", "1", "answer", "", text "Answer."⟩
  user := .ok (text "disk full")
  parameters := .object
    [(text "confidence", .number false (some (.int 0)) (some (.int 1)) [])] [] (some false) []
  maxOutputTokens := 100

def sampleTools : Tools where
  sha256 _ := ""
  repr _ := []
  nearest q := .finite q
  fullmatch _ _ := true
  lower s := s
  room := 100

def sampleProvider : Provider := { id := "openai_compatible", model := "m" }

/-- The provider answers with this number. -/
def answering (n : Int) : Surroundings where
  refusal := .ok (none, "")
  reply := .ok {
    arguments := some (.obj [(text "confidence", .num (.int n))])
    inputTokens := some 40
    outputTokens := some 8 }
  commits := true

theorem sent_answering (n : Int) :
    Sent sampleTools sampleProvider sampleRequest (answering n) := by
  obtain ⟨out, hout, hcost⟩ : ∃ out,
      outbound sampleTools sampleRequest (text "disk full") = .ok out ∧
        cost sampleTools sampleProvider (estimateTokens out.length) 100 = .ok 0 :=
    ⟨_, rfl, by decide +kernel⟩
  exact Sent.of rfl rfl hout hcost rfl

theorem requests_accounted_sample : ∃ row,
    (answering 1).left (carriedOut sampleTools sampleProvider sampleRequest (answering 1)) = [row] ∧
      Charges sampleTools sampleRequest (answering 1) row := by
  refine ((requests_accounted sampleTools sampleRequest).2 sampleProvider (answering 1)
    (sent_answering 1)).mpr ⟨by decide +kernel, ?_, ?_, ⟨0, by decide +kernel, by decide, by decide⟩,
      by decide +kernel, by decide +kernel, rfl⟩
  · rintro _ _ ⟨⟩ ⟨⟩
    decide +kernel
  · rintro _ _ ⟨⟩ ⟨⟩
    decide +kernel

/-- **A request can go uncharged.**  The answer has an integer that no float holds: testing it
raises, after the provider has been paid and before anything is recorded. -/
theorem request_uncharged : ¬ ∀ (tools : Tools) (provider : Provider) (request : Request)
    (env : Surroundings), env.commits = true → Sent tools provider request env →
      ∃ row, env.left (carriedOut tools provider request env) = [row] ∧
        Charges tools request env row := by
  intro hall
  have hsent := sent_answering (2 ^ 1024)
  obtain ⟨row, hrow⟩ := hall _ _ _ _ rfl hsent
  have hcan : Chargeable sampleTools sampleProvider sampleRequest (answering (2 ^ 1024)) :=
    (charged_iff hsent).mp ⟨row, hrow⟩
  exact hcan.numbers _ _ rfl rfl (2 ^ 1024) (List.mem_cons_self ..) (by decide +kernel)

end Gateway
end L1Agent
