import L1Agent.Runner.Dispatch

/-! # The table shows how far each call has come

What the transactions do to the row of a call are moves of an item that is handed over, and the
row shows the stage that they have led to: `Change` says what a transaction does to the row of an
id, `Change.goes` that it is such a move.

An item of this kind is offered, taken by one and answered by that one, or withdrawn, and the
general facts about it are those of `Library/Handover.lean`.
-/
namespace L1Agent
namespace Dispatch
open Interleaving Handover
open Access (RunnerIdentity)

/-! ## The rows -/

/-- The ids of the rows are distinct. -/
def Queue.Keyed (q : Queue) : Prop := (q.rows.map (·.id)).Nodup

theorem Queue.row?_mem {q : Queue} {id : Nat} {row : CallRow} (h : q.row? id = some row) :
    row ∈ q.rows ∧ row.id = id :=
  ⟨List.mem_of_find?_eq_some h, by simpa using List.find?_some h⟩

theorem Queue.Keyed.row? {q : Queue} (hq : q.Keyed) {row : CallRow} (h : row ∈ q.rows) :
    q.row? row.id = some row := by
  obtain ⟨rows⟩ := q
  have hnodup : (rows.map (·.id)).Nodup := hq
  show rows.find? (fun other => other.id = row.id) = some row
  clear hq
  induction rows with
  | nil => exact absurd h List.not_mem_nil
  | cons first rows ih =>
    rw [List.map_cons, List.nodup_cons] at hnodup
    rcases List.mem_cons.mp h with rfl | h
    · exact List.find?_cons_of_pos (decide_eq_true rfl)
    · have hne : first.id ≠ row.id := fun heq => hnodup.1 (heq ▸ List.mem_map_of_mem h)
      rw [List.find?_cons_of_neg (by simpa using hne)]
      exact ih h hnodup.2

/-- An update that leaves the ids. -/
theorem Queue.row?_update {q : Queue} {hit : CallRow → Bool} {f : CallRow → CallRow}
    (hf : ∀ row, (f row).id = row.id) (id : Nat) :
    (q.update hit f).2.row? id = (q.row? id).map fun row => if hit row then f row else row := by
  have hid : ∀ row : CallRow, (if hit row then f row else row).id = row.id := by
    intro row
    by_cases h : hit row = true
    · rw [if_pos h, hf]
    · rw [if_neg h]
  unfold Queue.row? Queue.update
  rw [List.find?_map]
  refine congrArg _ (congrArg (fun p => List.find? p q.rows) (funext fun row => ?_))
  rw [Function.comp_apply, hid]

/-- A row that the update hits. -/
theorem Queue.Keyed.row?_hit {q : Queue} (hq : q.Keyed) (hit : CallRow → Bool)
    (f : CallRow → CallRow) (hf : ∀ row, (f row).id = row.id) {row : CallRow} (hmem : row ∈ q.rows)
    (hhit : hit row = true) : (q.update hit f).2.row? row.id = some (f row) := by
  rw [Queue.row?_update hf, hq.row? hmem, Option.map_some, if_pos hhit]

theorem Queue.Keyed.update {q : Queue} (hq : q.Keyed) {hit : CallRow → Bool}
    {f : CallRow → CallRow} (hf : ∀ row, (f row).id = row.id) : (q.update hit f).2.Keyed := by
  have hids : (q.rows.map fun row => if hit row then f row else row).map (·.id) =
      q.rows.map (·.id) := by
    rw [List.map_map]
    refine List.map_congr_left fun row _ => ?_
    by_cases h : hit row = true
    · simp [h, hf]
    · simp [h]
  unfold Queue.Keyed Queue.update
  rw [hids]
  exact hq

/-- The queue without the rows that are not kept. -/
def Queue.keep (q : Queue) (p : CallRow → Bool) : Queue := { q with rows := q.rows.filter p }

theorem Queue.Keyed.keep {q : Queue} (hq : q.Keyed) (p : CallRow → Bool) : (q.keep p).Keyed :=
  hq.sublist (List.filter_sublist.map _)

theorem Queue.Keyed.row?_keep {q : Queue} (hq : q.Keyed) (p : CallRow → Bool) (id : Nat) :
    (q.keep p).row? id = (q.row? id).filter p := by
  cases hrow : (q.keep p).row? id with
  | some row =>
    obtain ⟨hmem, rfl⟩ := row?_mem hrow
    obtain ⟨hmem, hp⟩ := List.mem_filter.mp hmem
    rw [hq.row? hmem]
    exact (Option.filter_some_pos hp).symm
  | none =>
    cases hold : q.row? id with
    | none => rfl
    | some row =>
      obtain ⟨hmem, rfl⟩ := row?_mem hold
      by_cases hp : p row = true
      · have hkept := (hq.keep p).row? (List.mem_filter.mpr ⟨hmem, hp⟩)
        rw [hkept] at hrow
        cases hrow
      · exact (Option.filter_some_neg (Bool.eq_false_iff.mpr hp)).symm

theorem Queue.mem_waiting {q : Queue} {now : Rat} {tenantId : String} {limit : Int}
    {locked : List Nat} {row : CallRow} (h : row ∈ q.waiting now tenantId limit locked) :
    row ∈ q.rows ∧ row.tenantId = tenantId ∧ row.status = .queued := by
  have hmem := List.mem_of_mem_take h
  rw [List.mem_insertionSort] at hmem
  obtain ⟨hmem, hp⟩ := List.mem_filter.mp hmem
  have hp := of_decide_eq_true hp
  exact ⟨hmem, hp.1, hp.2.1⟩

theorem Queue.Keyed.waiting {q : Queue} (hq : q.Keyed) (now : Rat) (tenantId : String)
    (limit : Int) (locked : List Nat) : ((q.waiting now tenantId limit locked).map (·.id)).Nodup := by
  refine List.Nodup.sublist (List.Sublist.map _ (List.take_sublist _ _)) ?_
  have hperm := List.perm_insertionSort (fun a b : CallRow => a.createdAt ≤ b.createdAt)
    (q.rows.filter fun row => row.tenantId = tenantId ∧ row.status = .queued ∧ now < row.deadline ∧
      row.id ∉ locked)
  exact (hperm.map _).nodup_iff.mpr (hq.sublist (List.filter_sublist.map _))

/-! ## What a transaction does to a row -/

/-- **What a transaction does to the row of an id.** -/
inductive Change (id : Nat) : DbCall → Option CallRow → Option CallRow → Prop where
  | same (c : DbCall) (row : Option CallRow) : Change id c row row
  | queued (now : Rat) (call : NewCall) (hid : call.id = id) :
      Change id (.enqueue now call) none (some (call.row now))
  | removed (c : DbCall) (row : CallRow) : Change id c (some row) none
  | claimed (now : Rat) (runner : RunnerIdentity) (limit : Int) (row : CallRow)
      (hstatus : row.status = .queued) (htenant : row.tenantId = runner.tenantId) :
      Change id (.claim now runner limit) (some row) (some (row.claimedBy runner))
  | answered (tenantId : String) (answer : Answer) (runnerId : Option String) (row : CallRow)
      (hstatus : row.status = .claimed) (htenant : row.tenantId = tenantId)
      (hrunner : runnerId = none ∨ row.runnerId = runnerId) :
      Change id (.recordResult tenantId id answer runnerId) (some row)
        (some (row.answeredWith answer))
  | cancelled (tenantId : String) (row : CallRow) (hstatus : row.status = .queued)
      (htenant : row.tenantId = tenantId) :
      Change id (.cancel tenantId id) (some row) (some row.withdrawn)

/-- The row is kept, or it is not. -/
theorem Change.filter {id : Nat} {c : DbCall} (row : Option CallRow) (p : CallRow → Bool) :
    Change id c row (row.filter p) := by
  cases row with
  | none => exact .same c none
  | some row =>
    by_cases hp : p row = true
    · rw [Option.filter_some_pos hp]
      exact .same c _
    · rw [Option.filter_some_neg (Bool.eq_false_iff.mpr hp)]
      exact .removed c row

/-- An update does to each row what it does to the rows that it hits. -/
theorem Queue.Keyed.change_update {q : Queue} (hq : q.Keyed) {c : DbCall} {hit : CallRow → Bool}
    {f : CallRow → CallRow} (hf : ∀ row, (f row).id = row.id)
    (h : ∀ row ∈ q.rows, hit row = true → Change row.id c (some row) (some (f row))) :
    (q.update hit f).2.Keyed ∧ ∀ id, Change id c (q.row? id) ((q.update hit f).2.row? id) := by
  refine ⟨hq.update hf, fun id => ?_⟩
  rw [Queue.row?_update hf]
  cases hrow : q.row? id with
  | none => exact .same c none
  | some row =>
    rw [Option.map_some]
    by_cases hhit : hit row = true
    · rw [if_pos hhit]
      obtain ⟨hmem, rfl⟩ := Queue.row?_mem hrow
      exact h row hmem hhit
    · rw [if_neg hhit]
      exact .same c _

/-- **What a transaction does to the rows**, where an id is not put in the queue again. -/
theorem DbCall.run_rows {locked : List Nat} {q q' : Queue} {c : DbCall} {v : c.Val} (hq : q.Keyed)
    (hnew : ∀ now call, c = .enqueue now call → q.row? call.id = none)
    (h : c.run locked q = some (v, q')) :
    q'.Keyed ∧ ∀ id, Change id c (q.row? id) (q'.row? id) := by
  cases c with
  | enqueue now call =>
    simp only [DbCall.run] at h
    split at h
    · cases h
    rename_i hfree
    cases h
    have hkept := hq.keep fun row => ¬ (row.tenantId = call.tenantId ∧ row.deadline < now - stale)
    have habsent : ∀ row ∈ q.rows.filter fun row =>
        ¬ (row.tenantId = call.tenantId ∧ row.deadline < now - stale), row.id ≠ call.id := by
      simpa using hfree
    refine ⟨?_, fun id => ?_⟩
    · unfold Queue.Keyed
      rw [List.map_append, List.nodup_append]
      refine ⟨hkept, List.nodup_singleton _, fun a ha b hb => ?_⟩
      obtain ⟨row, hrow, rfl⟩ := List.mem_map.mp ha
      cases List.mem_singleton.mp hb
      exact habsent row hrow
    · have hfind : ({ q with rows := (q.rows.filter fun row => ¬ (row.tenantId = call.tenantId ∧
          row.deadline < now - stale)) ++ [call.row now] } : Queue).row? id =
          ((q.keep fun row => ¬ (row.tenantId = call.tenantId ∧ row.deadline < now - stale)).row?
            id).or (if call.id = id then some (call.row now) else none) := by
        unfold Queue.row?
        rw [List.find?_append]
        refine congrArg _ ?_
        by_cases hid : call.id = id
        · rw [if_pos hid]
          exact List.find?_cons_of_pos (decide_eq_true hid)
        · rw [if_neg hid]
          exact List.find?_cons_of_neg (Bool.eq_false_iff.mp (decide_eq_false hid))
      rw [hfind, hq.row?_keep]
      by_cases hid : call.id = id
      · subst hid
        rw [hnew now call rfl, if_pos rfl]
        exact .queued now call rfl
      · rw [if_neg hid, Option.or_none]
        exact .filter _ _
  | claim now runner limit =>
    cases h
    refine hq.change_update (fun _ => rfl) fun row hmem hhit => ?_
    obtain ⟨found, hfound, hid⟩ := List.mem_map.mp (of_decide_eq_true hhit)
    obtain ⟨hfoundMem, htenant, hstatus⟩ := Queue.mem_waiting hfound
    have hsame : some found = some row := by rw [← hq.row? hfoundMem, hid, hq.row? hmem]
    cases hsame
    exact .claimed now runner limit row hstatus htenant
  | recordResult tenantId callId reply runnerId =>
    cases h
    refine hq.change_update (fun _ => rfl) fun row hmem hhit => ?_
    obtain ⟨htenant, rfl, hstatus, hrunner⟩ := of_decide_eq_true hhit
    exact .answered tenantId reply runnerId row hstatus htenant hrunner
  | cancel tenantId callId =>
    cases h
    refine hq.change_update (fun _ => rfl) fun row hmem hhit => ?_
    obtain ⟨htenant, rfl, hstatus⟩ := of_decide_eq_true hhit
    exact .cancelled tenantId row hstatus htenant
  | remove tenantId callId =>
    cases h
    refine ⟨hq.keep _, fun id => ?_⟩
    have hfind := hq.row?_keep (fun row => ¬ (row.tenantId = tenantId ∧ row.id = callId)) id
    unfold Queue.keep at hfind
    rw [hfind]
    exact .filter _ _
  | setSwitch tenantId on =>
    cases tenantId with
    | none =>
      cases h
      exact ⟨hq, fun id => .same _ _⟩
    | some tenantId =>
      cases h
      exact ⟨hq, fun id => .same _ _⟩
  | _ =>
    cases h
    exact ⟨hq, fun id => .same _ _⟩

/-! ## Moves and stages -/

/-- A worker is what the column `runner_id` holds. -/
abbrev CallStage : Type := Stage (Option String) (Option Answer)
abbrev CallMove : Type := Move (Option String) (Option Answer)

/-- The stage that a row shows. -/
def CallRow.stage (row : CallRow) : CallStage :=
  match row.status with
  | .queued => .queued
  | .cancelled => .withdrawn
  | .claimed => .taken row.runnerId
  | .done => .answered row.runnerId row.answer

/-- What has been done with a call, by its row before and after.  A row that is removed while the
call is queued takes the call out of the queue. -/
def movesOf : Option CallRow → Option CallRow → List CallMove
  | none, none => []
  | none, some _ => [.queue]
  | some before, none => if before.status = .queued then [.withdraw] else []
  | some before, some after => match before.status, after.status with
    | .queued, .cancelled => [.withdraw]
    | .queued, .claimed => [.take after.runnerId]
    | .claimed, .done => [.answer after.answer]
    | _, _ => []

theorem movesOf_same (row : Option CallRow) : movesOf row row = [] := by
  cases row with
  | none => rfl
  | some row =>
    cases hstatus : row.status <;> simp only [movesOf, hstatus]

/-- **A transaction moves a call on**: from the stage that its row shows to the one that the row
shows then. -/
theorem Change.goes {id : Nat} {c : DbCall} {before after : Option CallRow}
    (h : Change id c before after) {s : CallStage} (hs : ∀ row, before = some row → row.stage = s)
    (hnew : ∀ now call, c = .enqueue now call → call.id = id → s = .absent) :
    ∃ s', s.Goes (movesOf before after) s' ∧ ∀ row, after = some row → row.stage = s' := by
  cases h with
  | same _ row =>
    rw [movesOf_same]
    exact ⟨s, .nil s, hs⟩
  | queued now call hid =>
    obtain rfl := hnew now call rfl hid
    refine ⟨.queued, rfl, ?_⟩
    rintro _ ⟨⟩
    rfl
  | removed _ row =>
    obtain rfl := hs row rfl
    refine ⟨if row.status = .queued then .withdrawn else row.stage, ?_, by rintro _ ⟨⟩⟩
    cases hstatus : row.status <;> simp [movesOf, CallRow.stage, hstatus, Stage.Goes, Stage.move]
  | claimed now runner limit row hstatus =>
    obtain rfl := hs row rfl
    refine ⟨.taken (some runner.id), ?_, ?_⟩
    · simp [movesOf, CallRow.stage, CallRow.claimedBy, hstatus, Stage.Goes, Stage.move]
    · rintro _ ⟨⟩
      rfl
  | answered tenantId answer runnerId row hstatus =>
    obtain rfl := hs row rfl
    refine ⟨.answered row.runnerId (some answer), ?_, ?_⟩
    · simp [movesOf, CallRow.stage, CallRow.answeredWith, hstatus, Stage.Goes, Stage.move]
    · rintro _ ⟨⟩
      rfl
  | cancelled tenantId row hstatus =>
    obtain rfl := hs row rfl
    refine ⟨.withdrawn, ?_, ?_⟩
    · simp [movesOf, CallRow.stage, CallRow.withdrawn, hstatus, Stage.Goes, Stage.move]
    · rintro _ ⟨⟩
      rfl

/-- Only a claim takes a call: for a runner of the call's tenant. -/
theorem Change.takes {id : Nat} {c : DbCall} {before after : Option CallRow}
    (h : Change id c before after) {w : Option String} (hw : .take w ∈ movesOf before after) :
    ∃ now runner limit row, c = .claim now runner limit ∧ w = some runner.id ∧
      before = some row ∧ row.tenantId = runner.tenantId := by
  cases h with
  | same _ row =>
    rw [movesOf_same] at hw
    exact absurd hw List.not_mem_nil
  | queued now call hid => simp [movesOf] at hw
  | removed _ row => cases hstatus : row.status <;> simp [movesOf, hstatus] at hw
  | claimed now runner limit row hstatus htenant =>
    refine ⟨now, runner, limit, row, rfl, ?_, rfl, htenant⟩
    simpa [movesOf, hstatus, CallRow.claimedBy] using hw
  | answered tenantId reply runnerId row hstatus =>
    simp [movesOf, hstatus, CallRow.answeredWith] at hw
  | cancelled tenantId row hstatus => simp [movesOf, hstatus, CallRow.withdrawn] at hw

/-- Only a result answers a call: one of the runner that has it, if it names a runner. -/
theorem Change.answers {id : Nat} {c : DbCall} {before after : Option CallRow}
    (h : Change id c before after) {a : Option Answer} (ha : .answer a ∈ movesOf before after) :
    ∃ reply runnerId row, c = .recordResult row.tenantId id reply runnerId ∧ a = some reply ∧
      before = some row ∧ row.status = .claimed ∧ (runnerId = none ∨ row.runnerId = runnerId) := by
  cases h with
  | same _ row =>
    rw [movesOf_same] at ha
    exact absurd ha List.not_mem_nil
  | queued now call hid => simp [movesOf] at ha
  | removed _ row => cases hstatus : row.status <;> simp [movesOf, hstatus] at ha
  | claimed now runner limit row hstatus => simp [movesOf, hstatus, CallRow.claimedBy] at ha
  | answered tenantId reply runnerId row hstatus htenant hrunner =>
    subst htenant
    refine ⟨reply, runnerId, row, rfl, ?_, rfl, hstatus, hrunner⟩
    simpa [movesOf, hstatus, CallRow.answeredWith] using ha
  | cancelled tenantId row hstatus => simp [movesOf, hstatus, CallRow.withdrawn] at ha

end Dispatch
end L1Agent
