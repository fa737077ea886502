import L1Agent.Audit.Canonical
import L1Agent.Library.HashChain

/-! # The chain is complete

Whatever transactions append to the log, and in whatever order they do, the rows of each tenant
are a chain that `verify` finds nothing wrong with; and rows that it finds nothing wrong with,
together with a checkpoint of a chain that came about so, begin with that chain
(`chain_complete`).

That the rows follow each other is kept by one step under the lock (`Ledger.Sound.step`) and so
by any number of transactions (`Ledger.Sound.run`); `verify` finds nothing wrong with exactly such
rows (`problems_checkRows`), and with a checkpoint they are the rows that it was made of
(`take_of_checkpoint`).
-/
namespace L1Agent
namespace Audit
open HashChain

variable {tools : Tools} {tenantId : String}

/-- What a row says, and the hash that is computed of it. -/
def links (tools : Tools) (tenantId : String) : Links Row String where
  seq := Row.seq
  prev := Row.prevHash
  hash := Row.hash
  digest row := eventHash tools tenantId row.seq row.occurredAt row.actorType row.actorId
    row.correlationId row.eventType row.payload row.prevHash

/-- The rows follow each other from the beginning. -/
def Chained (tools : Tools) (tenantId : String) (rows : List Row) : Prop :=
  (links tools tenantId).Linked 1 genesisHash rows

/-! ## What the loop finds -/

theorem rowProblems_eq_nil {expectedSeq : Int} {prevHash : String} {row : Row} :
    rowProblems tools tenantId expectedSeq prevHash row = [] ↔
      row.seq = expectedSeq ∧ row.prevHash = prevHash ∧
        (links tools tenantId).digest row = row.hash := by
  unfold rowProblems links
  simp only [List.append_eq_nil_iff, ite_eq_right_iff, List.cons_ne_nil, imp_false, not_not,
    and_assoc]

/-- **Nothing is found wrong** with the rows exactly when they follow each other. -/
theorem problems_checkRows (rows : List Row) (p : Progress) :
    (rows.foldl (checkRow tools tenantId) p).result.problems = [] ↔
      p.result.problems = [] ∧ (links tools tenantId).Linked p.expectedSeq p.prevHash rows := by
  induction rows generalizing p with
  | nil => simp [Links.Linked]
  | cons row rows ih =>
    rw [List.foldl_cons, ih]
    show p.result.problems ++ rowProblems tools tenantId p.expectedSeq p.prevHash row = [] ∧
      (links tools tenantId).Linked (row.seq + 1) row.hash rows ↔ _
    rw [List.append_eq_nil_iff, rowProblems_eq_nil]
    constructor
    · rintro ⟨⟨hproblems, hseq, hprev, hdigest⟩, hrest⟩
      exact ⟨hproblems, hseq, hprev, hdigest, hseq ▸ hrest⟩
    · rintro ⟨hproblems, hseq, hprev, hdigest, hrest⟩
      have hseq' : row.seq = p.expectedSeq := hseq
      exact ⟨⟨hproblems, hseq, hprev, hdigest⟩, hseq'.symm ▸ hrest⟩

/-- The hashes that are kept are those of the rows. -/
theorem hashes_checkRows (rows : List Row) (p : Progress) :
    (rows.foldl (checkRow tools tenantId) p).hashes =
      (rows.map fun row => (row.seq, row.hash)).reverse ++ p.hashes := by
  induction rows generalizing p with
  | nil => rfl
  | cons row rows ih =>
    rw [List.foldl_cons, ih, List.map_cons, List.reverse_cons, List.append_assoc]
    rfl

/-- The head that is found is the last row. -/
theorem head_checkRows {rows : List Row} {p : Progress}
    (h : (links tools tenantId).Linked (p.result.headSeq + 1) p.result.headHash rows) :
    (rows.foldl (checkRow tools tenantId) p).result.headSeq = p.result.headSeq + rows.length ∧
      (rows.foldl (checkRow tools tenantId) p).result.headHash =
        (links tools tenantId).last p.result.headHash rows := by
  induction rows generalizing p with
  | nil => simp [Links.last]
  | cons row rows ih =>
    obtain ⟨hseq, -, -, hrest⟩ := h
    have hseq' : row.seq = p.result.headSeq + 1 := hseq
    have hrest' : (links tools tenantId).Linked (row.seq + 1) row.hash rows := by
      rw [hseq']
      exact hrest
    obtain ⟨hhead, hhash⟩ := @ih (checkRow tools tenantId p row) hrest'
    rw [List.foldl_cons, hhead, hhash]
    refine ⟨?_, rfl⟩
    show row.seq + _ = _
    rw [hseq', List.length_cons]
    omega

/-! ## Appending -/

/-- **The row that is appended** follows the rows that are seen. -/
theorem chained_append {rows : List Row} {r : Request}
    (h : Chained tools r.tenantId (rows.filter (·.tenantId = r.tenantId))) :
    Chained tools r.tenantId
      (rows.filter (·.tenantId = r.tenantId) ++ [append tools rows r]) := by
  refine linked_concat.mpr ⟨h, ?_⟩
  have hhead : head rows r.tenantId = (rows.filter (·.tenantId = r.tenantId)).getLast? :=
    Linked.highest h
  rcases List.eq_nil_or_concat (rows.filter (·.tenantId = r.tenantId)) with hnil | ⟨before, s, hlast⟩
  · rw [hnil] at hhead ⊢
    have hhead' : head rows r.tenantId = none := hhead
    refine ⟨?_, ?_, rfl⟩
    · unfold append
      rw [hhead']
      rfl
    · unfold append
      rw [hhead']
      rfl
  · rw [List.concat_eq_append] at hlast
    rw [hlast] at h hhead ⊢
    rw [List.getLast?_concat] at hhead
    obtain ⟨-, hseq, -, -⟩ := linked_concat.mp h
    refine ⟨?_, ?_, rfl⟩
    · unfold append
      rw [hhead]
      have hseq' : s.seq = 1 + before.length := hseq
      show s.seq + 1 = _
      rw [hseq', List.length_append, List.length_singleton]
      omega
    · unfold append
      rw [hhead, last_concat]
      rfl

/-- The rows of the tenant, with those of the transaction that holds its lock. -/
def Ledger.whole (l : Ledger) (tenantId : String) : List Row :=
  l.rows.filter (·.tenantId = tenantId) ++
    (l.pending.filter (·.2.tenantId = tenantId)).map Prod.snd

/-- **What the lock sees to**: the rows of each tenant are a chain, and those of them that are not
committed are of one transaction. -/
structure Ledger.Sound (tools : Tools) (l : Ledger) : Prop where
  chained : ∀ tenantId, Chained tools tenantId (l.whole tenantId)
  locked : ∀ p ∈ l.pending, ∀ q ∈ l.pending, p.2.tenantId = q.2.tenantId → p.1 = q.1

/-- Rows of the tenant, among those that a transaction has inserted. -/
theorem Ledger.inserted_filter (l : Ledger) (txn : Nat) (tenantId : String) :
    (l.inserted txn).filter (·.tenantId = tenantId) =
      ((l.pending.filter (·.2.tenantId = tenantId)).filter (·.1 = txn)).map Prod.snd := by
  unfold Ledger.inserted
  rw [List.filter_map, List.filter_filter, List.filter_filter]
  refine congrArg (List.map Prod.snd) (List.filter_congr fun p _ => ?_)
  exact Bool.and_comm _ _

theorem Ledger.others_filter (l : Ledger) (txn : Nat) (tenantId : String) :
    (l.others txn).filter (·.2.tenantId = tenantId) =
      (l.pending.filter (·.2.tenantId = tenantId)).filter (·.1 ≠ txn) := by
  unfold Ledger.others
  rw [List.filter_filter, List.filter_filter]
  exact List.filter_congr fun p _ => Bool.and_comm _ _

/-- A transaction has inserted all the rows of the tenant that are not committed, or none. -/
theorem Ledger.Sound.all_or_none {l : Ledger} (h : l.Sound tools) (txn : Nat) (tenantId : String) :
    (l.inserted txn).filter (·.tenantId = tenantId) =
        (l.pending.filter (·.2.tenantId = tenantId)).map Prod.snd ∧
        (l.others txn).filter (·.2.tenantId = tenantId) = [] ∨
      (l.inserted txn).filter (·.tenantId = tenantId) = [] ∧
        (l.others txn).filter (·.2.tenantId = tenantId) =
          l.pending.filter (·.2.tenantId = tenantId) := by
  rw [l.inserted_filter, l.others_filter]
  by_cases hholds : ∃ p ∈ l.pending.filter (·.2.tenantId = tenantId), p.1 = txn
  · left
    obtain ⟨p, hp, hholds⟩ := hholds
    have hall : ∀ q ∈ l.pending.filter (·.2.tenantId = tenantId), q.1 = txn := by
      intro q hq
      obtain ⟨hp, hptenant⟩ := List.mem_filter.mp hp
      obtain ⟨hq, hqtenant⟩ := List.mem_filter.mp hq
      have hsame := h.locked p hp q hq
        ((of_decide_eq_true hptenant).trans (of_decide_eq_true hqtenant).symm)
      exact hsame.symm.trans hholds
    constructor
    · rw [List.filter_eq_self.mpr fun q hq => decide_eq_true (hall q hq)]
    · exact List.filter_eq_nil_iff.mpr fun q hq => by simp [hall q hq]
  · right
    have hnone : ∀ q ∈ l.pending.filter (·.2.tenantId = tenantId), q.1 ≠ txn :=
      fun q hq heq => hholds ⟨q, hq, heq⟩
    constructor
    · rw [List.filter_eq_nil_iff.mpr fun q hq => by simp [hnone q hq]]
      rfl
    · exact List.filter_eq_self.mpr fun q hq => decide_eq_true (hnone q hq)

theorem Ledger.Sound.append {l : Ledger} (h : l.Sound tools) {txn : Nat} {r : Request}
    (hfree : l.locked txn r.tenantId = false) :
    Ledger.Sound tools { l with
      pending := l.pending ++ [(txn, Audit.append tools (l.rows ++ l.inserted txn) r)] } := by
  have hothers : ∀ q ∈ l.pending, q.2.tenantId = r.tenantId → q.1 = txn := by
    intro q hq htenant
    by_contra hne
    have hlocked : l.locked txn r.tenantId = true :=
      List.any_eq_true.mpr ⟨q, List.mem_filter.mpr ⟨hq, decide_eq_true hne⟩,
        decide_eq_true htenant⟩
    rw [hfree] at hlocked
    cases hlocked
  have hseen : (l.rows ++ l.inserted txn).filter (·.tenantId = r.tenantId) =
      l.whole r.tenantId := by
    have hall : (l.pending.filter (·.2.tenantId = r.tenantId)).filter (·.1 = txn) =
        l.pending.filter (·.2.tenantId = r.tenantId) := by
      refine List.filter_eq_self.mpr fun q hq => ?_
      obtain ⟨hq, htenant⟩ := List.mem_filter.mp hq
      exact decide_eq_true (hothers q hq (of_decide_eq_true htenant))
    rw [List.filter_append, l.inserted_filter, hall]
    rfl
  constructor
  · intro tenantId
    unfold Ledger.whole
    rw [List.filter_append, List.map_append, ← List.append_assoc]
    by_cases htenant : r.tenantId = tenantId
    · subst htenant
      have hchained := @chained_append tools (l.rows ++ l.inserted txn) r
        (hseen.symm ▸ h.chained r.tenantId)
      rw [hseen] at hchained
      have hrow : [(txn, Audit.append tools (l.rows ++ l.inserted txn) r)].filter
          (·.2.tenantId = r.tenantId) =
          [(txn, Audit.append tools (l.rows ++ l.inserted txn) r)] :=
        List.filter_eq_self.mpr fun q hq => by
          cases List.mem_singleton.mp hq
          exact decide_eq_true rfl
      rw [hrow]
      exact hchained
    · have hrow : [(txn, Audit.append tools (l.rows ++ l.inserted txn) r)].filter
          (·.2.tenantId = tenantId) = [] :=
        List.filter_eq_nil_iff.mpr fun q hq => by
          cases List.mem_singleton.mp hq
          exact fun heq => htenant (of_decide_eq_true heq)
      rw [hrow, List.map_nil, List.append_nil]
      exact h.chained tenantId
  · intro p hp q hq hsame
    rcases List.mem_append.mp hp with hp | hp <;> rcases List.mem_append.mp hq with hq | hq
    · exact h.locked p hp q hq hsame
    · cases List.mem_singleton.mp hq
      exact hothers p hp hsame
    · cases List.mem_singleton.mp hp
      exact (hothers q hq hsame.symm).symm
    · cases List.mem_singleton.mp hp
      cases List.mem_singleton.mp hq
      rfl

/-- **One step** keeps the rows of every tenant a chain. -/
theorem Ledger.Sound.step {l l' : Ledger} (h : l.Sound tools) {act : Act}
    (hstep : l.step tools act = some l') : l'.Sound tools := by
  have hlocked : ∀ txn, ∀ p ∈ l.others txn, ∀ q ∈ l.others txn,
      p.2.tenantId = q.2.tenantId → p.1 = q.1 := fun txn p hp q hq =>
    h.locked p (List.mem_filter.mp hp).1 q (List.mem_filter.mp hq).1
  cases act with
  | append txn r =>
    have hstep' : (if l.locked txn r.tenantId then none else some { l with
        pending := l.pending ++ [(txn, Audit.append tools (l.rows ++ l.inserted txn) r)] }) =
        some l' := hstep
    by_cases hlock : l.locked txn r.tenantId = true
    · rw [if_pos hlock] at hstep'
      cases hstep'
    · rw [if_neg hlock] at hstep'
      cases hstep'
      exact h.append (Bool.not_eq_true _ ▸ hlock)
  | commit txn =>
    cases hstep
    refine ⟨fun tenantId => ?_, hlocked txn⟩
    have hwhole := h.chained tenantId
    unfold Ledger.whole at hwhole ⊢
    rw [List.filter_append]
    rcases h.all_or_none txn tenantId with ⟨hall, hnone⟩ | ⟨hnone, hall⟩
    · rw [hall, hnone, List.map_nil, List.append_nil]
      exact hwhole
    · rw [hall, hnone, List.append_nil]
      exact hwhole
  | rollback txn =>
    cases hstep
    refine ⟨fun tenantId => ?_, hlocked txn⟩
    have hwhole := h.chained tenantId
    unfold Ledger.whole at hwhole ⊢
    rcases h.all_or_none txn tenantId with ⟨hall, hnone⟩ | ⟨hnone, hall⟩
    · rw [hnone, List.map_nil, List.append_nil]
      exact (linked_append.mp hwhole).1
    · rw [hall]
      exact hwhole

/-- **However the transactions go**, the rows of every tenant are a chain. -/
theorem Ledger.Sound.run {acts : List Act} {l l' : Ledger} (h : l.Sound tools)
    (hrun : l.run tools acts = some l') : l'.Sound tools := by
  induction acts generalizing l with
  | nil =>
    cases hrun
    exact h
  | cons act acts ih =>
    obtain ⟨l₁, hstep, hrest⟩ := Option.bind_eq_some_iff.mp hrun
    exact ih (h.step hstep) hrest

theorem Ledger.sound_empty : Ledger.Sound tools {} :=
  ⟨fun _ => trivial, fun _ h => nomatch h⟩

/-- The committed rows of a tenant are a chain, and are read in its order. -/
theorem Ledger.Sound.chain {l : Ledger} (h : l.Sound tools) (tenantId : String) :
    Chained tools tenantId (chain l.rows tenantId) := by
  have hrows : Chained tools tenantId (l.rows.filter (·.tenantId = tenantId)) :=
    (linked_append.mp (h.chained tenantId)).1
  have hsorted : (l.rows.filter (·.tenantId = tenantId)).Pairwise fun a b =>
      decide (a.seq ≤ b.seq) = true :=
    (Linked.pairwise hrows).imp fun hlt => decide_eq_true (le_of_lt hlt)
  unfold Audit.chain
  rw [List.mergeSort_of_pairwise hsorted]
  exact hrows

/-! ## What `verify` accepts -/

/-- The rows gone through. -/
def walk (tools : Tools) (rows : List Row) (tenantId : String) : Progress :=
  (chain rows tenantId).foldl (checkRow tools tenantId) { result := { tenantId } }

theorem mem_of_mapM {α β : Type} {f : α → Option β} {as : List α} {bs : List β}
    (h : as.mapM f = some bs) {a : α} (ha : a ∈ as) : ∃ b ∈ bs, f a = some b := by
  induction as generalizing bs with
  | nil => cases ha
  | cons a' as ih =>
    rw [List.mapM_cons] at h
    obtain ⟨b, hb, h⟩ := Option.bind_eq_some_iff.mp h
    obtain ⟨bs', hbs, h⟩ := Option.bind_eq_some_iff.mp h
    cases h
    rcases List.mem_cons.mp ha with rfl | ha
    · exact ⟨b, List.mem_cons_self .., hb⟩
    · obtain ⟨b', hmem, hb'⟩ := ih hbs ha
      exact ⟨b', List.mem_cons_of_mem _ hmem, hb'⟩

theorem verify_eq_some {checkpoints : List Json} {key : String} {rows : List Row}
    {result : VerifyResult}
    (h : verify tools tenantId checkpoints key rows = some result) (hok : result.ok = true) :
    Chained tools tenantId (chain rows tenantId) ∧
      ∀ cp ∈ checkpoints, checkpointProblems tools tenantId key (walk tools rows tenantId).hashes
        cp = some [] := by
  obtain ⟨found, hfound, rfl⟩ := Option.map_eq_some_iff.mp h
  have hproblems : (walk tools rows tenantId).result.problems ++ found.flatten = [] :=
    List.isEmpty_iff.mp hok
  obtain ⟨hrows, hflat⟩ := List.append_eq_nil_iff.mp hproblems
  refine ⟨((problems_checkRows _ _).mp hrows).2, fun cp hcp => ?_⟩
  obtain ⟨problems, hmem, hcp'⟩ := mem_of_mapM hfound hcp
  exact hcp'.trans (congrArg some (List.flatten_eq_nil_iff.mp hflat problems hmem))

/-- **A chain has no problems.** -/
theorem verify_chained {rows : List Row} (h : Chained tools tenantId (chain rows tenantId))
    (key : String) : ∃ result, verify tools tenantId [] key rows = some result ∧
      result.ok = true ∧ result.headSeq = (chain rows tenantId).length ∧
      result.headHash = (links tools tenantId).last genesisHash (chain rows tenantId) := by
  have hproblems : (walk tools rows tenantId).result.problems = [] :=
    (problems_checkRows _ _).mpr ⟨rfl, h⟩
  obtain ⟨hseq, hhash⟩ := @head_checkRows tools tenantId (chain rows tenantId)
    { result := { tenantId } } h
  refine ⟨_, rfl, ?_, hseq.trans (by simp), hhash⟩
  show ((walk tools rows tenantId).result.problems ++ []).isEmpty = true
  rw [hproblems]
  rfl

/-- A checkpoint that the rows pass names the hash of the row at its number. -/
theorem hash_of_checkpointProblems {key cpHash signature createdAt : String} {seq : Int}
    {hashes : List (Int × String)} (hseq : seq ≠ 0)
    (h : checkpointProblems tools tenantId key hashes (.obj [("tenant_id", .str tenantId),
      ("seq", .int seq), ("hash", .str cpHash), ("created_at", .str createdAt),
      ("signature", .str signature)]) = some []) :
    hashes.lookup seq = some cpHash := by
  unfold checkpointProblems at h
  simp only [Json.getD, Json.get?, List.lookup_cons, Builtins.str, Builtins.toInt, beq_self_eq_true,
    String.reduceBEq, Option.getD_some, ne_eq, not_true_eq_false, if_false, Option.bind_some,
    if_neg hseq] at h
  split at h
  · cases h
  · split at h
    · cases h
    · cases hlookup : hashes.lookup seq with
      | none =>
        rw [hlookup] at h
        cases h
      | some hash =>
        rw [hlookup] at h
        dsimp only at h
        split at h
        · cases h
        · rename_i hsame
          exact congrArg some (not_not.mp hsame)

/-- A hash that is kept is that of a row. -/
theorem row_of_lookup {rows : List Row} {seq : Int} {hash : String}
    (h : (walk tools rows tenantId).hashes.lookup seq = some hash) :
    ∃ row ∈ chain rows tenantId, row.seq = seq ∧ row.hash = hash := by
  obtain ⟨before, after, hsplit, -⟩ := List.lookup_eq_some_iff.mp h
  have hmem : (seq, hash) ∈ (walk tools rows tenantId).hashes := by
    rw [hsplit]
    simp
  unfold walk at hmem
  rw [hashes_checkRows, List.append_nil, List.mem_reverse] at hmem
  obtain ⟨row, hrow, heq⟩ := List.mem_map.mp hmem
  cases heq
  exact ⟨row, hrow, rfl, rfl⟩

/-- The rows up to a given one. -/
theorem take_of_row {rows : List Row} (h : Chained tools tenantId rows) {row : Row}
    (hrow : row ∈ rows) {n : Nat} (hseq : row.seq = n) :
    (rows.take n).length = n ∧
      (links tools tenantId).last genesisHash (rows.take n) = row.hash := by
  obtain ⟨before, after, rfl⟩ := List.append_of_mem hrow
  obtain ⟨-, hnumber, -⟩ := linked_append.mp h
  have hnumber' : row.seq = 1 + before.length := hnumber
  have hn : n = before.length + 1 := by omega
  have htake : (before ++ row :: after).take n = before ++ [row] := by
    rw [hn, List.take_append]
    simp
  rw [htake, last_concat]
  exact ⟨by simp [hn], rfl⟩

/-- Rows of a tenant with one digest and one hash are one. -/
theorem row_eq_of_digest (hnumbers : tools.numbers.Faithful)
    (hints : ∀ n : Int, tools.numbers.has (.int n)) (hsha : Function.Injective tools.sha256)
    {r s : Row} (htenant : r.tenantId = s.tenantId)
    (hdigest : (links tools tenantId).digest r = (links tools tenantId).digest s)
    (hhash : r.hash = s.hash) : r = s := by
  have hfields := (eventHash_eq_iff hnumbers hsha (hints _) (hints _)).mp hdigest
  obtain ⟨tenantId₁, seq, occurredAt, actorType, actorId, correlationId, eventType, payload,
    prevHash, hash⟩ := r
  obtain ⟨tenantId₂, seq', occurredAt', actorType', actorId', correlationId', eventType',
    payload', prevHash', hash'⟩ := s
  obtain ⟨-, hseq, hat, htype, hid, hcorrelation, hevent, hpayload, hprev⟩ := hfields
  dsimp only at htenant hhash hseq hat htype hid hcorrelation hevent hpayload hprev
  subst htenant hhash hseq hat htype hid hcorrelation hevent hpayload hprev
  rfl

/-- The rows of a tenant are that tenant's. -/
theorem tenant_of_mem {rows : List Row} {row : Row} (h : row ∈ chain rows tenantId) :
    row.tenantId = tenantId :=
  of_decide_eq_true (List.mem_filter.mp ((List.mergeSort_perm _ _).mem_iff.mp h)).2

/-- **Rows that pass a checkpoint of a chain** begin with it. -/
theorem take_of_checkpoint (hnumbers : tools.numbers.Faithful)
    (hints : ∀ n : Int, tools.numbers.has (.int n)) (hsha : Function.Injective tools.sha256)
    {honest rows : List Row} (hhonest : Chained tools tenantId (chain honest tenantId))
    (hrows : Chained tools tenantId (chain rows tenantId))
    (hcp : (chain honest tenantId).length ≠ 0 →
      (walk tools rows tenantId).hashes.lookup ((chain honest tenantId).length : Int) =
        some ((links tools tenantId).last genesisHash (chain honest tenantId))) :
    (chain rows tenantId).take (chain honest tenantId).length = chain honest tenantId := by
  by_cases hempty : (chain honest tenantId).length = 0
  · rw [hempty, List.take_zero]
    exact (List.length_eq_zero_iff.mp hempty).symm
  · obtain ⟨row, hrow, hseq, hhash⟩ := row_of_lookup (hcp hempty)
    obtain ⟨hlength, hlast⟩ := take_of_row hrows hrow hseq
    refine Linked.commit (Linked.take hrows _) hhonest hlength (hlast.trans hhash) ?_
    intro r hr s hs hdigest hsame
    exact row_eq_of_digest hnumbers hints hsha ((tenant_of_mem (List.mem_of_mem_take hr)).trans
      (tenant_of_mem hs).symm) hdigest hsame

/-- **The chain is complete.**  Whatever the transactions append, `verify` accepts the rows; and
the rows that it accepts with a checkpoint that was made of them begin with those. -/
theorem chain_complete (tools : Tools) (hnumbers : tools.numbers.Faithful)
    (hints : ∀ n : Int, tools.numbers.has (.int n)) (hsha : Function.Injective tools.sha256)
    (acts : List Act) (l : Ledger) (hrun : Ledger.run tools {} acts = some l) (tenantId : String) :
    (∀ key, ∃ result, verify tools tenantId [] key l.rows = some result ∧ result.ok = true) ∧
      ∀ key createdAt cp, checkpoint tools tenantId key createdAt l.rows = some cp →
        ∀ rows checkpoints key' result, cp ∈ checkpoints →
          verify tools tenantId checkpoints key' rows = some result → result.ok = true →
          (chain rows tenantId).take (chain l.rows tenantId).length = chain l.rows tenantId := by
  have hhonest := (Ledger.sound_empty.run hrun).chain tenantId
  constructor
  · intro key
    obtain ⟨result, hverify, hok, -⟩ := verify_chained hhonest key
    exact ⟨result, hverify, hok⟩
  · intro key createdAt cp hcp rows checkpoints key' result hmem hverify hok
    obtain ⟨hrows, hpassed⟩ := verify_eq_some hverify hok
    refine take_of_checkpoint hnumbers hints hsha hhonest hrows fun hempty => ?_
    -- what the checkpoint says
    obtain ⟨head, hhead, hok', hseq, hhash⟩ := verify_chained hhonest ""
    unfold checkpoint at hcp
    rw [hhead, Option.bind_some, hok'] at hcp
    cases hcp
    have hlookup := hash_of_checkpointProblems (by omega) (hpassed _ hmem)
    rw [hseq, hhash] at hlookup
    exact hlookup

/-- An event of one tenant. -/
def sampleRequest (tenantId eventType : String) : Request :=
  { tenantId, actor := ⟨"user", "ann"⟩, eventType, occurredAt := "2025-01-01T00:00:00.000000+00:00" }

/-- Two transactions side by side, for two tenants. -/
def sampleActs : List Act :=
  [.append 1 (sampleRequest "a" "sop.created"), .append 2 (sampleRequest "b" "sop.created"),
    .append 1 (sampleRequest "a" "sop.submitted"), .commit 2, .commit 1]

theorem chain_complete_sample :
    ∃ l, Ledger.run plainTools {} sampleActs = some l ∧ l.rows.length = 3 ∧
      ((∀ key, ∃ result, verify plainTools "a" [] key l.rows = some result ∧ result.ok = true) ∧
        ∀ key createdAt cp, checkpoint plainTools "a" key createdAt l.rows = some cp →
          ∀ rows checkpoints key' result, cp ∈ checkpoints →
            verify plainTools "a" checkpoints key' rows = some result → result.ok = true →
            (chain rows "a").take (chain l.rows "a").length = chain l.rows "a") := by
  have hrun : ((Ledger.run plainTools {} sampleActs).map fun l => l.rows.length) = some 3 := by
    decide +kernel
  obtain ⟨l, hl, hlength⟩ := Option.map_eq_some_iff.mp hrun
  exact ⟨l, hl, hlength, chain_complete plainTools Json.integers_faithful (fun n => ⟨n, rfl⟩)
    Function.injective_id sampleActs l hl "a"⟩

end Audit
end L1Agent
