import L1Agent.Actions.Decided
import L1Agent.Service.Intake
import L1Agent.Sop.Reviewed

/-! # Four eyes on T2 actions

A T2 action takes two people: whoever approves it is not the author of the SOP version that it
comes from.  The author is put on the row when the action is decided on, and compared with the
approver later, in `decide` by identity and in `_collect` by e-mail address.  But the row records a
version by its number, and the author is looked up by the hash of the content, without an order:
where two people have had one content published, the author on the row may be the other of the two,
and then the author of the very version that runs can approve the action from it
(`author_approves`).

`four_eyes` says that this is the only way.  In every run in which the author is looked up only
among versions that are of one author (`Op.OneAuthor`), a T2 row that is approved or beyond
(`ActionRow.Passed`) has been approved by somebody else than the author of the version that it
records (`ApprovedByAnother`), through whichever channel.

The versions that have a number stay as they are, whatever the store does (`DbCall.run_versions`).
A thread decides on an SOP that it has read, by the author that it has looked up since
(`abides_attested_decide`), and the sweeper answers for a change record only when it knows both
addresses (`abides_attested_collect`).  From there the rows keep what they say of their author and
their approval (`ActionRow.Watched.moved`).
-/
namespace L1Agent
open Interleaving

/-! ## What is claimed -/

/-- The row records this version: its SOP and its number. -/
def ActionRow.Records (r : ActionRow) (v : SopVersion) : Prop :=
  v.sopKey = r.sopKey ∧ v.version.map toString = some r.sopVersion

/-- The row is approved or beyond: it is approved, its execution has begun, or it carries an
approval. -/
def ActionRow.Passed (r : ActionRow) : Prop :=
  r.status = .approved ∨ r.status.begun = true ∨ r.Approved

/-- The thread has looked up the address of the author: it is known, and so is the approver's, and
they differ. -/
def MailsDiffer {site : Site} (tr : List site.Event) (thread : Nat) (author mail : String) : Prop :=
  ∃ looked ∈ tr, looked.thread = thread ∧ looked.op = .db (.authorEmail author) ∧
    site.fold (authorEmail author looked.before.db) ≠ "" ∧ site.fold mail ≠ "" ∧
      site.fold (authorEmail author looked.before.db) ≠ site.fold mail

/-- **Somebody else than this author has approved the row**: the approval that the row records is by
another identity and, where it was given on the change record, from another known address. -/
def ApprovedByAnother {site : Site} (tr : List site.Event) (r : ActionRow) (author : String) :
    Prop :=
  ∃ pre ev post a v, tr = pre ++ ev :: post ∧ ev.Commits (.decide r.id a) v ∧ a.approve = true ∧
    r.approverId = some a.actor ∧ r.decidedVia = a.via ∧ a.actor ≠ author ∧
      (a.via = channelUi ∨ a.via = channelServicenow ∧
        MailsDiffer pre ev.thread author a.approverEmail)

/-- **The versions that the author is looked up in are of one author.** -/
def Op.OneAuthor (db : Db) : Op → Prop
  | .db (.situation _ sopKey contentHash) =>
    ∀ v ∈ numberedVersions sopKey contentHash db, ∀ w ∈ numberedVersions sopKey contentHash db,
      v.authorId = w.authorId
  | _ => True

instance (db : Db) (o : Op) : Decidable (o.OneAuthor db) := by
  unfold Op.OneAuthor
  split <;> infer_instance

/-! ## The versions -/

/-- **A version as the store keeps it**: its content is of its SOP; and it has a number, from 1 on,
when it is or was published. -/
structure SopVersion.Orderly (v : SopVersion) : Prop where
  key : v.content.sop.sopId = v.sopKey
  numbered : v.version.isSome = v.status.wasPublished
  positive : v.version ≠ some 0

/-- What is settled when a version is published. -/
structure SopVersion.Settled (v w : SopVersion) : Prop where
  key : w.sopKey = v.sopKey
  version : w.version = v.version
  hash : w.contentHash = v.contentHash
  author : w.authorId = v.authorId

theorem SopVersion.Settled.refl (v : SopVersion) : v.Settled v := ⟨rfl, rfl, rfl, rfl⟩

theorem SopVersion.Settled.trans {u v w : SopVersion} (h : u.Settled v) (h' : v.Settled w) :
    u.Settled w :=
  ⟨h'.key.trans h.key, h'.version.trans h.version, h'.hash.trans h.hash, h'.author.trans h.author⟩

/-- The versions are orderly, and those with a number stay. -/
structure VersionsStay (rows rows' : List SopVersion) : Prop where
  orderly : ∀ v ∈ rows', v.Orderly
  stay : ∀ v ∈ rows, v.version.isSome = true → ∃ w ∈ rows', v.Settled w

theorem VersionsStay.trans {rows rows' rows'' : List SopVersion} (h : VersionsStay rows rows')
    (h' : VersionsStay rows' rows'') : VersionsStay rows rows'' where
  orderly := h'.orderly
  stay v hv hn := by
    obtain ⟨w, hw, hsettled⟩ := h.stay v hv hn
    obtain ⟨x, hx, hsettled'⟩ := h'.stay w hw (by rw [hsettled.version]; exact hn)
    exact ⟨x, hx, hsettled.trans hsettled'⟩

/-- One version is changed. -/
theorem VersionsStay.put {rows : List SopVersion} {old new : SopVersion}
    (hs : ∀ v ∈ rows, v.Orderly) (hold : old ∈ rows)
    (hunique : ∀ v ∈ rows, v.id = old.id → v = old) (hid : new.id = old.id)
    (hnew : new.Orderly) (hsettled : old.version.isSome = true → old.Settled new) :
    VersionsStay rows (putVersion new rows) where
  orderly v hv := by
    rcases mem_putVersion hv with rfl | ⟨hv, -⟩
    · exact hnew
    · exact hs v hv
  stay v hv hn := by
    by_cases hsame : v.id = old.id
    · obtain rfl := hunique v hv hsame
      exact ⟨new, putVersion_self hv (hsame.trans hid.symm), hsettled hn⟩
    · exact ⟨v, putVersion_mem hv (by rw [hid]; exact hsame), .refl v⟩

section
variable {site : Site} {now pick : Nat} {c : DbCall} {db db' : Db} {x : c.Val}

/-- **A transaction of the store** keeps the versions orderly, and those that have a number. -/
theorem DbCall.run_versions (h : c.run site now pick db = .ok (x, db'))
    (hs : ∀ v ∈ db.sopVersions.rows, v.Orderly) :
    VersionsStay db.sopVersions.rows db'.sopVersions.rows := by
  have hput : ∀ {old new : SopVersion} {event : AuditEvent}, old ∈ db.sopVersions.rows →
      db.Saved (putVersion new db.sopVersions.rows) event db' → new.id = old.id → new.Orderly →
      (old.version.isSome = true → old.Settled new) →
      VersionsStay db.sopVersions.rows db'.sopVersions.rows := by
    intro old new event hold hsaved hid hnew hsettled
    rw [hsaved.rows_eq]
    exact .put hs hold (fun v hv hsame => db.sopVersions.unique hv hold hsame) hid hnew hsettled
  have hnone : ∀ {v : SopVersion}, v.Orderly → v.status.wasPublished = false →
      v.version.isSome = false := fun hv hstatus => hv.numbered.trans hstatus
  by_cases hwrites : Table.sopVersions ∈ c.writes
  · cases c with
    | createDraft actor content =>
      obtain ⟨-, hsaved⟩ := createDraft_ok h
      rw [hsaved.rows_eq]
      refine ⟨fun v hv => ?_, fun v hv _ => ⟨v, List.mem_append_left _ hv, .refl v⟩⟩
      rcases List.mem_append.mp hv with hv | hv
      · exact hs v hv
      · cases List.mem_singleton.mp hv
        exact ⟨rfl, rfl, by rintro ⟨⟩⟩
    | updateDraft actor id content =>
      obtain ⟨old, hold, -, hdraft, hkey, -, hsaved⟩ := updateDraft_ok h
      have horderly := hs old hold
      refine hput hold hsaved rfl ⟨hkey, horderly.numbered, horderly.positive⟩ fun hn => ?_
      rw [hnone horderly (by rw [hdraft]; rfl)] at hn
      cases hn
    | discardDraft actor id =>
      obtain ⟨old, hold, hid, hdraft, hsaved⟩ := discardDraft_ok h
      rw [hsaved.rows_eq]
      refine ⟨fun v hv => hs v (List.mem_of_mem_filter hv), fun v hv hn => ⟨v, ?_, .refl v⟩⟩
      refine List.mem_filter.mpr ⟨hv, decide_eq_true fun hsame => ?_⟩
      obtain rfl := db.sopVersions.unique hv hold (hsame.trans hid.symm)
      rw [hnone (hs v hv) (by rw [hdraft]; rfl)] at hn
      cases hn
    | submitDraft actor id =>
      obtain ⟨old, new, hold, -, hdraft, -, -, -, rfl, hsaved⟩ := submitDraft_ok h
      have horderly := hs old hold
      have hunnumbered := hnone horderly (by rw [hdraft]; rfl)
      refine hput hold hsaved rfl ⟨horderly.key, hunnumbered, horderly.positive⟩ fun hn => ?_
      rw [hunnumbered] at hn
      cases hn
    | approveVersion actor id reviewedHash =>
      obtain ⟨old, new, hold, -, hreview, -, -, rfl, hsaved⟩ := approveVersion_ok h
      have horderly := hs old hold
      have hunnumbered := hnone horderly (by rw [hreview]; rfl)
      refine hput hold hsaved rfl ⟨horderly.key, hunnumbered, horderly.positive⟩ fun hn => ?_
      rw [hunnumbered] at hn
      cases hn
    | requestChanges actor id note =>
      obtain ⟨old, new, hold, -, hreview, rfl, hsaved⟩ := requestChanges_ok h
      have horderly := hs old hold
      have hunnumbered := hnone horderly (by rw [hreview]; rfl)
      refine hput hold hsaved rfl ⟨horderly.key, hunnumbered, horderly.positive⟩ fun hn => ?_
      rw [hunnumbered] at hn
      cases hn
    | publishVersion actor id =>
      obtain ⟨old, new, hold, -, happroved, rfl, rfl, hsaved⟩ := publishVersion_ok h
      rw [hsaved.rows_eq]
      have horderly := hs old hold
      have hgone : ∀ v ∈ superseded old.sopKey db.sopVersions.rows, v.Orderly := by
        intro v hv
        obtain ⟨u, hu, rfl | ⟨hpublished, rfl⟩⟩ := mem_superseded hv
        · exact hs v hu
        · have horderly := hs u hu
          exact ⟨horderly.key, horderly.numbered.trans (by rw [hpublished]; rfl),
            horderly.positive⟩
      refine ⟨fun v hv => ?_, fun v hv hn => ?_⟩
      · rcases mem_putVersion hv with rfl | ⟨hv, -⟩
        · exact ⟨horderly.key, rfl, by simp [nextNumber]⟩
        · exact hgone v hv
      · have hne : v.id ≠ old.id := by
          intro hsame
          obtain rfl := db.sopVersions.unique hv hold hsame
          rw [hnone horderly (by rw [happroved]; rfl)] at hn
          cases hn
        refine ⟨if v.sopKey = old.sopKey ∧ v.status = .published then
          { v with status := .superseded } else v, putVersion_mem
            (List.mem_map.mpr ⟨v, hv, rfl⟩) ?_, ?_⟩
        · split
          · exact hne
          · exact hne
        · split
          · exact ⟨rfl, rfl, rfl, rfl⟩
          · exact .refl v
    | retireSop actor sopKey =>
      obtain ⟨old, hold, -, hpublished, hsaved⟩ := retireSop_ok h
      have horderly := hs old hold
      exact hput hold hsaved rfl ⟨horderly.key, horderly.numbered.trans (by rw [hpublished]; rfl),
        horderly.positive⟩ fun _ => ⟨rfl, rfl, rfl, rfl⟩
    | _ => simp [writes] at hwrites
  · have hsame : db'.sopVersions = db.sopVersions := DbCall.run_same h hwrites
    rw [hsame]
    exact ⟨hs, fun v hv _ => ⟨v, hv, .refl v⟩⟩

end

/-- What is known of the versions from one state to a later one. -/
def Estate.VersionsStay (s s' : Estate) : Prop :=
  (∀ v ∈ s.db.sopVersions.rows, v.Orderly) →
    L1Agent.VersionsStay s.db.sopVersions.rows s'.db.sopVersions.rows

theorem Estate.VersionsStay.refl (s : Estate) : s.VersionsStay s := fun hs =>
  ⟨hs, fun v hv _ => ⟨v, hv, .refl v⟩⟩

theorem Estate.VersionsStay.trans {a b c : Estate} (h : a.VersionsStay b) (h' : b.VersionsStay c) :
    a.VersionsStay c := fun hs => (h hs).trans (h' (h hs).orderly)

theorem versionsStay_step {site : Site} {ev : site.Event} (hev : ev.Happens) :
    ev.before.VersionsStay ev.after := by
  intro hs
  rcases hev.db_cases with hsame | ⟨c, v, hc⟩
  · rw [hsame]
    exact ⟨hs, fun v hv _ => ⟨v, hv, .refl v⟩⟩
  · exact DbCall.run_versions hc.2 hs


/-! ## What the coroutines have seen -/

/-- The operation has answered with this SOP. -/
def GaveSop (x : Calls.Done) (sop : SOP) : Prop :=
  (∃ sops : List SOP, x = ⟨.db .publishedSops, .ok sops⟩ ∧ sop ∈ sops) ∨
    ∃ key version digest, x = ⟨.db (.versionForResume key version digest), .ok (some sop)⟩

/-- The thread has read this SOP. -/
def HasRead (past : List Calls.Done) (sop : SOP) : Prop := ∃ x ∈ past, GaveSop x sop

theorem HasRead.grow {past : List Calls.Done} {sop : SOP} (h : HasRead past sop) (d : Calls.Done) :
    HasRead (past ++ [d]) sop := by
  obtain ⟨x, hx, hgave⟩ := h
  exact ⟨x, List.mem_append_left _ hx, hgave⟩

/-- The thread has looked up the author of an SOP that it had read. -/
def LookedUp (minutes : Nat) (sop : SOP) (found : Nat × String) (past : List Calls.Done) : Prop :=
  ∃ before after, past = before ++
    ⟨.db (.situation minutes sop.sopId sop.contentHash), .ok found⟩ :: after ∧ HasRead before sop

theorem LookedUp.grow {minutes : Nat} {sop : SOP} {found : Nat × String} {past : List Calls.Done}
    (h : LookedUp minutes sop found past) (d : Calls.Done) :
    LookedUp minutes sop found (past ++ [d]) := by
  obtain ⟨before, after, rfl, hread⟩ := h
  exact ⟨before, after ++ [d], by simp, hread⟩

/-- **The decision names an SOP that the thread has read**, and the author that it has looked up
for it since. -/
def Attributed (past : List Calls.Done) (d : Decision) : Prop :=
  ∃ (sop : SOP) (minutes count : Nat), LookedUp minutes sop (count, d.sopAuthorId) past ∧
    d.sopKey = sop.sopId ∧ d.sopVersion = sop.version ∧ d.sopHash = sop.contentHash

/-- The thread knows the e-mail addresses of the author of the row and of the approver, and they
differ. -/
def KnowsBoth (site : Site) (past : List Calls.Done) (row : ActionRow) (mail : String) : Prop :=
  ∃ mine, (⟨.db (.authorEmail row.sopAuthorId), .ok mine⟩ : Calls.Done) ∈ past ∧ mine ≠ "" ∧
    site.fold mail ≠ "" ∧ mine ≠ site.fold mail

theorem KnowsBoth.grow {site : Site} {past : List Calls.Done} {row : ActionRow} {mail : String}
    (h : KnowsBoth site past row mail) (d : Calls.Done) :
    KnowsBoth site (past ++ [d]) row mail := by
  obtain ⟨mine, hmem, hrest⟩ := h
  exact ⟨mine, List.mem_append_left _ hmem, hrest⟩

/-- **An answer from a change record is about a row that the thread has read**, and an approval of
a T2 action is by somebody whom the thread knows to be another than the author. -/
def Checked (site : Site) (past : List Calls.Done) (id : Nat) (a : Answer) : Prop :=
  ∃ (rows : List ActionRow) (row : ActionRow), (⟨.db .pending, .ok rows⟩ : Calls.Done) ∈ past ∧
    row ∈ rows ∧ row.id = id ∧
      (row.tier = .t2 → a.approve = true → KnowsBoth site past row a.approverEmail)

/-- What a thread has seen when it records a decision or an answer. -/
def Attested (site : Site) (past : List Calls.Done) (o : Op) : Prop :=
  (∀ d payload, o = .db (.recordDecision d payload) → Attributed past d) ∧
    ∀ id a, o = .db (.decide id a) → a.via = channelServicenow → Checked site past id a

section
variable {site : Site} {past : List Calls.Done} {K : List Calls.Done → Prop}

theorem attested_of_ne {o : Op} (hrecord : ∀ d payload, o ≠ .db (.recordDecision d payload))
    (hdecide : ∀ id a, o = .db (.decide id a) → a.via ≠ channelServicenow) :
    Attested site past o :=
  ⟨fun d payload ho => absurd ho (hrecord d payload),
    fun id a ho hvia => absurd hvia (hdecide id a ho)⟩

theorem attested_of_worker {o : Op} (h : o.ofWorker) : Attested site past o := by
  refine attested_of_ne ?_ ?_
  · rintro d payload rfl
    exact h
  · rintro id a rfl
    exact h.elim

theorem abides_attested {o : Op} (hK : Program.Growing K)
    (ho : ∀ past, K past → Attested site past o) : (ask o).Abides (Attested site) K := by
  intro past hpast
  refine ⟨ho past hpast, fun x => ?_⟩
  cases x <;> exact hK _ _ hpast

namespace ActionService

theorem attested_of_stages {o : Op} (h : o.ofStages) : Attested site past o := by
  refine attested_of_ne ?_ ?_
  · rintro d payload rfl
    exact h
  · rintro id a rfl
    exact h.elim

theorem abides_record (hK : Program.Growing K) {d : Decision} {autonomy : Autonomy}
    (hd : ∀ past, K past → Attributed past d) : (record d autonomy).Abides (Attested site) K := by
  have hC := Program.abides_compositional (E := Calls) (ε := Exn) (Attested site) K
  refine hC.bind (hC.attempt (abides_attested hK fun past hpast => ⟨?_, ?_⟩)) fun recorded => ?_
  · rintro d payload ⟨⟩
    exact hd past hpast
  · rintro id a ⟨⟩
  cases recorded with
  | ok row => exact hC.ret _
  | error e =>
    have hfind : (ask (.db (.find d.runId d.stepId)) : Prog (Option ActionRow)).Abides
        (Attested site) K :=
      abides_attested hK fun _ _ => attested_of_stages trivial
    exact fun past hpast => .ite (fun _ => hfind past hpast) fun _ => hpast

/-- **A decision is attributed**, where the thread has read the SOP. -/
theorem abides_attested_decide (hK : Program.Growing K) {call : ActionCall}
    (hread : ∀ past, K past → HasRead past call.sop) (capability : Capability) (runId : Nat)
    (wanted : String) : (decide site call capability runId wanted).Abides (Attested site) K := by
  intro past hpast
  refine follows_ask (attested_of_stages (by exact trivial)) (fun e => hK _ _ hpast)
    fun policy => ?_
  refine follows_ask (attested_of_stages (by exact trivial)) (fun e => hK _ _ (hK _ _ hpast))
    fun found => ?_
  have hL : Program.Growing fun past => K past ∧
      LookedUp policy.rules.rateMinutes call.sop found past :=
    fun past d h => ⟨hK past d h.1, h.2.grow d⟩
  have hC := Program.abides_compositional (E := Calls) (ε := Exn) (Attested site)
    fun past => K past ∧ LookedUp policy.rules.rateMinutes call.sop found past
  have hany : ∀ {o : Op}, o.ofStages → (ask o).Abides (Attested site) fun past => K past ∧
      LookedUp policy.rules.rateMinutes call.sop found past :=
    fun ho => abides_attested hL fun _ _ => attested_of_stages ho
  refine ((?_ : Program.Abides (Attested site) (fun past => K past ∧
    LookedUp policy.rules.rateMinutes call.sop found past) _) _
      ⟨hK _ _ (hK _ _ hpast), _, [], rfl, (hread past hpast).grow _⟩).mono fun _ _ h => h.1
  refine hC.bind (hany (o := .utcnow) trivial) fun now => hC.bind (of_killSwitches hC
    fun _ ho _ => hany ho) fun on => hC.bind (hany (o := .refusals capability.id
      call.step.parameters) trivial) fun refusals => abides_record hL ?_
  exact fun past hpast => ⟨call.sop, _, _, hpast.2, rfl, rfl, rfl⟩

/-- **An attempt at an action** attests what it records. -/
theorem abides_attested_perform (hK : Program.Growing K) {call : ActionCall}
    (hread : ∀ past, K past → HasRead past call.sop) :
    (perform site call).Abides (Attested site) K :=
  of_perform_decided (Program.abides_compositional _ _)
    (fun _ ho => abides_attested hK fun _ _ => attested_of_stages ho) call
    fun capability runId wanted => abides_attested_decide hK hread capability runId wanted

/-- What is wrong with an approval from a change record is nothing only when both e-mail addresses
are known and differ. -/
theorem follows_problemWith (hK : Program.Growing K) (hpast : K past) {row : ActionRow}
    {found : ChangeApproval} : (problemWith site row found).Follows (Attested site) past
      fun past' r => K past' ∧ (r = .ok "" → found.state = "approved" → row.tier = .t2 →
        KnowsBoth site past' row found.approverEmail) := by
  refine .ite (fun _ => ⟨hpast, fun h => absurd h (by simp)⟩) fun _ => .ite
    (fun _ => ⟨hpast, fun h => absurd h (by simp)⟩) fun _ => .ite (fun _ => ?_) fun hnot =>
      ⟨hpast, fun _ hstate htier => absurd ⟨hstate, htier⟩ hnot⟩
  refine follows_ask (attested_of_ne (by rintro _ _ ⟨⟩) (by rintro _ _ ⟨⟩))
    (fun e => ⟨hK _ _ hpast, by rintro ⟨⟩⟩) fun author => ⟨hK _ _ hpast, fun h _ _ => ?_⟩
  have hproblem := Except.ok.inj h
  split at hproblem
  · exact absurd hproblem (by decide)
  · rename_i hgood
    rw [not_or, not_or] at hgood
    exact ⟨author, by simp, hgood.1, hgood.2.1, hgood.2.2⟩

/-- An answer from a change record, once it is accepted. -/
theorem of_accepted {C : ∀ {α : Type}, Prog α → Prop} (hC : Program.Compositional C) {id : Nat}
    {a : Answer} (h : C (ask (.db (.decide id a)) : Prog Bool)) :
    C ((decideAction id a).tryCatch fun e =>
      if isActionError e then (pure () : Prog Unit) else throw e) := by
  refine hC.tryCatch (hC.bind h fun expired => ?_) fun e => ?_
  · show C (if expired = true then (.raise _ : Prog Unit) else .ret ())
    exact Program.Compositional.ite (fun _ => hC.raise _) fun _ => hC.ret _
  · show C (if isActionError e = true then (.ret () : Prog Unit) else .raise e)
    exact Program.Compositional.ite (fun _ => hC.ret _) fun _ => hC.raise _

/-- **What is collected of a change record** is about a row that the thread has read. -/
theorem abides_attested_collect (hK : Program.Growing K) {row : ActionRow}
    {rows : List ActionRow} (hrow : row ∈ rows)
    (hread : ∀ past, K past → (⟨.db .pending, .ok rows⟩ : Calls.Done) ∈ past) :
    (collect site row).Abides (Attested site) K := by
  have hC := Program.abides_compositional (E := Calls) (ε := Exn) (Attested site) K
  intro past hpast
  refine follows_ask (attested_of_ne (by rintro _ _ ⟨⟩) (by rintro _ _ ⟨⟩))
    (fun e => hK _ _ hpast) fun found => ?_
  replace hpast := hK past ⟨.changeApproval ⟨row.changeSysId, row.changeNumber⟩, .ok found⟩ hpast
  refine .ite (fun _ => hpast) fun _ => .bind ((follows_problemWith hK hpast).mono ?_)
  rintro past' problem ⟨hpast', hknows⟩
  cases problem with
  | error e => exact hpast'
  | ok problem =>
    refine .ite (fun _ => ?_) fun hnone => ?_
    · exact hC.bind (abides_attested (o := .db (.transition ..)) hK fun _ _ =>
        attested_of_ne (by rintro _ _ ⟨⟩) (by rintro _ _ ⟨⟩)) (fun _ => hC.ret _) past' hpast'
    · rw [not_not] at hnone
      subst hnone
      have hL : Program.Growing fun past => K past ∧ (found.state = "approved" → row.tier = .t2 →
          KnowsBoth site past row found.approverEmail) :=
        fun past d h => ⟨hK past d h.1, fun hstate htier => (h.2 hstate htier).grow d⟩
      have hC := Program.abides_compositional (E := Calls) (ε := Exn) (Attested site) fun past =>
        K past ∧ (found.state = "approved" → row.tier = .t2 →
          KnowsBoth site past row found.approverEmail)
      refine ((?_ : Program.Abides (Attested site) (fun past => K past ∧ (found.state = "approved" →
        row.tier = .t2 → KnowsBoth site past row found.approverEmail)) _) _
          ⟨hpast', hknows rfl⟩).mono fun _ _ h => h.1
      refine hC.bind (of_accepted hC (abides_attested hL ?_)) fun _ => hC.ret _
      rintro past ⟨hpast, hboth⟩
      refine ⟨by rintro _ _ ⟨⟩, ?_⟩
      rintro id a ⟨⟩ -
      exact ⟨rows, row, hread past hpast, hrow, rfl, fun htier happrove =>
        hboth (by simpa using happrove) htier⟩

/-- **The sweeper** attests the answers that it records. -/
theorem abides_attested_sweep (site : Site) (pollDue : Bool) :
    (sweep site pollDue).Abides (Attested site) fun _ => True := by
  intro past _
  refine follows_ask (attested_of_ne (by rintro _ _ ⟨⟩) (by rintro _ _ ⟨⟩)) (fun _ => trivial)
    fun waiting => ?_
  have hK : Program.Growing fun past : List Calls.Done =>
      (⟨.db .pending, .ok waiting⟩ : Calls.Done) ∈ past := Program.growing_mem _
  have hC := Program.abides_compositional (E := Calls) (ε := Exn) (Attested site)
    fun past => (⟨.db .pending, .ok waiting⟩ : Calls.Done) ∈ past
  have hany : ∀ {o : Op}, (∀ past, Attested site past o) → (ask o).Abides (Attested site)
      fun past => (⟨.db .pending, .ok waiting⟩ : Calls.Done) ∈ past :=
    fun ho => abides_attested hK fun past _ => ho past
  refine ((?_ : Program.Abides (Attested site) (fun past : List Calls.Done =>
    (⟨.db .pending, .ok waiting⟩ : Calls.Done) ∈ past) _) _ (by simp)).mono fun _ _ _ => trivial
  refine hC.bind (hany fun _ => attested_of_ne (by rintro _ _ ⟨⟩) (by rintro _ _ ⟨⟩)) fun now =>
    of_sweepRows hC now pollDue fun row hrow => ?_
  have hexpire : (expire site row true).Abides (Attested site) _ :=
    hany fun _ => attested_of_ne (by rintro _ _ ⟨⟩) (by rintro _ _ ⟨⟩)
  have hcollect : ((collect site row).tryCatch fun _ => pure 0).Abides (Attested site) _ :=
    hC.tryCatch (abides_attested_collect hK hrow fun _ h => h) fun _ => hC.ret _
  intro past hpast
  exact .ite (fun _ => hC.bind hexpire (fun _ => hC.ret _) past hpast) fun _ =>
    .ite (fun _ => hcollect past hpast) fun _ => hpast

end ActionService

namespace RunService

/-- The SOPs that a run may go by have been read. -/
theorem follows_published (journal : LoadedJournal) : (published journal).Follows (Attested site)
    past fun past' r => ∀ sops, r = .ok sops → ∀ sop ∈ sops, HasRead past' sop := by
  refine follows_ask (attested_of_worker (by exact trivial)) (by rintro e sops ⟨⟩)
    fun (sops : List SOP) => ?_
  have hread : ∀ {past'}, ∀ sop ∈ sops,
      HasRead (past ++ ⟨.db .publishedSops, .ok sops⟩ :: past') sop :=
    fun sop hsop => ⟨_, by simp, .inl ⟨sops, rfl, hsop⟩⟩
  cases journal.match? with
  | none =>
    rintro sops' ⟨⟩
    exact hread
  | some stored =>
    refine .ite (fun _ => ?_) fun _ => ?_
    · rintro sops' ⟨⟩
      exact hread
    · refine follows_ask (attested_of_worker (by exact trivial)) (by rintro e sops ⟨⟩)
        fun (earlier : Option SOP) => ?_
      rintro sops' ⟨⟩ sop hsop
      rcases List.mem_append.mp hsop with hsop | hsop
      · rw [List.append_assoc]
        exact hread sop hsop
      · rw [Option.mem_toList] at hsop
        cases hsop
        exact ⟨_, List.mem_append_right _ (List.mem_singleton_self _), .inr ⟨_, _, _, rfl⟩⟩

/-- **An attempt at a run** attests what it records: it performs actions of SOPs it has read. -/
theorem abides_attested_execute (site : Site) (job : ClaimedJob) (advisor : Bool) :
    (execute site job advisor).Abides (Attested site) fun _ => True := by
  have hworker : ∀ {K : List Calls.Done → Prop}, Program.Growing K → ∀ o : Op, o.ofWorker →
      (ask o).Abides (Attested site) K :=
    fun hK _ ho => abides_attested hK fun _ _ => attested_of_worker ho
  have hC := Program.abides_compositional (E := Calls) (ε := Exn) (Attested site) fun _ => True
  have hask := hworker growing_true
  have hruns : ∀ (loaded : Option String × Incident) (journal : LoadedJournal),
      ((published journal).bind fun sops => (IncidentProcessor.runOnce site loaded.2 job.runId
        journal sops advisor).attempt.bind fun ended => settleRun job loaded.2 ended).Abides
          (Attested site) fun _ => True := by
    intro loaded journal past _
    refine .bind ((follows_published journal).mono ?_)
    rintro past' r hread
    cases r with
    | error e => trivial
    | ok sops =>
      have hK : Program.Growing fun past => ∀ sop ∈ sops, HasRead past sop :=
        fun past d h sop hsop => (h sop hsop).grow d
      have hC := Program.abides_compositional (E := Calls) (ε := Exn) (Attested site)
        fun past => ∀ sop ∈ sops, HasRead past sop
      have hrun := hC.bind (hC.attempt (IncidentProcessor.of_runOnce hC (hworker hK) loaded.2
        job.runId journal sops advisor fun call hcall =>
          ActionService.abides_attested_perform hK fun past h => h _ hcall))
            fun ended => of_settleRun hC (hworker hK) job loaded.2 ended
      exact (hrun _ (hread sops rfl)).mono fun _ _ _ => trivial
  refine hC.bind (hask (.db (.loadRun _)) trivial) fun loaded past _ => ?_
  refine .ite (fun _ => hask (.db (.finishJob ..)) rfl past trivial) fun _ => .ite (fun _ => ?_)
    fun _ => hC.bind (hask (.db (.loadJournal _)) trivial) (hruns loaded) past trivial
  exact hC.bind (IncidentProcessor.of_escalate hC (fun o h => hask o h.worker) _)
    (fun _ => hask (.db (.concludeRun ..)) (.inr rfl)) past trivial

end RunService

/-- The coroutines of a deployment. -/
theorem service_attested {p : Prog Unit} (h : Service site p) :
    p.Follows (Attested site) [] fun _ _ => True := by
  refine service_executes (fun o ho past => attested_of_worker ho)
    (RunService.abides_attested_execute site) (ActionService.abides_attested_sweep site)
    (fun _ _ _ => attested_of_ne (by rintro _ _ ⟨⟩) (by rintro _ _ ⟨⟩))
    (fun id a hvia past => attested_of_ne (by rintro _ _ ⟨⟩) ?_)
    (fun o ho past => attested_of_ne ?_ ?_) h
  · rintro id' a' ⟨⟩
    rw [hvia]
    decide
  · rintro d payload rfl
    cases ho
  · rintro id a rfl
    cases ho

end

/-! ## The decision -/

section
variable {site : Site} {tr : List site.Event} {ev : site.Event} {r r' : ActionRow}

/-- **An SOP that was given is a version with a number.** -/
theorem GaveSop.version {sop : SOP} (h : GaveSop ⟨ev.op, ev.answer⟩ sop) (hev : ev.Happens)
    (hs : ∀ v ∈ ev.before.db.sopVersions.rows, v.Orderly) :
    ∃ v ∈ ev.after.db.sopVersions.rows, v.version.map toString = some sop.version ∧
      v.sopKey = sop.sopId ∧ v.contentHash = sop.contentHash := by
  have hversion : ∀ v ∈ ev.before.db.sopVersions.rows, v.status.wasPublished = true →
      v.version.map toString = some (asSop v.content v.version v.contentHash).version ∧
        v.sopKey = (asSop v.content v.version v.contentHash).sopId := by
    intro v hv hpublished
    have horderly := hs v hv
    obtain ⟨n, hn⟩ := Option.isSome_iff_exists.mp (horderly.numbered.trans hpublished)
    have hne : n ≠ 0 := fun h => horderly.positive (by rw [hn, h])
    refine ⟨?_, horderly.key.symm⟩
    simp [asSop, hn, Option.filter, hne]
  obtain ⟨t, o, ch, s, x, s'⟩ := ev
  rcases h with ⟨sops, hgave, hsop⟩ | ⟨key, version, digest, hgave⟩
  · cases hgave
    obtain ⟨hsops, hafter⟩ := Prod.mk.inj (Except.ok.inj (Op.step_ok hev))
    rw [← hsops] at hsop
    obtain ⟨v, hv, rfl⟩ := List.mem_map.mp hsop
    obtain ⟨hv, hstatus⟩ := List.mem_filter.mp hv
    have hstatus : v.status = .published := by simpa using hstatus
    rw [show s'.db = s.db from hafter.symm]
    exact ⟨v, hv, (hversion v hv (by rw [hstatus]; rfl)).1,
      (hversion v hv (by rw [hstatus]; rfl)).2, rfl⟩
  · cases hgave
    obtain ⟨hfound, hafter⟩ := Prod.mk.inj (Except.ok.inj (Op.step_ok hev))
    rw [show s'.db = s.db from hafter.symm]
    unfold versionForResume at hfound
    split at hfound
    · cases hfound
    obtain ⟨v, hv, rfl⟩ := Option.map_eq_some_iff.mp hfound
    have hmem := List.mem_of_find?_eq_some hv
    have hmatch := List.find?_some hv
    simp only [Bool.and_eq_true, Bool.or_eq_true, beq_iff_eq] at hmatch
    obtain ⟨⟨⟨-, -⟩, rfl⟩, hstatus⟩ := hmatch
    have hpublished : v.status.wasPublished = true := by
      rcases hstatus with h | h <;> rw [h] <;> rfl
    exact ⟨v, hmem, (hversion v hmem hpublished).1, (hversion v hmem hpublished).2, rfl⟩

/-- **The author that is looked up** is that of every version which is looked among, where these
are of one author. -/
theorem sopAuthor_eq {sopKey contentHash : String} {pick : Nat} {db : Db} {v : SopVersion}
    (hv : v ∈ numberedVersions sopKey contentHash db)
    (hone : ∀ v ∈ numberedVersions sopKey contentHash db,
      ∀ w ∈ numberedVersions sopKey contentHash db, v.authorId = w.authorId) :
    sopAuthor sopKey contentHash pick db = "" ∨
      sopAuthor sopKey contentHash pick db = v.authorId := by
  unfold sopAuthor
  split
  · exact .inl rfl
  · dsimp only
    cases hfound : (numberedVersions sopKey contentHash db)[
        pick % (numberedVersions sopKey contentHash db).length]? with
    | none => exact .inl rfl
    | some w => exact .inr (hone w (List.mem_of_getElem? hfound) v hv)

/-- **The row records a version, and its author.** -/
def ActionRow.Recorded (versions : List SopVersion) (r : ActionRow) : Prop :=
  ∃ v ∈ versions, r.Records v ∧ (r.sopAuthorId = "" ∨ r.sopAuthorId = v.authorId)

theorem ActionRow.Recorded.stays {versions versions' : List SopVersion} (h : r.Recorded versions)
    (hstay : VersionsStay versions versions') (hsubject : r'.subject = r.subject) :
    r'.Recorded versions' := by
  obtain ⟨v, hv, ⟨hkey, hversion⟩, hauthor⟩ := h
  obtain ⟨w, hw, hsettled⟩ := hstay.stay v hv (by
    cases hv : v.version with
    | none => rw [hv] at hversion; cases hversion
    | some n => rfl)
  have hkey' : r'.subject.sopKey = r.subject.sopKey := by rw [hsubject]
  have hversion' : r'.subject.sopVersion = r.subject.sopVersion := by rw [hsubject]
  have hauthor' : r'.subject.sopAuthorId = r.subject.sopAuthorId := by rw [hsubject]
  refine ⟨w, hw, ⟨hsettled.key.trans (hkey.trans hkey'.symm), ?_⟩, ?_⟩
  · rw [hsettled.version, hversion]
    exact congrArg some hversion'.symm
  · rw [hsettled.author]
    exact (show r'.sopAuthorId = r.sopAuthorId from hauthor') ▸ hauthor

/-- **A new row records the version that its decision names**, and its author. -/
theorem recorded_added {d : Decision} (hattributed : Attributed (System.own ev.thread tr) d)
    (hpast : ∀ e ∈ tr, e.Happens ∧ e.op.OneAuthor e.before.db ∧
      ∀ v ∈ e.before.db.sopVersions.rows, v.Orderly)
    (hstay : System.Each (fun pre (e : site.Event) => ∀ e' ∈ pre,
      VersionsStay e'.after.db.sopVersions.rows e.before.db.sopVersions.rows) tr)
    (hnow : ∀ e ∈ tr, VersionsStay e.after.db.sopVersions.rows ev.before.db.sopVersions.rows)
    (id incidentId : Nat) : (d.toRow id incidentId).Recorded ev.before.db.sopVersions.rows := by
  obtain ⟨sop, minutes, count, ⟨before, after, hown, hread⟩, hkey, hversion, hhash⟩ := hattributed
  obtain ⟨pre, looked, post, rfl, -, hlooked, hbefore, -⟩ := System.own_split hown
  obtain ⟨x, hx, hgave⟩ := hread
  rw [← hbefore] at hx
  obtain ⟨o, answer⟩ := x
  obtain ⟨ch, s, s', hmem⟩ := System.mem_own hx
  obtain ⟨hgiven, -, horderly⟩ := hpast _ (List.mem_append_left _ hmem)
  obtain ⟨v, hv, hnumber, hvkey, hvhash⟩ := hgave.version hgiven horderly
  have hnumbered : v.version.isSome = true := by
    cases hv : v.version with
    | none => rw [hv] at hnumber; cases hnumber
    | some n => rfl
  -- the version is still there when the author is looked up, and when the decision is recorded
  obtain ⟨w, hw, hsettled⟩ := (hstay pre looked post rfl _ hmem).stay v hv hnumbered
  obtain ⟨hhappens, hone, -⟩ := hpast looked (by simp)
  obtain ⟨t, o', ch', u, answer', u'⟩ := looked
  cases hlooked
  obtain ⟨hfound, hafter⟩ := Prod.mk.inj (Except.ok.inj (Op.step_ok hhappens))
  have hamong : w ∈ numberedVersions sop.sopId sop.contentHash u.db := by
    refine List.mem_filter.mpr ⟨hw, ?_⟩
    simp [hsettled.key, hsettled.hash, hsettled.version, hvkey, hvhash, hnumbered]
  have hauthor : d.sopAuthorId = "" ∨ d.sopAuthorId = w.authorId := by
    rw [← show sopAuthor sop.sopId sop.contentHash (ch' : Choice).pick u.db = d.sopAuthorId from
      congrArg Prod.snd hfound]
    exact sopAuthor_eq hamong hone
  have hlater := hnow _ (List.mem_append_right pre (List.mem_cons_self ..))
  obtain ⟨y, hy, hsettled'⟩ := hlater.stay w (by rw [← hafter]; exact hw)
    (by rw [hsettled.version]; exact hnumbered)
  refine ⟨y, hy, ⟨?_, ?_⟩, ?_⟩
  · exact hsettled'.key.trans (hsettled.key.trans (hvkey.trans hkey.symm))
  · rw [hsettled'.version, hsettled.version, hnumber]
    exact congrArg some hversion.symm
  · rw [hsettled'.author]
    exact hauthor

end

/-! ## What the rows say of their approval -/

section
variable {site : Site} {tr : List site.Event} {ev : site.Event} {r r' : ActionRow}
  {versions versions' : List SopVersion}

/-- **The row is watched**: it records a version and its author; it is not allowed at once where it
takes two people; and where it has passed, somebody else than the author has approved it. -/
structure ActionRow.Watched (tr : List site.Event) (versions : List SopVersion) (r : ActionRow) :
    Prop where
  recorded : r.Recorded versions
  allowed : r.status = .allowed → r.tier ≠ .t2
  approved : r.tier = .t2 → r.Passed →
    r.sopAuthorId ≠ "" ∧ ApprovedByAnother tr r r.sopAuthorId

theorem ApprovedByAnother.snoc {author : String} (h : ApprovedByAnother tr r author)
    (ev : site.Event) (hid : r'.id = r.id) (hby : r'.approverId = r.approverId)
    (hvia : r'.decidedVia = r.decidedVia) : ApprovedByAnother (tr ++ [ev]) r' author := by
  obtain ⟨pre, e, post, a, v, rfl, hc, happrove, hactor, hdecided, hrest⟩ := h
  refine ⟨pre, e, post ++ [ev], a, v, by simp, ?_, happrove, hby.trans hactor,
    hvia.trans hdecided, hrest⟩
  rw [hid]
  exact hc

/-- The author that the thread has looked up, and the approver, have addresses that differ. -/
theorem KnowsBoth.mailsDiffer {thread : Nat} {mail : String} (hpast : ∀ e ∈ tr, e.Happens)
    (h : KnowsBoth site (System.own thread tr) r mail) :
    MailsDiffer tr thread r.sopAuthorId mail := by
  obtain ⟨mine, hmem, hmine, hmail, hne⟩ := h
  obtain ⟨ch, before, after, hlooked⟩ := System.mem_own hmem
  obtain ⟨heq, -⟩ := Prod.mk.inj (Except.ok.inj (Op.step_ok (hpast _ hlooked)))
  refine ⟨_, hlooked, rfl, rfl, ?_, hmail, ?_⟩
  · exact fun h => hmine (heq.symm.trans h)
  · exact fun h => hne (heq.symm.trans h)

/-- A move that leaves the approval of the row as it is. -/
theorem ActionRow.Watched.kept (h : r.Watched tr versions) (hstay : VersionsStay versions versions')
    (ev : site.Event) (hsubject : r'.subject = r.subject)
    (hallowed : r'.status = .allowed → r.status = .allowed)
    (hpassed : r'.Passed → r.tier = .t2 → r.Passed)
    (hby : r'.approverId = r.approverId) (hvia : r'.decidedVia = r.decidedVia) :
    r'.Watched (tr ++ [ev]) versions' := by
  have hid : r'.subject.id = r.subject.id := by rw [hsubject]
  have htier : r'.subject.tier = r.subject.tier := by rw [hsubject]
  have hauthor : r'.subject.sopAuthorId = r.subject.sopAuthorId := by rw [hsubject]
  have hid : r'.id = r.id := hid
  have htier : r'.tier = r.tier := htier
  have hauthor : r'.sopAuthorId = r.sopAuthorId := hauthor
  refine ⟨h.recorded.stays hstay hsubject, fun hs => ?_, fun ht hp => ?_⟩
  · rw [htier]
    exact h.allowed (hallowed hs)
  · rw [htier] at ht
    obtain ⟨hknown, happroved⟩ := h.approved ht (hpassed hp ht)
    rw [hauthor]
    exact ⟨hknown, happroved.snoc ev hid hby hvia⟩

/-- **A statement leaves the row watched.** -/
theorem ActionRow.Watched.moved (h : r.Watched tr versions)
    (hstay : VersionsStay versions versions') {c : DbCall} {v : c.Val}
    (hop : Op.OfService (.db c)) (hc : ev.Commits c v)
    (hmails : ∀ a, c = .decide r.id a → a.via = channelServicenow → a.approve = true →
      r.tier = .t2 → MailsDiffer tr ev.thread r.sopAuthorId a.approverEmail)
    (hmove : r.Move ev.before.db ev.time c r') : r'.Watched (tr ++ [ev]) versions' := by
  have hsubject := hmove.subject_eq
  have hchange := hop.change hmove
  cases hmove with
  | same => exact h.kept hstay ev rfl (fun hs => hs) (fun hp _ => hp) rfl rfl
  | noted event payload values =>
    exact h.kept hstay ev rfl (fun hs => hs) (fun hp _ => hp) rfl rfl
  | moved fromStatuses toStatus event payload values wake hfrom =>
    have helse := hop.lands_elsewhere
    refine h.kept hstay ev rfl (fun hs => ?_) (fun hp _ => ?_) rfl rfl
    · obtain rfl : toStatus = .allowed := hs
      exact absurd (by decide) helse
    · rcases hp with hs | hs | hs
      · obtain rfl : toStatus = .approved := hs
        exact absurd (by decide) helse
      · refine .inr (.inl ?_)
        have hs : toStatus.begun = true := hs
        rcases hchange.status with heq | hnext
        · rw [← heq]
          exact hs
        · refine ActionStatus.begun_of_next hnext hs fun heq => ?_
          obtain rfl : toStatus = .executing := heq
          exact absurd (by decide) helse
      · exact .inr (.inr hs)
  | begun localSwitch hfrom =>
    refine h.kept hstay ev rfl (fun hs => (nomatch hs)) (fun _ ht => ?_) rfl rfl
    rcases hfrom with hs | hs
    · exact .inl hs
    · exact absurd ht (h.allowed hs)
  | expired a hok =>
    refine h.kept hstay ev rfl (fun hs => (nomatch hs)) (fun hp _ => ?_) rfl rfl
    rcases hp with hs | hs | hs
    · cases hs
    · cases hs
    · exact .inr (.inr hs)
  | answered a hok htime =>
    refine ⟨h.recorded.stays hstay rfl, fun hs => ?_, fun ht hp => ?_⟩
    · have hanswer : (if a.approve then ActionStatus.approved else .rejected) = .allowed := hs
      split at hanswer <;> cases hanswer
    have ht : r.tier = .t2 := ht
    have happrove : a.approve = true := by
      cases happrove : a.approve with
      | true => rfl
      | false =>
        -- a rejection carries no approval
        obtain ⟨hseen, hhash⟩ := refuses_about hok
        rcases hp with hs | hs | ⟨-, hs⟩
        · simp [ActionRow.answered, happrove] at hs
        · simp [ActionRow.answered, happrove, ActionStatus.begun] at hs
        · have hs : (if a.approve then r.actionHash else "") = r.actionHash := hs
          rw [happrove] at hs
          exact absurd (hhash.trans hs.symm) hseen
    obtain ⟨hknown, hother⟩ := refuses_author hok (Bool.eq_false_iff.mp htime) happrove ht
    refine ⟨hknown, tr, ev, [], a, v, rfl, hc, happrove, rfl, rfl, Ne.symm hother, ?_⟩
    rcases hop.via with hvia | hvia
    · exact .inl hvia
    · exact .inr ⟨hvia, hmails a rfl hvia happrove ht⟩

/-- **A new row is watched**: it is allowed at once only where one person is enough, and nobody has
approved it. -/
theorem watched_added {d : Decision} {id incidentId : Nat}
    (hrecorded : (d.toRow id incidentId).Recorded versions)
    (hstatus : d.status = verdictStatus d.verdict) (hchecks : (d.toRow id incidentId).Checks) :
    (d.toRow id incidentId).Watched tr versions where
  recorded := hrecorded
  allowed hs := by
    have hverdict : d.verdict = .allow := by
      have hs : d.status = .allowed := hs
      rw [hstatus] at hs
      cases hv : d.verdict <;> rw [hv] at hs <;> first | rfl | cases hs
    rw [hchecks.onlyT1Unattended hverdict]
    decide
  approved _ hp := by
    exfalso
    have hs : d.status = .approved ∨ d.status.begun = true ∨ (none : Option String).isSome = true :=
      hp.imp_right fun h => h.imp_right And.left
    rw [hstatus] at hs
    cases hv : d.verdict <;> rw [hv] at hs <;> revert hs <;> decide

end

/-! ## The runs -/

/-- What is known at each point of a history: the versions are orderly, and the rows watched. -/
structure Guarded {site : Site} (s : Estate) (tr : List site.Event) : Prop where
  orderly : ∀ v ∈ s.db.sopVersions.rows, v.Orderly
  watched : ∀ id r, s.db.actions.get? id = some r → r.Watched tr s.db.sopVersions.rows

section
variable {site : Site} {ev : site.Event} {pre : List site.Event}

theorem Guarded.step (h : Guarded ev.before pre) (hop : ev.op.OfService) (hev : ev.Happens)
    (hattested : Attested site (System.own ev.thread pre) ev.op)
    (hpast : ∀ e ∈ pre, e.Happens ∧ e.op.OneAuthor e.before.db ∧
      ∀ v ∈ e.before.db.sopVersions.rows, v.Orderly)
    (hversions : System.Each (fun pre (e : site.Event) => ∀ e' ∈ pre,
      VersionsStay e'.after.db.sopVersions.rows e.before.db.sopVersions.rows) (pre ++ [ev]))
    (hsubjects : ∀ e ∈ pre, e.after.SubjectsStay ev.before) :
    Guarded ev.after (pre ++ [ev]) := by
  have hstay := versionsStay_step hev h.orderly
  refine ⟨hstay.orderly, fun id r' hr' => ?_⟩
  cases hr : ev.before.db.actions.get? id with
  | none =>
    obtain ⟨d, payload, v, incidentId, hc, rfl⟩ := hev.row_added hr hr'
    rw [hc.1] at hop hattested
    refine watched_added ?_ hop.decision_status
      (ev.after.db.actions.ok.checks _ (ActionTable.get?_mem hr'))
    refine (recorded_added (hattested.1 d payload rfl) hpast (fun p e q hsplit => ?_)
      (hversions pre ev [] rfl) id incidentId).stays hstay rfl
    exact hversions p e (q ++ [ev]) (by simp [hsplit])
  | some r =>
    rcases hev.row_moves hr hr' with rfl | ⟨c, v, hc, hmove⟩
    · exact (h.watched id r' hr).kept hstay ev rfl (fun hs => hs) (fun hp _ => hp) rfl rfl
    rw [hc.1] at hop hattested
    refine (h.watched id r hr).moved hstay hop hc ?_ hmove
    rintro a rfl hvia happrove htier
    obtain ⟨rows, x, hread, hx, hid, hknows⟩ := hattested.2 r.id a rfl hvia
    obtain ⟨ch, before, after, hmem⟩ := System.mem_own hread
    have hrow : after.db.actions.get? x.id = some x := by
      obtain ⟨hrows, hafter⟩ := Prod.mk.inj (Except.ok.inj (Op.step_ok (hpast _ hmem).1))
      rw [← hafter]
      rw [← hrows] at hx
      exact ActionTable.get?_of_mem (List.mem_filter.mp hx).1
    obtain ⟨y, hy, hsubject⟩ := hsubjects _ hmem x.id x hrow
    rw [hid, ActionTable.get?_id hr, hr] at hy
    cases hy
    have htier' : r.subject.tier = x.subject.tier := by rw [hsubject]
    have hauthor : r.subject.sopAuthorId = x.subject.sopAuthorId := by rw [hsubject]
    have hmails := (hknows ((show r.tier = x.tier from htier').symm.trans htier)
      happrove).mailsDiffer fun e he => (hpast e he).1
    rw [show r.sopAuthorId = x.sopAuthorId from hauthor]
    exact hmails

end

/-- **Four eyes on T2 actions**, over every run in which the author is looked up only among
versions that are of one author. -/
theorem four_eyes (site : Site) (s : Estate) (hempty : s.db.actions.rows = [])
    (hversions : ∀ v ∈ s.db.sopVersions.rows, v.Orderly)
    (d : Config Calls Exn (Estate × List site.Event))
    (hd : site.service.recorded.Reaches (fun _ o _ s => o.OneAuthor s.1.db)
      (Config.idle (s, [])) d) :
    ∀ r ∈ d.shared.1.db.actions.rows, r.tier = .t2 → r.Passed →
      (∃ v ∈ d.shared.1.db.sopVersions.rows, r.Records v) ∧
        ∀ v ∈ d.shared.1.db.sopVersions.rows, r.Records v →
          ApprovedByAnother d.shared.2 r v.authorId := by
  have hevents := @recorded_events site (fun _ o _ s => o.OneAuthor s.db) s d hd
  have hattested := System.recorded_follows (fun _ hp => service_attested hp) hd
  have hsubjects := System.recorded_between (R := Estate.SubjectsStay) (P := Op.OfService)
    Estate.SubjectsStay.refl (fun _ _ _ => Estate.SubjectsStay.trans)
    (fun _ hp => service_issues hp) (fun ev _ hev => @subjectsStay_step site ev hev) hd
  have hstay := System.recorded_between (R := Estate.VersionsStay) (P := Op.OfService)
    Estate.VersionsStay.refl (fun _ _ _ => Estate.VersionsStay.trans)
    (fun _ hp => service_issues hp) (fun ev _ hev => @versionsStay_step site ev hev) hd
  have horderly : System.Each (fun _ (e : site.Event) =>
      ∀ v ∈ e.before.db.sopVersions.rows, v.Orderly) d.shared.2 :=
    fun pre e post hsplit => ((hstay pre e post hsplit).1 hversions).orderly
  have hstart : Guarded s ([] : List site.Event) := by
    refine ⟨hversions, fun id r hr => ?_⟩
    have hmem := ActionTable.get?_mem hr
    rw [hempty] at hmem
    cases hmem
  obtain ⟨hguarded, -⟩ := System.recorded_induction (I := Guarded) hd hstart
    fun pre ev post hsplit h => by
      obtain ⟨hop, hev, -⟩ := hevents ev (by simp [hsplit])
      refine h.step hop hev (hattested pre ev post hsplit) (fun e he => ?_)
        (fun p e q hsplit' e' he' => ?_) (hsubjects pre ev post hsplit).2
      · have hmem : e ∈ d.shared.2 := by rw [hsplit]; exact List.mem_append_left _ he
        obtain ⟨p, q, hp⟩ := List.append_of_mem hmem
        exact ⟨(hevents e hmem).2.1, (hevents e hmem).2.2, horderly p e q hp⟩
      · have hsplit' : d.shared.2 = p ++ e :: (q ++ post) := by
          rw [hsplit, List.append_cons, hsplit', List.append_assoc]
          rfl
        obtain ⟨p', q', rfl⟩ := List.append_of_mem he'
        have hafter : ∀ v ∈ e'.after.db.sopVersions.rows, v.Orderly := by
          have hev := (hevents e' (by simp [hsplit'])).2.1
          refine (versionsStay_step hev (horderly p' e' (q' ++ e :: (q ++ post)) ?_)).orderly
          simp [hsplit']
        exact (hstay _ e _ hsplit').2 e' he' hafter
  intro r hr htier hpassed
  have hwatched := hguarded.watched r.id r (ActionTable.get?_of_mem hr)
  obtain ⟨hknown, happroved⟩ := hwatched.approved htier hpassed
  obtain ⟨v, hv, hrecords, hauthor⟩ := hwatched.recorded
  refine ⟨⟨v, hv, hrecords⟩, fun w hw hrecords' => ?_⟩
  obtain rfl : w = v := by
    obtain ⟨n, hn, hnumber⟩ := Option.map_eq_some_iff.mp hrecords'.2
    obtain ⟨m, hm, hnumber'⟩ := Option.map_eq_some_iff.mp hrecords.2
    obtain rfl := Db.toString_inj (hnumber.trans hnumber'.symm)
    exact d.shared.1.db.sopVersions.unique_number hw hv (hrecords'.1.trans hrecords.1.symm)
      (by rw [hn]; rfl) (hn.trans hm.symm)
  rw [← hauthor.resolve_left hknown]
  exact happroved

/-- An action of two people's, approved by a third person. -/
theorem four_eyes_sample : ∃ (d : Config Calls Exn (Estate × List servingSite.Event))
    (r : ActionRow), r ∈ d.shared.1.db.actions.rows ∧ r.tier = .t2 ∧ r.Passed ∧
      (∃ v ∈ d.shared.1.db.sopVersions.rows, r.Records v) ∧
        ∀ v ∈ d.shared.1.db.sopVersions.rows, r.Records v →
          ApprovedByAnother d.shared.2 r v.authorId := by
  have hplay : (servingSite.service.recorded.playIf
      (fun _ (o : Op) _ st => decide (o.OneAuthor st.1.db)) (Config.idle (strictEstate, []))
      ((.start servingTurn :: List.replicate 27 (.op 0 smooth)) ++
        (.start (ActionService.decideAction 0 (servingAnswer true)) ::
          List.replicate 1 (.op 1 smooth)))).map (fun d =>
            d.shared.1.db.actions.rows.any fun r => r.tier = .t2 ∧ r.status = .approved) =
      some true := by
    decide +kernel
  obtain ⟨d, hd, hends⟩ := Option.map_eq_some_iff.mp hplay
  obtain ⟨r, hr, htwo⟩ := List.any_eq_true.mp hends
  obtain ⟨htier, hs⟩ := of_decide_eq_true htwo
  exact ⟨d, r, hr, htier, .inl hs, four_eyes servingSite strictEstate rfl
    (by rintro v (_ | ⟨_, ⟨⟩⟩); exact ⟨rfl, rfl, by decide⟩) d
    (System.playIf_reaches _ (fun _ _ _ _ h => of_decide_eq_true h)
      (.append (.start (Service.work _ _ _) .ops) (.start (Service.decide _ _ rfl rfl) .ops)) hd)
    r hr htier (.inl hs)⟩

/-! ## One content, two authors -/

instance (r : ActionRow) (v : SopVersion) : Decidable (r.Records v) :=
  inferInstanceAs (Decidable (_ ∧ _))

/-- The SOP has been published twice with one content: by its first author, and by somebody who
submitted it again. -/
def repeatedEstate : Estate :=
  { strictEstate with
    db :=
      { strictEstate.db with
        sopVersions :=
          ⟨[{ actingVersion with status := .superseded },
            { actingVersion with id := 1, version := some 2, authorId := "user:c" }], by decide⟩ } }

/-- The second author approves the action that they are shown. -/
def ownAnswer : Answer :=
  { servingAnswer true with
    seenHash := actionHash servingSite sampleIncident
      (asSop actingVersion.content (some 2) "restart-job") "JOB_RESTART"
        (.obj [("job", .str "billing")]) }

/-- **The author of a version can approve a T2 action from it.**  The author is looked up by the
content, and the version before has the same content by somebody else. -/
theorem author_approves : ¬ ∀ (site : Site) (s : Estate), s.db.actions.rows = [] →
    (∀ v ∈ s.db.sopVersions.rows, v.Orderly) →
    ∀ d : Config Calls Exn (Estate × List site.Event),
      site.service.recorded.Reaches (System.anyStep _) (Config.idle (s, [])) d →
        ∀ r ∈ d.shared.1.db.actions.rows, r.tier = .t2 → r.Passed →
          (∃ v ∈ d.shared.1.db.sopVersions.rows, r.Records v) ∧
            ∀ v ∈ d.shared.1.db.sopVersions.rows, r.Records v →
              ApprovedByAnother d.shared.2 r v.authorId := by
  intro hall
  have hplay : (servingSite.service.recorded.play (Config.idle (repeatedEstate, []))
      ((.start servingTurn :: List.replicate 27 (.op 0 smooth)) ++
        (.start (ActionService.decideAction 0 ownAnswer) ::
          List.replicate 1 (.op 1 smooth)))).map (fun d =>
            d.shared.1.db.actions.rows.any fun r => d.shared.1.db.sopVersions.rows.any fun v =>
              r.tier = .t2 ∧ r.status = .approved ∧ r.Records v ∧
                r.approverId = some v.authorId) = some true := by
    decide +kernel
  obtain ⟨d, hd, hends⟩ := Option.map_eq_some_iff.mp hplay
  obtain ⟨r, hr, hends⟩ := List.any_eq_true.mp hends
  obtain ⟨v, hv, hends⟩ := List.any_eq_true.mp hends
  obtain ⟨htier, hs, hrecords, happrover⟩ := of_decide_eq_true hends
  obtain ⟨pre, ev, post, a, u, -, -, -, hactor, -, hother, -⟩ :=
    (hall servingSite repeatedEstate rfl
      (by rintro v (_ | ⟨_, _ | ⟨_, ⟨⟩⟩⟩) <;> exact ⟨rfl, rfl, by decide⟩) d
      (System.play_reaches _
        (.append (.start (Service.work _ _ _) .ops) (.start (Service.decide _ _ rfl rfl) .ops)) hd)
      r hr htier (.inl hs)).2 v hv hrecords
  rw [happrover] at hactor
  exact hother (Option.some_inj.mp hactor).symm

end L1Agent
