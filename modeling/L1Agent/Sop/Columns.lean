import L1Agent.Sop.Drafting

/-! # The widths of the columns (`db/models.py`)

PostgreSQL refuses a text that is longer than its column.  `Column` names the columns of bounded
width that hold a text of an SOP, of its draft or of the actor; each statement of the store writes
some of them (`Statement.written`).

The event of a draft names the SOP in its correlation id, behind `sop:`, and this column is no
wider than the one of the key: the writes of a draft fit just when the key has at most 96
characters, which is less than `normalise` accepts (`createDraft_fits`).
-/
namespace L1Agent

/-- A column of bounded width. -/
inductive Column where
  -- sops
  | sopKey | title
  -- sop_versions
  | versionStatus | contentHash | origin | sourceId | sourceArticle | sourceRevision | authorId
  | approverId
  -- knowledge_sources
  | knowledgeSource | cursor
  -- runs
  | runState | runOutcome | runSopId | runSopVersion | runSopHash
  -- run_steps
  | stepId | stepStatus
  -- jobs
  | jobStatus | lockedBy
  -- actions
  | actionIncidentNumber | actionStepId | actionSopKey | actionSopVersion | actionSopHash
  | actionSopAuthorId | actionCapabilityId | actionCallDigest | actionHash | actionTier
  | actionVerdict | actionReasonCode | actionRule | actionStatus | actionChangeTemplate
  | actionChangeSysId | actionChangeNumber | actionApproverId | actionApproverEmail
  | actionApprovedHash | actionDecidedVia
  -- audit_events
  | actorType | actorId | correlationId | eventType
  deriving DecidableEq, Repr

namespace Column

/-- `sa.String(width)` -/
def width : Column → Nat
  | sopKey | stepId | runSopId | lockedBy | correlationId => 100
  | title | authorId | approverId | actorId => 300
  | versionStatus | origin | stepStatus | jobStatus | runOutcome | actorType => 20
  | contentHash | sourceId | knowledgeSource | runSopHash => 64
  | sourceArticle => 500
  | sourceRevision | cursor => 200
  | runState => 30
  | runSopVersion => 40
  | eventType => 80
  | actionStepId | actionSopKey | actionChangeTemplate => 100
  | actionSopAuthorId | actionRule | actionApproverId => 300
  | actionIncidentNumber | actionSopHash | actionCallDigest | actionHash | actionChangeSysId
  | actionApprovedHash => 64
  | actionSopVersion | actionChangeNumber => 40
  | actionCapabilityId => 120
  | actionTier => 4
  | actionVerdict | actionStatus | actionDecidedVia => 20
  | actionReasonCode => 60
  | actionApproverEmail => 320

end Column

/-- A text that is written to a column. -/
structure Written where
  column : Column
  text : String
  deriving DecidableEq

def Written.Fits (w : Written) : Prop := w.text.length ≤ w.column.width

instance (w : Written) : Decidable w.Fits := inferInstanceAs (Decidable (_ ≤ _))

/-- A text that is written if it is given. -/
def writtenIf (column : Column) (text : Option String) : List Written :=
  (text.map fun text => (⟨column, text⟩ : Written)).toList

/-- Each of the texts fits its column. -/
def Fit (written : List Written) : Prop := ∀ w ∈ written, w.Fits

instance (written : List Written) : Decidable (Fit written) :=
  inferInstanceAs (Decidable (∀ w ∈ written, w.Fits))

theorem fit_nil : Fit [] := fun _ h => nomatch h

theorem fit_cons {w : Written} {written : List Written} :
    Fit (w :: written) ↔ w.Fits ∧ Fit written := List.forall_mem_cons

theorem fit_append {written more : List Written} :
    Fit (written ++ more) ↔ Fit written ∧ Fit more := List.forall_mem_append

theorem fit_writtenIf {column : Column} {text : Option String} :
    Fit (writtenIf column text) ↔ ∀ value, text = some value → value.length ≤ column.width := by
  cases text with
  | none => exact ⟨fun _ _ h => (nomatch h), fun _ => fit_nil⟩
  | some value =>
    refine fit_cons.trans ⟨fun h other hother => ?_, fun h => ⟨h value rfl, fit_nil⟩⟩
    obtain rfl := Option.some.inj hother
    exact h.1

/-- The part after a separator is no longer than the whole. -/
theorem length_partition (sep : Char) (text : String) :
    (partition sep text).2.2.length ≤ text.length := by
  show (String.ofList _).length ≤ _
  rw [String.length_ofList, List.length_drop, List.length_drop, ← String.length_toList]
  omega

/-! ## Audit events -/

/-- The columns of an actor, which is its type and its id. -/
def actorWritten (actor : String) : List Written :=
  [⟨.actorType, (partition ':' actor).1⟩, ⟨.actorId, (partition ':' actor).2.2⟩]

/-- What `append` writes of an event, besides what has a length of its own: the time, the number
and the hashes. -/
def AuditEvent.written (e : AuditEvent) : List Written :=
  actorWritten e.actor ++ [⟨.correlationId, e.correlationId⟩, ⟨.eventType, e.event⟩]

/-- An actor that the log can name, and that can be an author. -/
structure ActorFits (actor : String) : Prop where
  type : (partition ':' actor).1.length ≤ 20
  named : actor.length ≤ 300

instance (actor : String) : Decidable (ActorFits actor) :=
  decidable_of_iff ((partition ':' actor).1.length ≤ 20 ∧ actor.length ≤ 300)
    ⟨fun h => ⟨h.1, h.2⟩, fun h => ⟨h.1, h.2⟩⟩

theorem ActorFits.written {actor : String} (h : ActorFits actor) : Fit (actorWritten actor) := by
  have hid := length_partition ':' actor
  have hnamed := h.named
  refine fit_cons.mpr ⟨h.type, fit_cons.mpr ⟨?_, fit_nil⟩⟩
  show (partition ':' actor).2.2.length ≤ 300
  omega

theorem AuditEvent.fit {e : AuditEvent} (hactor : ActorFits e.actor)
    (hcorrelation : e.correlationId.length ≤ 100) (hevent : e.event.length ≤ 80) :
    Fit e.written :=
  fit_append.mpr ⟨hactor.written,
    fit_cons.mpr ⟨hcorrelation, fit_cons.mpr ⟨hevent, fit_nil⟩⟩⟩

/-- What the correlation id of an SOP's events leaves for the key. -/
theorem length_correlation (sopKey : String) :
    ("sop:" ++ sopKey).length ≤ 100 ↔ sopKey.length ≤ 96 := by
  rw [String.length_append]
  have hsop : ("sop:" : String).length = 4 := rfl
  omega

/-- The text of a status. -/
def SopStatus.text : SopStatus → String
  | draft => "draft"
  | inReview => "in_review"
  | approved => "approved"
  | published => "published"
  | superseded => "superseded"
  | retired => "retired"

theorem SopStatus.fits (status : SopStatus) : (⟨.versionStatus, status.text⟩ : Written).Fits := by
  cases status <;> decide

namespace Drafting
open Interleaving Transactions

/-- What a statement writes to columns of bounded width. -/
def Statement.written : Statement → List Written
  | insertSop row => [⟨.sopKey, row.sopKey⟩, ⟨.title, row.title⟩]
  | insertVersion row =>
    [⟨.versionStatus, row.status.text⟩, ⟨.origin, row.origin⟩, ⟨.sourceId, row.sourceId⟩,
      ⟨.sourceArticle, row.sourceArticle⟩, ⟨.sourceRevision, row.sourceRevision⟩,
      ⟨.authorId, row.authorId⟩]
  | updateVersion _ _ authorId => [⟨.authorId, authorId⟩]
  | setStatus _ status => [⟨.versionStatus, status.text⟩]
  | append event => event.written
  | record actor result moved =>
    ⟨.knowledgeSource, result.sourceId⟩ :: writtenIf .cursor (moved.map (clipText 200)) ++
      (Store.syncEvent actor result).written
  | _ => []

/-- What the statement writes fits. -/
def Op.Fits (o : Op) : Prop := Fit o.statement.written

/-! ## The programs -/

section
variable {α β : Type} {P : Op → Prop}

theorem issues_execute_iff {request : Request} {st : Statement} :
    (execute request st).Issues P ↔ P ⟨request, st⟩ :=
  ⟨fun h => h.1, fun h => ⟨h, fun x => Program.issues_ofExcept x⟩⟩

end

section
variable (tools : Tools)

/-- The key of a content that is accepted and can be looked up. -/
def Keyed (content : Json) (sopKey : String) (data : Json) : Prop :=
  Raw.normalise tools.builtins content = .ok data ∧ data.getD "sop_id" .null = .str sopKey

variable {tools} {content data : Json} {sopKey : String}

theorem Keyed.normalised (h : Keyed tools content sopKey data) :
    normalised tools content = .ret (sopKey, data) := by
  unfold Drafting.normalised
  rw [h.1]
  dsimp only
  rw [h.2]
  rfl

/-- What must hold of a draft besides its key. -/
structure Draft.Fits (d : Draft) : Prop where
  actor : ActorFits d.actor
  origin : d.origin.length ≤ 20
  source : ∀ source, d.source = some source → source.sourceId.length ≤ 64

end

end Drafting
end L1Agent
