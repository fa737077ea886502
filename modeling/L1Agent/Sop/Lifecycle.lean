import Mathlib.Data.List.Pairwise
import L1Agent.Engine.Executor
import L1Agent.Sop.Store

/-! # What the transactions of the version store do

One lemma for each transaction: which version it found, what it checked, and which rows and
event it left.

They are stated over the rows that were there (`Db.Saved`), so that an invariant of the store is a
matter of what becomes of one version.
-/
namespace L1Agent
open Executor (bind_eq_ok)

theorem getVersion_ok {id : Nat} {db : Db} {v : SopVersion} (h : getVersion id db = .ok v) :
    v ∈ db.sopVersions.rows ∧ v.id = id := by
  unfold getVersion at h
  split at h
  · cases h
  · rename_i hfind
    cases h
    exact ⟨List.mem_of_find?_eq_some hfind, by simpa using List.find?_some hfind⟩

theorem SopTable.ofRows_ok {rows : List SopVersion} {t : SopTable} (h : SopTable.ofRows rows = .ok t) :
    t.rows = rows := by
  unfold SopTable.ofRows at h
  split at h
  · cases h
    rfl
  · cases h

/-- The rows and the event are there. -/
def Db.Saved (db : Db) (rows : List SopVersion) (event : AuditEvent) (db' : Db) : Prop :=
  ∃ t : SopTable, t.rows = rows ∧ db' = { db with sopVersions := t, audit := db.audit ++ [event] }

theorem saveVersions_ok {rows : List SopVersion} {event : AuditEvent} {db db' : Db}
    (h : saveVersions rows event db = .ok db') : db.Saved rows event db' := by
  unfold saveVersions at h
  cases hrows : SopTable.ofRows rows with
  | error e =>
    rw [hrows] at h
    cases h
  | ok t =>
    rw [hrows] at h
    cases h
    exact ⟨t, SopTable.ofRows_ok hrows, rfl⟩

theorem Db.Saved.rows_eq {db db' : Db} {rows : List SopVersion} {event : AuditEvent}
    (h : db.Saved rows event db') : db'.sopVersions.rows = rows := by
  obtain ⟨t, ht, rfl⟩ := h
  exact ht

/-- The last statement of a transaction. -/
theorem save_ok {α : Type} {rows : List SopVersion} {event : AuditEvent} {db db' : Db} {a b : α}
    (h : (saveVersions rows event db >>= fun db => pure (a, db)) = .ok (b, db')) :
    b = a ∧ db.Saved rows event db' := by
  obtain ⟨db'', hsave, hret⟩ := bind_eq_ok h
  cases hret
  exact ⟨rfl, saveVersions_ok hsave⟩

theorem save_map_ok {α : Type} {rows : List SopVersion} {event : AuditEvent} {db db' : Db} {a b : α}
    (h : (saveVersions rows event db).map (fun db => (a, db)) = .ok (b, db')) :
    b = a ∧ db.Saved rows event db' := by
  cases hsave : saveVersions rows event db with
  | error e =>
    rw [hsave] at h
    cases h
  | ok db'' =>
    rw [hsave] at h
    cases h
    exact ⟨rfl, saveVersions_ok hsave⟩

section
variable {db db' : Db} {actor : String} {id : Nat} {contentHash : SopContent → String}

/-- The row of a new draft. -/
def draftRow (actor : String) (id : Nat) (content : SopContent) : SopVersion :=
  { id, sopKey := content.sop.sopId, content, authorId := actor }

theorem createDraft_ok {content : SopContent} {n : Nat}
    (h : createDraft contentHash actor id content db = .ok (n, db')) :
    n = id ∧ db.Saved (db.sopVersions.rows ++ [draftRow actor id content])
      (sopEvent actor "sop.draft_created" (draftRow actor id content)
        [("origin", .str "authored"), ("content_sha256", .str (contentHash content)),
          ("source", .arr [])]) db' := save_map_ok h

theorem updateDraft_ok {content : SopContent} {u : Unit}
    (h : updateDraft contentHash actor id content db = .ok (u, db')) :
    ∃ v, v ∈ db.sopVersions.rows ∧ v.id = id ∧ v.status = .draft ∧
      content.sop.sopId = v.sopKey ∧ (v.authorId = actor ∨ isSystem v.authorId = true) ∧
      db.Saved (putVersion { v with content, authorId := actor } db.sopVersions.rows)
        (sopEvent actor "sop.draft_updated" v
          [("content_sha256", .str (contentHash content)),
            ("previous_author", .str v.authorId)]) db' := by
  obtain ⟨v, hv, h⟩ := bind_eq_ok h
  obtain ⟨_, hdraft, h⟩ := bind_eq_ok h
  obtain ⟨_, hkey, h⟩ := bind_eq_ok h
  obtain ⟨_, hauthor, h⟩ := bind_eq_ok h
  exact ⟨v, (getVersion_ok hv).1, (getVersion_ok hv).2, require_ok hdraft, require_ok hkey,
    require_ok hauthor, (save_ok h).2⟩

theorem discardDraft_ok {u : Unit} (h : discardDraft actor id db = .ok (u, db')) :
    ∃ v, v ∈ db.sopVersions.rows ∧ v.id = id ∧ v.status = .draft ∧
      db.Saved (db.sopVersions.rows.filter (·.id ≠ id))
        (sopEvent actor "sop.draft_discarded" v [("author", .str v.authorId)]) db' := by
  obtain ⟨v, hv, h⟩ := bind_eq_ok h
  obtain ⟨_, hdraft, h⟩ := bind_eq_ok h
  exact ⟨v, (getVersion_ok hv).1, (getVersion_ok hv).2, require_ok hdraft, (save_ok h).2⟩

theorem submitDraft_ok {catalog : Catalog} {digest : String}
    (h : submitDraft catalog contentHash actor id db = .ok (digest, db')) :
    ∃ v after, v ∈ db.sopVersions.rows ∧ v.id = id ∧ v.status = .draft ∧
      (v.authorId = actor ∨ isSystem v.authorId = true) ∧ problemsOf catalog v.content = [] ∧
      digest = contentHash v.content ∧
      after = { v with
        status := .inReview, contentHash := contentHash v.content, authorId := actor
        reviewNote := "" } ∧
      db.Saved (putVersion after db.sopVersions.rows)
        (sopEvent actor "sop.submitted" after
          [("content_sha256", .str (contentHash v.content)), ("origin", .str v.origin),
            ("previous_author", .str v.authorId)]) db' := by
  obtain ⟨v, hv, h⟩ := bind_eq_ok h
  obtain ⟨_, hdraft, h⟩ := bind_eq_ok h
  obtain ⟨_, hauthor, h⟩ := bind_eq_ok h
  obtain ⟨_, hproblems, h⟩ := bind_eq_ok h
  obtain ⟨hdigest, hsaved⟩ := save_ok h
  exact ⟨v, _, (getVersion_ok hv).1, (getVersion_ok hv).2, require_ok hdraft,
    require_ok hauthor, require_ok hproblems, hdigest, rfl, hsaved⟩

theorem approveVersion_ok {reviewedHash : String} {u : Unit}
    (h : approveVersion actor id reviewedHash db = .ok (u, db')) :
    ∃ v after, v ∈ db.sopVersions.rows ∧ v.id = id ∧ v.status = .inReview ∧
      v.authorId ≠ actor ∧ reviewedHash = v.contentHash ∧
      after = { v with status := .approved, approverId := some actor } ∧
      db.Saved (putVersion after db.sopVersions.rows)
        (sopEvent actor "sop.approved" after
          [("content_sha256", .str v.contentHash), ("author", .str v.authorId),
            ("origin", .str v.origin)]) db' := by
  obtain ⟨v, hv, h⟩ := bind_eq_ok h
  obtain ⟨_, hreview, h⟩ := bind_eq_ok h
  obtain ⟨_, hauthor, h⟩ := bind_eq_ok h
  obtain ⟨_, hhash, h⟩ := bind_eq_ok h
  exact ⟨v, _, (getVersion_ok hv).1, (getVersion_ok hv).2, require_ok hreview,
    require_ok hauthor, (require_ok hhash).2, rfl, (save_ok h).2⟩

theorem requestChanges_ok {note : String} {u : Unit}
    (h : requestChanges actor id note db = .ok (u, db')) :
    ∃ v after, v ∈ db.sopVersions.rows ∧ v.id = id ∧ v.status = .inReview ∧
      after = { v with status := .draft, reviewNote := clipText 2000 note } ∧
      db.Saved (putVersion after db.sopVersions.rows)
        (sopEvent actor "sop.changes_requested" after [("note", .str after.reviewNote)]) db' := by
  obtain ⟨v, hv, h⟩ := bind_eq_ok h
  obtain ⟨_, hreview, h⟩ := bind_eq_ok h
  exact ⟨v, _, (getVersion_ok hv).1, (getVersion_ok hv).2, require_ok hreview, rfl,
    (save_ok h).2⟩

theorem publishVersion_ok {catalog : Catalog} {number : Nat}
    (h : publishVersion catalog actor id db = .ok (number, db')) :
    ∃ v after, v ∈ db.sopVersions.rows ∧ v.id = id ∧ v.status = .approved ∧
      number = nextNumber v.sopKey db.sopVersions.rows ∧
      after = { v with status := .published, version := some number } ∧
      db.Saved (putVersion after (superseded v.sopKey db.sopVersions.rows))
        (sopEvent actor "sop.published" after
          [("version", .int number), ("content_sha256", .str v.contentHash),
            ("author", .str v.authorId), ("approver", .str (v.approverId.getD "")),
            ("origin", .str v.origin)]) db' := by
  obtain ⟨v, hv, h⟩ := bind_eq_ok h
  obtain ⟨_, happroved, h⟩ := bind_eq_ok h
  obtain ⟨_, hproblems, h⟩ := bind_eq_ok h
  obtain ⟨rfl, hsaved⟩ := save_ok h
  exact ⟨v, _, (getVersion_ok hv).1, (getVersion_ok hv).2, require_ok happroved, rfl, rfl,
    hsaved⟩

theorem retireSop_ok {sopKey : String} {u : Unit} (h : retireSop actor sopKey db = .ok (u, db')) :
    ∃ v, v ∈ db.sopVersions.rows ∧ v.sopKey = sopKey ∧ v.status = .published ∧
      db.Saved (putVersion { v with status := .retired } db.sopVersions.rows)
        (retiredEvent actor v) db' := by
  unfold retireSop at h
  split at h
  · cases h
  · rename_i v hfind
    have hv := List.find?_some hfind
    simp only [Bool.and_eq_true, beq_iff_eq] at hv
    exact ⟨v, List.mem_of_find?_eq_some hfind, hv.1, hv.2, (save_map_ok h).2⟩

end

/-! ## Rows after an update -/

theorem mem_putVersion {v x : SopVersion} {rows : List SopVersion} (h : x ∈ putVersion v rows) :
    x = v ∨ (x ∈ rows ∧ x.id ≠ v.id) := by
  obtain ⟨old, hold, hmap⟩ := List.mem_map.mp h
  by_cases hid : old.id = v.id
  · rw [if_pos hid] at hmap
    exact .inl hmap.symm
  · rw [if_neg hid] at hmap
    subst hmap
    exact .inr ⟨hold, hid⟩

theorem putVersion_mem {v x : SopVersion} {rows : List SopVersion} (hx : x ∈ rows)
    (hid : x.id ≠ v.id) : x ∈ putVersion v rows :=
  List.mem_map.mpr ⟨x, hx, if_neg hid⟩

theorem putVersion_self {v x : SopVersion} {rows : List SopVersion} (hx : x ∈ rows)
    (hid : x.id = v.id) : v ∈ putVersion v rows :=
  List.mem_map.mpr ⟨x, hx, if_pos hid⟩

/-- A row once a published version has given way: only its status may differ. -/
theorem mem_superseded {sopKey : String} {x : SopVersion} {rows : List SopVersion}
    (h : x ∈ superseded sopKey rows) :
    ∃ old ∈ rows, x = old ∨ (old.status = .published ∧ x = { old with status := .superseded }) := by
  obtain ⟨old, hold, hmap⟩ := List.mem_map.mp h
  refine ⟨old, hold, ?_⟩
  by_cases hif : old.sopKey = sopKey ∧ old.status = .published
  · rw [if_pos hif] at hmap
    exact .inr ⟨hif.2, hmap.symm⟩
  · rw [if_neg hif] at hmap
    exact .inl hmap.symm

/-- The rows have distinct ids. -/
theorem SopTable.unique (t : SopTable) {x y : SopVersion} (hx : x ∈ t.rows) (hy : y ∈ t.rows)
    (h : x.id = y.id) : x = y := List.inj_on_of_nodup_map t.ok.numbered hx hy h

/-- An SOP has one version of each number. -/
theorem SopTable.unique_number (t : SopTable) {x y : SopVersion} (hx : x ∈ t.rows) (hy : y ∈ t.rows)
    (hkey : x.sopKey = y.sopKey) (hsome : x.version.isSome = true) (h : x.version = y.version) :
    x = y := by
  by_contra hne
  have : Std.Symm fun a b : SopVersion => ¬ (a.sopKey = b.sopKey ∧ a.version.isSome = true ∧
      a.version = b.version) :=
    ⟨fun a b hab hba => hab ⟨hba.1.symm, by rw [← hba.2.2]; exact hba.2.1, hba.2.2.symm⟩⟩
  exact t.ok.oneNumber.forall hx hy hne ⟨hkey, hsome, h⟩

/-- The next number is above every number of the SOP. -/
theorem lt_nextNumber {rows : List SopVersion} {x : SopVersion} (hx : x ∈ rows) {n : Nat}
    (hn : x.version = some n) : n < nextNumber x.sopKey rows := by
  have hle : ∀ {ns : List Nat}, n ∈ ns → n ≤ ns.foldr max 0 := by
    intro ns hmem
    induction ns with
    | nil => cases hmem
    | cons m ns ih =>
      rcases List.mem_cons.mp hmem with rfl | hmem
      · exact Nat.le_max_left _ _
      · exact (ih hmem).trans (Nat.le_max_right _ _)
  refine Nat.lt_succ_of_le (hle (List.mem_filterMap.mpr ⟨x, ?_, hn⟩))
  exact List.mem_filter.mpr ⟨hx, by simp⟩

end L1Agent
