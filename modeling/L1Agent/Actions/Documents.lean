import L1Agent.Actions.Parsed
import L1Agent.Audit.Log

/-! # The policy of a tenant (`actions/store.py`)

`_policy` reads the row of a tenant, whose rules are a document that may no longer parse, and
`set_policy` changes it with an event of the audit log, in one transaction.

`policy_documents` says exactly which documents are read, whatever the row says besides: those
whose levels can be hashed and whose digests are texts.  `level_unhashed` is a document of the
other kind.
-/
namespace L1Agent
namespace Parsing

/-- A row of `policies`. -/
structure PolicyRow where
  autonomy : String
  rules : Json
  killSwitch : Bool := false
  killReason : String := ""
  killSetBy : String := ""
  killSetAt : Option Nat := none
  updatedBy : String
  updatedAt : Nat

/-- `TenantPolicy` -/
structure StoredPolicy where
  autonomy : Autonomy := .shadow
  rules : Rules := {}
  rawRules : Json := .obj []
  killSwitch : Bool := false
  killReason : String := ""
  killSetBy : String := ""
  killSetAt : Option Nat := none
  updatedBy : String := ""
  updatedAt : Option Nat := none

/-- The policy of a row, with what its rules and its level are read as. -/
def PolicyRow.stored (row : PolicyRow) (rules : Rules) (autonomy : Autonomy) : StoredPolicy where
  autonomy
  rules
  rawRules := row.rules.orElse (.obj [])
  killSwitch := row.killSwitch
  killReason := row.killReason
  killSetBy := row.killSetBy
  killSetAt := row.killSetAt
  updatedBy := row.updatedBy
  updatedAt := some row.updatedAt

/-- `_policy` -/
def policyOf (reader : Reader) : Option PolicyRow → Except Exn StoredPolicy
  | none => .ok {}
  | some row => match parseRules reader row.rules with
    -- Rules that no longer parse must not be read as "no rules".  Shadow does nothing.
    | .error (.policyError _) => .ok (row.stored {} .shadow)
    | .error e => .error e
    | .ok rules => match autonomyOf row.autonomy with
      | some autonomy => .ok (row.stored rules autonomy)
      | none => .ok (row.stored {} .shadow)

/-- What ends `set_policy`. -/
inductive SetExn where
  /-- `ActionError` -/
  | actionError (message : String) (problems : List String := [])
  | other (e : Exn)

/-- What the tables hold for the tenant. -/
structure Tables where
  policy : Option PolicyRow := none
  audit : List Audit.Row := []

/-- Who asks, when, and where. -/
structure Caller where
  tenantId : String
  actor : Audit.Actor
  now : Nat
  occurredAt : String

/-- `who` -/
def Caller.who (caller : Caller) : String := caller.actor.type ++ ":" ++ caller.actor.id

/-- The level that is asked for, and the rules. -/
structure Asked where
  autonomy : Option String := none
  /-- `null` where no rules are given. -/
  rules : Json := .null

/-- What is checked before the transaction. -/
def checked (reader : Reader) (asked : Asked) : Except SetExn Unit :=
  match asked.autonomy.map autonomyOf with
  | some none => .error (.actionError
      "autonomy must be one of shadow, recommend, approval, automatic")
  | _ =>
    if asked.rules = .null then .ok ()
    else match parseRules reader asked.rules with
      | .ok _ => .ok ()
      | .error (.policyError problems) => .error (.actionError "The rules are not valid" problems)
      | .error e => .error (.other e)

/-- `_upsert_policy`: the row with the values that are given. -/
def upsert (caller : Caller) (asked : Asked) (row : Option PolicyRow) : PolicyRow :=
  let row := row.getD
    { autonomy := Autonomy.shadow.value
      rules := .obj []
      updatedBy := caller.who
      updatedAt := caller.now }
  { row with
    autonomy := asked.autonomy.getD row.autonomy
    rules := if asked.rules = .null then row.rules else asked.rules
    updatedBy := caller.who
    updatedAt := caller.now }

/-- The event of a change. -/
def changed (tools : Audit.Tools) (caller : Caller) (asked : Asked) (before : StoredPolicy) :
    Audit.Request where
  tenantId := caller.tenantId
  actor := caller.actor
  eventType := "policy.changed"
  payload := .obj [
    ("autonomy_before", .str before.autonomy.value),
    ("autonomy", .str (asked.autonomy.getD before.autonomy.value)),
    ("rules_changed", .bool (asked.rules ≠ .null)),
    ("rules_sha256", .str (Audit.digest tools
      (if asked.rules = .null then before.rawRules else asked.rules)))]
  occurredAt := caller.occurredAt

/-- The transaction of `set_policy`. -/
def change (tools : Audit.Tools) (reader : Reader) (caller : Caller) (asked : Asked)
    (tables : Tables) : Except Exn (StoredPolicy × Tables) := do
  let before ← policyOf reader tables.policy
  let row := upsert caller asked tables.policy
  let event := Audit.append tools tables.audit (changed tools caller asked before)
  let after ← policyOf reader (some row)
  return (after, { policy := some row, audit := tables.audit ++ [event] })

/-- `set_policy`: a transaction that an exception ends leaves nothing. -/
def setPolicy (tools : Audit.Tools) (reader : Reader) (caller : Caller) (asked : Asked)
    (tables : Tables) : Except SetExn StoredPolicy × Tables :=
  match checked reader asked with
  | .error e => (.error e, tables)
  | .ok () => match change tools reader caller asked tables with
    | .error e => (.error (.other e), tables)
    | .ok (policy, tables) => (.ok policy, tables)

/-! ## Invalid rules change nothing -/

/-- The rules do not parse. -/
def Unparsed (reader : Reader) (data : Json) : Prop := ∀ rules, parseRules reader data ≠ .ok rules

theorem setPolicy_unparsed {tools : Audit.Tools} {reader : Reader} {caller : Caller} {asked : Asked}
    {tables : Tables} (h : Unparsed reader asked.rules) :
    (setPolicy tools reader caller asked tables).2 = tables := by
  have hchecked : ∃ e, checked reader asked = .error e := by
    unfold checked
    split
    · exact ⟨_, rfl⟩
    · have hgiven : asked.rules ≠ .null := by
        intro hnull
        exact h {} (by rw [hnull]; rfl)
      rw [if_neg hgiven]
      split
      · rename_i rules hrules
        exact absurd hrules (h rules)
      · exact ⟨_, rfl⟩
      · exact ⟨_, rfl⟩
  obtain ⟨e, he⟩ := hchecked
  unfold setPolicy
  rw [he]

/-- Nothing is asked for and nothing done under a policy that is in shadow. -/
theorem evaluate_shadow {text : PolicyText} {request : ActionRequest} {s : Situation}
    (h : s.tenantAutonomy = .shadow) :
    (evaluate text request s).verdict = .deny ∨ (evaluate text request s).verdict = .shadow := by
  have hlower : ∀ a : Autonomy, Autonomy.shadow.lower a = .shadow := by
    intro a
    cases a <;> rfl
  unfold evaluate
  dsimp only
  split
  · exact .inl rfl
  · unfold grade
    dsimp only
    rw [h, hlower, hlower]
    exact .inr rfl

/-! ## What is claimed -/

/-- Rules that parse are within every bound; rules that do not are refused with their problems,
change nothing, and are read where they are stored as a policy under which nothing is done. -/
structure Contained (reader : Reader) (data : Json) : Prop where
  parsed : (∃ rules, parseRules reader data = .ok rules ∧ Bounds rules) ∨
    ∃ problems, parseRules reader data = .error (.policyError problems)
  refused : Unparsed reader data → ∀ (tools : Audit.Tools) (caller : Caller) (asked : Asked)
    (tables : Tables), asked.rules = data → (setPolicy tools reader caller asked tables).2 = tables
  stored : Unparsed reader data → ∀ row : PolicyRow, row.rules = data →
    ∃ policy, policyOf reader (some row) = .ok policy ∧
      ∀ (text : PolicyText) (request : ActionRequest) (s : Situation),
        s.tenantAutonomy = policy.autonomy → s.rules = policy.rules →
          (evaluate text request s).verdict ≠ .requireApproval ∧
          (evaluate text request s).verdict ≠ .allow

/-- **A policy document is read safely exactly when every level has a hash and every digest is a
text.**  The digests count only in a document that is well formed otherwise: any other is
refused. -/
theorem policy_documents (reader : Reader) (data : Json) :
    Contained reader data ↔ (∀ e ∈ entriesOf data, Hashable e.2) ∧
      (WellFormed reader data →
        ∀ e ∈ entriesOf data, IsDigest (e.2.getD "content_hash" (.str ""))) := by
  rcases parseRules_cases reader data with ⟨rules, hrules, hhash, hranges, hfrom, hto⟩ |
    ⟨problems, hproblems, hhash, hill⟩ | ⟨message, hmessage, hhash⟩
  · have hparsed : ¬ Unparsed reader data := fun h => h rules hrules
    constructor
    · intro h
      refine ⟨hhash, fun _ e he => ?_⟩
      rcases h.parsed with ⟨rules', hrules', hbounds⟩ | ⟨problems, hproblems⟩
      · rw [hrules] at hrules'
        cases hrules'
        obtain ⟨x, hx, hdigest⟩ := hto e he
        exact hdigest ▸ hbounds.digests x hx
      · rw [hrules] at hproblems
        cases hproblems
    · rintro ⟨-, hdigests⟩
      refine ⟨.inl ⟨rules, hrules, hranges, fun x hx => ?_⟩, fun h => absurd h hparsed,
        fun h => absurd h hparsed⟩
      obtain ⟨hwell, e, he, hdigest⟩ := hfrom x hx
      rw [hdigest]
      exact hdigests hwell e he
  · refine ⟨fun _ => ⟨hhash, fun hwell e he => ?_⟩, fun _ => ⟨.inr ⟨problems, hproblems⟩,
      fun h tools caller asked tables heq => setPolicy_unparsed (heq ▸ h), fun _ row hrow => ?_⟩⟩
    · rw [hill hwell] at he
      cases he
    · refine ⟨row.stored {} .shadow, by rw [policyOf, hrow, hproblems], ?_⟩
      intro text request s hautonomy _
      rcases @evaluate_shadow text request s hautonomy with hverdict | hverdict
      · rw [hverdict]
        exact ⟨by decide, by decide⟩
      · rw [hverdict]
        exact ⟨by decide, by decide⟩
  · refine ⟨fun h => ?_, fun h => absurd h.1 hhash⟩
    rcases h.parsed with ⟨rules, hrules, -⟩ | ⟨problems, hproblems⟩
    · rw [hmessage] at hrules
      cases hrules
    · rw [hmessage] at hproblems
      cases hproblems

/-- Numbers print as digits, and no time is read. -/
def sampleReader : Reader where
  builtins := { repr := fun _ => "", parseInt := fun _ => none, isFloat := fun _ => false }
  fromisoformat _ := none

/-- A document with the level of one SOP. -/
def levelDocument (level digest : Json) : Json :=
  .obj [("sop_autonomy", .obj [("restart-job",
    .obj [("level", level), ("content_hash", digest)])])]

/-- 64 digits and a line feed. -/
def lineDigest : String := String.ofList (List.replicate 64 'a' ++ ['\n'])

/-- A list as the level ends the reading with a TypeError, and a digest of 65 characters is
read. -/
theorem level_unhashed : ¬ Contained sampleReader (levelDocument (.arr []) (.str "")) ∧
    ¬ Contained sampleReader (levelDocument (.str "approval") (.str lineDigest)) := by
  constructor
  · intro h
    have hparse : parseRules sampleReader (levelDocument (.arr []) (.str "")) =
        .error (.typeError "unhashable type: 'list'") := by decide +kernel
    rcases h.parsed with ⟨rules, hrules, -⟩ | ⟨problems, hproblems⟩
    · rw [hparse] at hrules
      cases hrules
    · rw [hparse] at hproblems
      cases hproblems
  · intro h
    have hparse : parseRules sampleReader (levelDocument (.str "approval") (.str lineDigest)) =
        .ok { sopAutonomy := [("restart-job", .approval, .str lineDigest)] } := by decide +kernel
    rcases h.parsed with ⟨rules, hrules, hbounds⟩ | ⟨problems, hproblems⟩
    · rw [hparse] at hrules
      cases hrules
      obtain ⟨text, heq, hdigest⟩ := hbounds.digests _ (List.mem_singleton.mpr rfl)
      cases heq
      revert hdigest
      decide +kernel
    · rw [hparse] at hproblems
      cases hproblems

end Parsing
end L1Agent
