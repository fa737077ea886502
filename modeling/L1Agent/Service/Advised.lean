import L1Agent.Actions.Protocol
import L1Agent.Engine.Advised
import L1Agent.Library.Worlds
import L1Agent.Service.Calls

/-! # A model cannot widen what is written

Two runs of one incident are compared, in the same surroundings: one asks a model (`Model`,
which may answer anything, in the light of all that was done), the other asks nobody.  What is
left of a run without the model's part in it is `unadvised`.

The runs go the same way, or part where the model's pick is taken, and then the SOP that runs
has no ACTION step (`run_covered`).
-/
namespace L1Agent
open Interleaving

/-- A deployment with this matcher. -/
def Site.ruled (site : Site) (m : SopMatcher) : Site :=
  { site with matcher := m.find, threshold := m.threshold }

/-- What a model answers, whatever was done before. -/
structure Model where
  rank : List Calls.Done → List SOP → Except Exn (Option (Nat × String))
  extract : List Calls.Done → List ParameterSpec → Except Exn (List (String × Json))

/-- What was done, without a model's part in it. -/
def unadvised : Calls.Done → Option Calls.Done
  | ⟨.rank _, _⟩ | ⟨.extract _, _⟩ => none
  | ⟨.db (.recordMatch runId sop confidence _), answer⟩ =>
    some ⟨.db (.recordMatch runId sop confidence ""), answer⟩
  | d => some d

/-- The answers to a run: the model's, and those of its surroundings, which do not depend on
the model's part. -/
def answers (around : Calls.World) (advisor : Option Model) : Calls.World
  | past, .rank candidates => advisor.elim (.ok none) fun model => model.rank past candidates
  | past, .extract askable => advisor.elim (.ok []) fun model => model.extract past askable
  | past, .db (.recordMatch runId sop confidence _) =>
    around (past.filterMap unadvised) (.db (.recordMatch runId sop confidence ""))
  | past, o => around (past.filterMap unadvised) o

/-- The action call an operation is about: the capability and the parameters. -/
def Op.actionCall? : Op → Option (String × Json)
  | .write _ _ _ call => some (call.capabilityId, call.parameters)
  | .dryRun capabilityId parameters => some (capabilityId, parameters)
  | .db (.recordDecision d _) => some (d.capabilityId, d.parameters)
  | _ => none

/-- The question is one for the model. -/
def Op.asksModel : Op → Bool
  | .rank _ | .extract _ => true
  | _ => false

/-- The operation records which SOP the run goes on with. -/
def Op.recordsMatch : Op → Bool
  | .db (.recordMatch ..) => true
  | _ => false

/-- The action calls among what was done. -/
def actionCalls (done : List Calls.Done) : List (String × Json) :=
  done.filterMap fun d => d.op.actionCall?

/-- An attempt at the run. -/
def attempted (site : Site) (around : Calls.World) (advisor : Option Model) (incident : Incident)
    (runId : Nat) (journal : LoadedJournal) (sops : List SOP) : List Calls.Done :=
  (IncidentProcessor.runOnce site incident runId journal sops advisor.isSome).doneIn
    (answers around advisor) []

/-- The same journal, with what a model left in it: a rationale and values. -/
def LoadedJournal.advisedBy (journal : LoadedJournal) (rationale : String)
    (located : List (String × String)) : LoadedJournal :=
  { journal with
    match? := journal.match?.map fun stored => { stored with rationale }
    advised := located }

/-! ## The SOP that runs -/

/-- **An SOP that may run**: the best by the rules alone, or one without an ACTION step that
reaches the threshold by its own score. -/
inductive Chosen (site : Site) (m : SopMatcher) (incident : Incident) (sops : List SOP)
    (sop : SOP) : Prop where
  | best (hmem : sop ∈ IncidentProcessor.executableSops site sops)
      (hfound : (IncidentProcessor.ruleMatch (site.ruled m) incident
        (IncidentProcessor.executableSops site sops)).sop = some sop)
      (hmax : ∀ other ∈ IncidentProcessor.executableSops site sops,
        (m.score incident other).1 ≤ (m.score incident sop).1)
  | advised (hmem : sop ∈ IncidentProcessor.executableSops site sops)
      (hacts : sop.acts = false) (hscore : m.threshold ≤ (m.score incident sop).1)

namespace IncidentProcessor
variable {site : Site} {m : SopMatcher} {incident : Incident} {sops : List SOP}

theorem chosen_byRules {sop : SOP}
    (h : (ruleMatch (site.ruled m) incident (executableSops site sops)).sop = some sop) :
    Chosen site m incident sops sop := by
  have hne : executableSops site sops ≠ [] := by
    intro hnil
    obtain ⟨i, -, hi⟩ := Option.bind_eq_some_iff.mp h
    rw [hnil] at hi
    cases hi
  obtain ⟨i, best, hplace, hbest, -, hmax⟩ := @SopMatcher.find_best m incident _ hne
  have hsop : (ruleMatch (site.ruled m) incident (executableSops site sops)).sop = some best := by
    show (m.find incident (executableSops site sops)).1.bind _ = some best
    rw [hplace]
    exact hbest
  obtain rfl : best = sop := Option.some.inj (hsop.symm.trans h)
  exact .best (List.mem_of_getElem? hbest) h hmax

/-- **What the model's pick can lead to**: the rules' best, or an SOP that makes no change. -/
theorem advisedMatch_cases (i : Nat) (rationale : String) :
    let candidates := executableSops site sops
    let found := advisedMatch (site.ruled m) incident candidates i rationale
    let byRules := ruleMatch (site.ruled m) incident candidates
    (found.sop = byRules.sop ∧ found.confidence = byRules.confidence) ∨
      ∃ sop ∈ candidates, found.sop = some sop ∧ sop.acts = false ∧
        m.threshold ≤ (m.score incident sop).1 := by
  intro candidates found byRules
  have hfound : found = advisedMatch (site.ruled m) incident candidates i rationale := rfl
  unfold advisedMatch at hfound
  cases hpicked : candidates[i]? with
  | none =>
    rw [hpicked] at hfound
    exact .inl (by rw [hfound]; exact ⟨rfl, rfl⟩)
  | some picked =>
    rw [hpicked] at hfound
    dsimp only at hfound
    by_cases hsteer : ((site.ruled m).matcher incident candidates).1 ≠ some i ∧ picked.acts = true
    · rw [if_pos hsteer] at hfound
      exact .inl (by rw [hfound]; exact ⟨rfl, rfl⟩)
    rw [if_neg hsteer] at hfound
    obtain ⟨halone, hown⟩ := @SopMatcher.find_alone m incident picked
    have hsop : (ruleMatch (site.ruled m) incident [picked]).sop = some picked := by
      show (m.find incident [picked]).1.bind _ = some picked
      rw [halone]
      rfl
    have hconfidence : (ruleMatch (site.ruled m) incident [picked]).confidence =
        some (m.score incident picked).1 := hown
    rw [hsop, hconfidence] at hfound
    dsimp only at hfound
    by_cases hlow : (m.score incident picked).1 < (site.ruled m).threshold
    · rw [if_pos hlow] at hfound
      exact .inl (by rw [hfound]; exact ⟨rfl, rfl⟩)
    rw [if_neg hlow] at hfound
    by_cases hbest : (m.find incident candidates).1 = some i
    · -- The pick is the rules' own, whose score is the one that it has alone.
      refine .inl ?_
      have hne : candidates ≠ [] := by
        intro hnil
        rw [hnil] at hpicked
        cases hpicked
      obtain ⟨j, best, hplace, hj, hscore, -⟩ := @SopMatcher.find_best m incident _ hne
      obtain rfl : i = j := Option.some.inj (hbest.symm.trans hplace)
      obtain rfl : picked = best := Option.some.inj (hpicked.symm.trans hj)
      have hrules : byRules.sop = some picked := by
        show (m.find incident candidates).1.bind _ = some picked
        rw [hbest]
        exact hpicked
      rw [hfound, hrules]
      exact ⟨rfl, hscore.symm⟩
    · refine .inr ⟨picked, List.mem_of_getElem? hpicked, by rw [hfound], ?_, not_lt.mp hlow⟩
      by_contra hacts
      exact hsteer ⟨hbest, by simpa using hacts⟩

/-- Whatever the model answers, the SOP that is found may run. -/
theorem chosen_advised {i : Nat} {rationale : String} {sop : SOP}
    (h : (advisedMatch (site.ruled m) incident (executableSops site sops) i rationale).sop =
      some sop) : Chosen site m incident sops sop := by
  rcases @advisedMatch_cases site m incident sops i rationale with
    ⟨hsop, -⟩ | ⟨picked, hmem, hsop, hacts, hscore⟩
  · rw [hsop] at h
    exact chosen_byRules h
  · obtain rfl : picked = sop := Option.some.inj (hsop.symm.trans h)
    exact .advised hmem hacts hscore

end IncidentProcessor

/-! ## What a run calls -/

/-- **What may be called for the SOP**: no action if it makes no change, no model if it does. -/
structure Op.Fits (sop : SOP) (o : Op) : Prop where
  quiet : sop.acts = false → o.actionCall? = none
  unasked : sop.acts = true → o.asksModel = false
  settled : o.recordsMatch = false

/-- The operation is no action call, asks no model and chooses no SOP. -/
structure Op.Plain (o : Op) : Prop where
  quiet : o.actionCall? = none
  unasked : o.asksModel = false
  settled : o.recordsMatch = false

theorem Op.Plain.fits {o : Op} (h : o.Plain) (sop : SOP) : o.Fits sop :=
  ⟨fun _ => h.quiet, fun _ => h.unasked, h.settled⟩

theorem Op.ofTicket.plain {o : Op} (h : o.ofTicket) : o.Plain := by
  cases o with
  | ticketGet sysId => exact ⟨rfl, rfl, rfl⟩
  | ticketPatch sysId fields => exact ⟨rfl, rfl, rfl⟩
  | _ => exact h.elim

/-- The action pipeline asks no model and chooses no SOP. -/
theorem Op.ofAttempt.unasked {o : Op} (h : o.ofAttempt) :
    o.asksModel = false ∧ o.recordsMatch = false := by
  cases o with
  | rank candidates => exact h.elim
  | extract askable => exact h.elim
  | db c =>
    cases c with
    | recordMatch id sop confidence rationale => exact h.elim
    | _ => exact ⟨rfl, rfl⟩
  | _ => exact ⟨rfl, rfl⟩

namespace IncidentProcessor
variable {site : Site} {incident : Incident} {sop : SOP} {runId : Nat} {sops : List SOP}

/-- What carries out a call of the engine that fits, fits. -/
theorem carriedOut_fits {o : EngineOp} (h : o.Fits sop) :
    (o.carriedOut site incident sop runId).Issues (Op.Fits sop) := by
  have hplain : ∀ {o : Op}, o.Plain →
      ((ask o).attempt : Prog (Except Exn o.Val)).Issues (Op.Fits sop) :=
    fun ho => (issues_ask (ho.fits sop)).attempt
  cases o with
  | connectors => exact hplain ⟨rfl, rfl, rfl⟩
  | stepStarted step => exact hplain ⟨rfl, rfl, rfl⟩
  | stepCompleted step result => exact hplain ⟨rfl, rfl, rfl⟩
  | callAdapter name parameters stepId attempt => exact hplain ⟨rfl, rfl, rfl⟩
  | perform step =>
    have hacts : sop.acts = true := h
    refine Program.Issues.attempt (ActionService.of_perform
      (Program.issues_compositional (Op.Fits sop)) (fun o ho => issues_ask ⟨?_, ?_, ho.unasked.2⟩) _)
    · intro hquiet
      rw [hacts] at hquiet
      cases hquiet
    · exact fun _ => ho.unasked.1
  | extract askable =>
    have hacts : sop.acts = false := h
    refine Program.Issues.attempt (issues_ask ⟨fun _ => rfl, fun hacts' => ?_, rfl⟩)
    rw [hacts] at hacts'
    cases hacts'
  | recordAdvised values => exact hplain ⟨rfl, rfl, rfl⟩

theorem plain_escalate : (escalate site incident).Issues Op.Plain :=
  of_escalate (Program.issues_compositional Op.Plain) (fun _ h => issues_ask h.plain) incident

theorem plain_claim : (claim site incident).Issues Op.Plain :=
  of_claim (Program.issues_compositional Op.Plain) (fun _ h => issues_ask h.plain) incident

theorem plain_concludeUnmatched (sop : Option SOP) (reason : String) :
    (concludeUnmatched site incident sop reason).Issues Op.Plain :=
  of_concludeUnmatched (Program.issues_compositional Op.Plain) (fun _ h => issues_ask h.plain) ..

/-- **Once its SOP is found**, a run calls what fits it. -/
theorem executeMatched_fits (journal : LoadedJournal) (advisor : Bool) :
    (executeMatched site incident sop runId journal advisor).Issues (Op.Fits sop) := by
  have hC := Program.issues_compositional (E := Calls) (ε := Exn) (Op.Fits sop)
  refine hC.bind (Executor.executeSop_fits.translate fun o ho => carriedOut_fits ho) fun summary => ?_
  exact of_postConclusion hC (fun o h => issues_ask (h.plain.fits sop)) incident summary

/-- The SOP that was found, where it makes no change, leads to no action. -/
theorem afterMatch_quiet {journal : LoadedJournal} {advisor resumed : Bool} {found : MatchResult}
    (h : ∀ sop, found.sop = some sop → sop.acts = false) :
    (afterMatch site incident runId journal advisor resumed found).Issues
      fun o : Op => o.actionCall? = none := by
  unfold afterMatch
  cases hfound : found.sop with
  | none => exact (plain_concludeUnmatched ..).mono fun _ ho => ho.quiet
  | some sop =>
    have hexecute : (executeMatched site incident sop runId journal advisor).Issues
        fun o : Op => o.actionCall? = none :=
      (executeMatched_fits journal advisor).mono fun o ho => ho.quiet (h sop hfound)
    cases found.confidence with
    | none => exact (plain_concludeUnmatched ..).mono fun _ ho => ho.quiet
    | some confidence =>
      refine Program.Issues.ite (fun _ => (plain_concludeUnmatched ..).mono fun _ ho => ho.quiet)
        fun _ => Program.Issues.ite (fun _ => hexecute) fun _ => ?_
      refine Program.Issues.bind (issues_ask rfl) fun _ => Program.Issues.bind ?_ fun _ => hexecute
      exact (@issues_ask (fun o => o.actionCall? = none) _ rfl).attempt

/-! ## Two runs -/

/-- The two runs, and what is left of them without the model's part. -/
def compared (around : Calls.World) (model : Model) : Worlds Calls Calls.Done where
  look := unadvised
  left := answers around (some model)
  right := answers around none

variable {around : Calls.World} {model : Model}

/-- The surroundings answer both runs alike. -/
theorem heard_of_unasked {o : Op} (h : o.asksModel = false) :
    (compared around model).Heard o := by
  intro past past' hpast
  have hsame : around (past.filterMap unadvised) = around (past'.filterMap unadvised) :=
    congrArg around hpast
  cases o with
  | rank candidates => cases h
  | extract askable => cases h
  | db c => cases c <;> exact congrFun hsame _
  | _ => exact congrFun hsame _

/-- A program that asks no model looks the same in both runs. -/
theorem alike_of_plain {α : Type} {p : Prog α} (h : p.Issues Op.Plain) :
    (compared around model).Alike Eq p p :=
  .refl (h.mono fun _ ho => heard_of_unasked ho.unasked)

/-- The operation is an action call. -/
def acting (o : Op) : Prop := o.actionCall? ≠ none

theorem covered_of_quiet {α : Type} {p q : Prog α}
    (h : p.Issues fun o : Op => o.actionCall? = none) :
    (compared around model).Covered acting p q :=
  .of_issues (h.mono fun _ ho => not_not.mpr ho)

theorem covered_of_plain {α : Type} {p : Prog α} (h : p.Issues Op.Plain) :
    (compared around model).Covered acting p p := .of_alike (alike_of_plain h)

/-- **An SOP that acts is carried out alike in both runs**, whatever a model left in the
journal. -/
theorem executeMatched_alike (hacts : sop.acts = true) (journal : LoadedJournal)
    (rationale : String) (located : List (String × String)) :
    (compared around model).Alike Eq
      (executeMatched site incident sop runId (journal.advisedBy rationale located) true)
      (executeMatched site incident sop runId journal false) := by
  have hsame : executeMatched site incident sop runId (journal.advisedBy rationale located) true =
      executeMatched site incident sop runId journal false := by
    unfold executeMatched
    rw [Executor.executeSop_acts hacts, Executor.executeSop_acts hacts journal.completed]
    rfl
  rw [hsame]
  exact .refl ((executeMatched_fits journal false).mono fun o ho =>
    heard_of_unasked (ho.unasked hacts))

/-- **After the match**: the same SOP is carried out alike, or makes no change. -/
theorem afterMatch_covered {found found' : MatchResult} (hsop : found.sop = found'.sop)
    (hconfidence : found.confidence = found'.confidence) (journal : LoadedJournal)
    (rationale : String) (located : List (String × String)) (resumed : Bool) :
    (compared around model).Covered acting
      (afterMatch site incident runId (journal.advisedBy rationale located) true resumed found)
      (afterMatch site incident runId journal false resumed found') := by
  by_cases hquiet : ∀ sop, found.sop = some sop → sop.acts = false
  · exact covered_of_quiet (afterMatch_quiet hquiet)
  push Not at hquiet
  obtain ⟨sop, hfound, hacts⟩ := hquiet
  have hacts : sop.acts = true := by simpa using hacts
  have hexecute := @executeMatched_alike site incident sop runId around model hacts journal
    rationale located
  refine .of_alike ?_
  unfold afterMatch
  rw [← hsop, ← hconfidence, hfound]
  dsimp only
  cases found.confidence with
  | none => exact alike_of_plain (plain_concludeUnmatched ..)
  | some confidence =>
    dsimp only
    by_cases hlow : confidence < site.threshold
    · rw [if_pos hlow, if_pos hlow]
      exact alike_of_plain (plain_concludeUnmatched ..)
    rw [if_neg hlow, if_neg hlow]
    cases resumed with
    | true => exact hexecute
    | false =>
      -- The records of the match differ in the rationale alone.
      have hrecord : (compared around model).Alike Eq
          (askDb (.recordMatch runId sop confidence found.rationale))
          (askDb (.recordMatch runId sop confidence found'.rationale)) := by
        refine .call (fun past past' hpast => ?_) fun past past' hpast => ?_
        · show some (Signature.Done.mk _ (around (past.filterMap unadvised) _)) =
            some (Signature.Done.mk _ (around (past'.filterMap unadvised) _))
          rw [show past.filterMap unadvised = past'.filterMap unadvised from hpast]
        · have hsame : around (past.filterMap unadvised) = around (past'.filterMap unadvised) :=
            congrArg around hpast
          show Worlds.Alike _ _ (Program.ofExcept (around (past.filterMap unadvised) _))
            (Program.ofExcept (around (past'.filterMap unadvised) _))
          rw [hsame]
          exact .refl (Program.issues_ofExcept _)
      refine hrecord.bind fun _ _ _ => ?_
      refine Worlds.Alike.bind (alike_of_plain ?_) fun _ _ _ => hexecute
      exact (@issues_ask Op.Plain _ ⟨rfl, rfl, rfl⟩).attempt

/-! ## The whole run -/

/-- What the match of the run with a model may be, beside that of the run without one. -/
def Parted (found byRules : MatchResult) : Prop :=
  (found.sop = byRules.sop ∧ found.confidence = byRules.confidence) ∨
    ∀ sop, found.sop = some sop → sop.acts = false

/-- The end of the match that a model is asked for. -/
theorem matchSop_alike (m : SopMatcher) (sops : List SOP) :
    (compared around model).Alike Parted
      (matchSop (site.ruled m) incident sops true) (matchSop (site.ruled m) incident sops false) := by
  have hrules : matchSop (site.ruled m) incident sops false =
      .ret (ruleMatch (site.ruled m) incident (executableSops site sops)) := if_pos (.inr rfl)
  rw [hrules]
  by_cases hnone : executableSops site sops = []
  · have hsame : matchSop (site.ruled m) incident sops true =
        .ret (ruleMatch (site.ruled m) incident (executableSops site sops)) := if_pos (.inl hnone)
    rw [hsame]
    exact .ret (.inl ⟨rfl, rfl⟩)
  have hasks : ¬(executableSops (site.ruled m) sops = [] ∨ true = false) := by
    rintro (h | h)
    · exact hnone h
    · cases h
  unfold matchSop
  dsimp only
  rw [if_neg hasks]
  refine .unseen (fun _ => rfl) fun past => ?_
  show Worlds.Alike _ Parted (Program.bind (Program.attempt (Program.ofExcept
    (model.rank past (executableSops site sops)))) _) _
  cases model.rank past (executableSops site sops) with
  | error e => exact .ret (.inl ⟨rfl, rfl⟩)
  | ok advice =>
    cases advice with
    | none => exact .ret (.inl ⟨rfl, rfl⟩)
    | some picked =>
      refine .ret ?_
      rcases @advisedMatch_cases site m incident sops picked.1 picked.2 with
        hrules | ⟨sop, -, hsop, hacts, -⟩
      · exact .inl hrules
      · refine .inr fun other hother => ?_
        obtain rfl : sop = other := Option.some.inj (hsop.symm.trans hother)
        exact hacts

theorem matchSop_quiet (advisor : Bool) :
    (matchSop site incident sops advisor).Issues fun o : Op => o.actionCall? = none := by
  have hC := Program.issues_compositional (E := Calls) (ε := Exn) fun o => o.actionCall? = none
  refine Program.Issues.ite (fun _ => hC.ret _) fun _ => hC.bind (hC.attempt ?_) fun _ => hC.ret _
  exact @issues_ask (fun o => o.actionCall? = none) (.rank _) rfl

/-- What the journal of an earlier attempt names, whatever rationale stands beside it. -/
theorem storedMatch_rationale (stored : StoredMatch) (rationale : String) :
    storedMatch site sops { stored with rationale } =
      (storedMatch site sops stored).map fun found => { found with rationale } := by
  unfold storedMatch
  rw [Option.map_map]
  rfl

/-- **The run with a model is covered by the run without one.** -/
theorem run_covered (m : SopMatcher) (sops : List SOP) (journal : LoadedJournal)
    (rationale : String) (located : List (String × String)) :
    (compared around model).Covered acting
      (run (site.ruled m) incident runId (journal.advisedBy rationale located) sops true)
      (run (site.ruled m) incident runId journal sops false) := by
  unfold run
  refine Worlds.Covered.bind (alike_of_plain plain_claim)
    (plain_claim.mono fun _ ho => not_not.mpr ho.quiet) fun lost lost' hlost => ?_
  obtain rfl : lost = lost' := hlost
  cases lost with
  | some summary => exact covered_of_plain True.intro
  | none =>
    cases hmatch : journal.match? with
    | none =>
      have hnone : (journal.advisedBy rationale located).match? = none := by
        show journal.match?.map _ = none
        rw [hmatch]
        rfl
      rw [hnone]
      refine Worlds.Covered.bind (matchSop_alike m sops)
        ((matchSop_quiet true).mono fun _ ho => not_not.mpr ho) fun found byRules hparted => ?_
      rcases hparted with ⟨hsop, hconfidence⟩ | hquiet
      · exact afterMatch_covered hsop hconfidence journal rationale located false
      · exact covered_of_quiet (afterMatch_quiet hquiet)
    | some stored =>
      have hstored : (journal.advisedBy rationale located).match? =
          some { stored with rationale } := by
        show journal.match?.map _ = _
        rw [hmatch]
        rfl
      rw [hstored]
      dsimp only
      rw [storedMatch_rationale]
      cases storedMatch (site.ruled m) sops stored with
      | none => exact covered_of_plain (plain_escalate.bind fun _ => True.intro)
      | some found => exact afterMatch_covered rfl rfl journal rationale located true

theorem runOnce_covered (m : SopMatcher) (sops : List SOP) (journal : LoadedJournal)
    (rationale : String) (located : List (String × String)) :
    (compared around model).Covered acting
      (runOnce (site.ruled m) incident runId (journal.advisedBy rationale located) sops true)
      (runOnce (site.ruled m) incident runId journal sops false) := by
  have hcaught : ∀ e : Exn, (if passes e then throw e
      else do
        escalate (site.ruled m) incident
        pure
          { incidentNumber := incident.number, sopId := "", sopTitle := ""
            outcome := some .needsHuman
            escalationReason := .str s!"Internal error: {e.kind}" } :
      Prog ExecutionSummary).Issues Op.Plain :=
    fun e => Program.Issues.ite (fun _ => True.intro) fun _ =>
      plain_escalate.bind fun _ => True.intro
  refine (run_covered m sops journal rationale located).tryCatch (fun e => ?_) fun e => ?_
  · exact (hcaught e).mono fun _ ho => heard_of_unasked ho.unasked
  · exact (hcaught e).mono fun _ ho => not_not.mpr ho.quiet

/-- The operation records no SOP but one that may run. -/
def Sound (site : Site) (m : SopMatcher) (incident : Incident) (sops : List SOP) (o : Op) : Prop :=
  ∀ id sop confidence rationale, o = .db (.recordMatch id sop confidence rationale) →
    Chosen site m incident sops sop

theorem sound_of_settled {m : SopMatcher} {sops : List SOP} {o : Op} (h : o.recordsMatch = false) :
    Sound site m incident sops o := by
  rintro id sop confidence rationale rfl
  cases h

theorem sound_of_plain {m : SopMatcher} {sops : List SOP} {α : Type} {p : Prog α}
    (h : p.Issues Op.Plain) : p.Issues (Sound site m incident sops) :=
  h.mono fun _ ho => sound_of_settled ho.settled

theorem afterMatch_sound {m : SopMatcher} {sops : List SOP} {journal : LoadedJournal}
    {advisor resumed : Bool} {found : MatchResult}
    (h : resumed = false → ∀ sop, found.sop = some sop → Chosen site m incident sops sop) :
    (afterMatch (site.ruled m) incident runId journal advisor resumed found).Issues
      (Sound site m incident sops) := by
  unfold afterMatch
  cases hfound : found.sop with
  | none => exact sound_of_plain (plain_concludeUnmatched ..)
  | some sop =>
    have hexecute : (executeMatched (site.ruled m) incident sop runId journal advisor).Issues
        (Sound site m incident sops) :=
      (executeMatched_fits journal advisor).mono fun o ho => sound_of_settled ho.settled
    cases found.confidence with
    | none => exact sound_of_plain (plain_concludeUnmatched ..)
    | some confidence =>
      refine Program.Issues.ite (fun _ => sound_of_plain (plain_concludeUnmatched ..)) fun _ =>
        Program.Issues.ite (fun _ => hexecute) fun hfresh => ?_
      refine Program.Issues.bind (issues_ask ?_) fun _ => Program.Issues.bind ?_ fun _ => hexecute
      · rintro id other confidence' rationale ⟨⟩
        exact h (by simpa using hfresh) sop hfound
      · exact (issues_ask (sound_of_settled rfl)).attempt

/-- Whatever the model answers, what is found may run. -/
theorem matchSop_chosen (m : SopMatcher) (sops : List SOP) (advisor : Bool) :
    (matchSop (site.ruled m) incident sops advisor).Always fun r => ∀ found, r = .ok found →
      ∀ sop, found.sop = some sop → Chosen site m incident sops sop := by
  unfold matchSop
  dsimp only
  split
  · rintro found ⟨⟩ sop hsop
    exact chosen_byRules hsop
  · refine Program.Always.bind (Program.Always.attempt (Program.Always.trivial fun advice => ?_))
    rintro found ⟨⟩ sop hsop
    match advice with
    | .ok (some (i, rationale)) => exact chosen_advised hsop
    | .ok none => exact chosen_byRules hsop
    | .error _ => exact chosen_byRules hsop

/-- **The match that a run puts on record is one that may run.** -/
theorem runOnce_sound (m : SopMatcher) (sops : List SOP) (journal : LoadedJournal)
    (advisor : Bool) :
    (runOnce (site.ruled m) incident runId journal sops advisor).Issues
      (Sound site m incident sops) := by
  have hC := Program.issues_compositional (E := Calls) (ε := Exn) (Sound site m incident sops)
  refine Program.Issues.tryCatch (Program.Issues.bind (sound_of_plain plain_claim)
    fun lost => ?_) fun e => Program.Issues.ite (fun _ => True.intro) fun _ =>
      (sound_of_plain plain_escalate).bind fun _ => True.intro
  cases lost with
  | some summary => exact True.intro
  | none =>
    dsimp only
    split
    · split
      · exact (sound_of_plain plain_escalate).bind fun _ => True.intro
      · refine afterMatch_sound fun h => ?_
        cases h
    · refine hC.bind_of_always (.other "" "") ?_ (matchSop_chosen m sops advisor) fun found hfound =>
        afterMatch_sound fun _ => hfound
      refine Program.Issues.ite (fun _ => hC.ret _) fun _ =>
        hC.bind (hC.attempt ?_) fun _ => hC.ret _
      exact issues_ask (sound_of_settled rfl)

/-- A resumed run whose SOP makes no change calls no action. -/
theorem runOnce_resumed {m : SopMatcher} {journal : LoadedJournal} {advisor : Bool}
    {stored : StoredMatch} {found : MatchResult} (hstored : journal.match? = some stored)
    (hfound : storedMatch site sops stored = some found)
    (hquiet : ∀ sop, found.sop = some sop → sop.acts = false) :
    (runOnce (site.ruled m) incident runId journal sops advisor).Issues
      fun o : Op => o.actionCall? = none := by
  refine Program.Issues.tryCatch (Program.Issues.bind (plain_claim.mono fun _ ho => ho.quiet)
    fun lost => ?_) fun e => Program.Issues.ite (fun _ => True.intro) fun _ =>
      (plain_escalate.mono fun _ ho => ho.quiet).bind fun _ => True.intro
  cases lost with
  | some summary => exact True.intro
  | none =>
    have hruled : storedMatch (site.ruled m) sops stored = some found := hfound
    rw [hstored]
    dsimp only
    rw [hruled]
    exact afterMatch_quiet hquiet

end IncidentProcessor

/-! ## The claim -/

/-- What is left of a history without the model's part has the same action calls. -/
theorem actionCalls_unadvised (done : List Calls.Done) :
    actionCalls (done.filterMap unadvised) = actionCalls done := by
  unfold actionCalls
  rw [List.filterMap_filterMap]
  refine List.filterMap_congr fun d _ => ?_
  obtain ⟨o, answer⟩ := d
  cases o with
  | db c => cases c <;> rfl
  | _ => rfl

theorem actionCalls_quiet {done : List Calls.Done}
    (h : ∀ d ∈ done, ¬ IncidentProcessor.acting d.op) : actionCalls done = [] :=
  List.filterMap_eq_nil_iff.mpr fun d hd => not_not.mp (h d hd)

/-- **A model cannot widen what is written.**  Whatever a model answers, and whatever an earlier
one left in the journal: the SOP that a run records as its own is the best by the rules alone, or
an SOP without an ACTION step that reaches the threshold by its own score; no value that a
model proposed is bound in an SOP that acts; and each action call of the run is one of the run
without a model.  A resumed run whose SOP makes no change makes none. -/
theorem model_widens_nothing (site : Site) (m : SopMatcher) (around : Calls.World)
    (incident : Incident) (runId : Nat) (sops : List SOP) :
    (∀ (advisor : Option Model) (journal : LoadedJournal),
      ∀ d ∈ attempted (site.ruled m) around advisor incident runId journal sops,
        ∀ id sop confidence rationale, d.op = .db (.recordMatch id sop confidence rationale) →
          Chosen site m incident sops sop) ∧
    (∀ sop : SOP, sop.acts = true → ∀ journal advisor,
      Executor.bindAll site.eng incident sop journal advisor =
        .ofExcept (Executor.boundByRules site.eng incident sop)) ∧
    (∀ (model : Model) (journal : LoadedJournal) (rationale : String)
      (located : List (String × String)),
        (actionCalls (attempted (site.ruled m) around (some model) incident runId
          (journal.advisedBy rationale located) sops)).Sublist
        (actionCalls (attempted (site.ruled m) around none incident runId journal sops))) ∧
    ∀ (advisor : Option Model) (journal : LoadedJournal) (stored : StoredMatch)
      (found : MatchResult), journal.match? = some stored →
        IncidentProcessor.storedMatch site sops stored = some found →
          (∀ sop, found.sop = some sop → sop.acts = false) →
            actionCalls (attempted (site.ruled m) around advisor incident runId journal sops) =
              [] := by
  refine ⟨fun advisor journal d hd => ?_, fun sop hacts journal advisor =>
    Executor.bindAll_acts hacts journal advisor, fun model journal rationale located => ?_,
    fun advisor journal stored found hstored hfound hquiet => ?_⟩
  · exact (IncidentProcessor.runOnce_sound m sops journal advisor.isSome).doneIn [] d hd
  · rcases IncidentProcessor.runOnce_covered m sops journal rationale located [] [] rfl with
      ⟨hsame, -⟩ | hquiet
    · unfold attempted
      rw [← actionCalls_unadvised, ← actionCalls_unadvised (Program.doneIn _ _ _)]
      have hcalls := congrArg actionCalls hsame
      exact hcalls ▸ List.Sublist.refl _
    · rw [show actionCalls (attempted (site.ruled m) around (some model) incident runId
        (journal.advisedBy rationale located) sops) = [] from actionCalls_quiet hquiet]
      exact List.nil_sublist _
  · have hrun := @IncidentProcessor.runOnce_resumed site incident runId sops m journal
      advisor.isSome stored found hstored hfound hquiet
    exact List.filterMap_eq_nil_iff.mpr fun d hd => hrun.doneIn [] d hd

end L1Agent
