import L1Agent.Engine.Rendering
import L1Agent.Engine.Resolution
import L1Agent.Engine.Simulation
import L1Agent.Library.Worlds

/-! # What terminal steps and notes say

A NOTE, an ESCALATE and a RESOLVE step show the first 200 characters of a text.  The validator does
not look at it, and rendering keeps the type of what it is: a number cannot be cut, and the step
then ends the run with an error (`handleText_error`).

`terminal_steps_mean` is about a validated SOP and one run of it, whatever is answered.  Where each
step that the run goes through has a text to show, or a list (`Legible`), an ESCALATE step ends the
run escalated, a RESOLVE step resolved with its verification, and a note never ends it (`Meant`);
and where one of them has not, and no RESOLVE step is on record (`Resumable`), the run ends for a
person and does not do what its steps say.  `escalation_uncut` is such a run.

`Loop.Saying` is what holds of a walk whose texts could all be cut so far.  One round over a step
that shows a text (`endIn_round_text`) keeps it where the text can be cut (`Loop.Saying.shows`), and
the walk stops there where it cannot (`Loop.Saying.stops`); the walk is then taken by the rounds
that are left (`runLoop_meant`).
-/
namespace L1Agent
open Interleaving

/-- A step that shows a text and is not held for approval. -/
def TextStep (step : SOPStep) : Prop :=
  step.requiresApproval = false ∧
    (step.type? = some .note ∨ step.type? = some .escalate ∨ step.type? = some .resolve)

instance (step : SOPStep) : Decidable (TextStep step) := inferInstanceAs (Decidable (_ ∧ _))

/-- What the step shows, as it is rendered. -/
def shownText (step : SOPStep) : Json :=
  let description := Json.str step.description
  match step.type? with
  | some .escalate =>
    ((step.parameters.getD "reason" .null).orElse (step.parameters.getD "text" .null)).orElse
      (description.orElse (.str "SOP routed this incident to L2"))
  | some .resolve => (step.parameters.getD "text" description).orElse (.str "Resolved")
  | _ => step.parameters.getD "text" description

/-- What can be cut: a text, or a list. -/
def isCut : Json → Bool
  | .str _ | .arr _ => true
  | _ => false

/-- The journal takes what it is given. -/
def Journalling (w : EngineCalls.World) : Prop :=
  ∀ past step, w past (.stepStarted step) = .ok () ∧
    ∀ result, w past (.stepCompleted step result) = .ok ()

namespace Executor
variable {eng : Engine} {inc : Incident} {steps : List SOPStep} {values : List (String × Json)}
  {journaled : Bool} {step : SOPStep} {result : StepResult} {state : RunState} {p : Position}

/-! ## The three handlers -/

theorem sliced_ok {n : Nat} {v : Json} (h : isCut v = true) :
    ∃ shown, sliced n v = .ok shown ∧ isCut shown = true := by
  cases v with
  | str text => exact ⟨_, rfl, rfl⟩
  | arr items => exact ⟨_, rfl, rfl⟩
  | _ => cases h

theorem sliced_error {n : Nat} {v : Json} (h : isCut v = false) :
    ∃ message, sliced n v = .error (.other "TypeError" message) := by
  cases v with
  | str text => cases h
  | arr items => cases h
  | _ => exact ⟨_, rfl⟩

/-- The handler of a step that shows a text. -/
def handleText (state : RunState) (step : SOPStep) : Except Exn StepResult :=
  match step.type? with
  | some .escalate => handleEscalate step
  | some .resolve => handleResolve step state
  | _ => handleNote step

/-- The status that such a step asks for. -/
def textStatus (state : RunState) (step : SOPStep) : StepStatus :=
  match step.type? with
  | some .escalate => .escalated
  | some .resolve => if state = .verified then .success else .fail
  | _ => .success

theorem param_ok {parameters : Json} (h : parameters.isObj = true) (key : String) (default : Json) :
    param parameters key default = .ok (parameters.getD key default) := if_pos h

theorem ok_bind {α β : Type} (a : α) (f : α → Except Exn β) : (Except.ok a >>= f) = f a := rfl

/-- **A step whose text can be cut says what it means.** -/
theorem handleText_ok (hstep : TextStep step) (hobj : step.parameters.isObj = true)
    (htext : isCut (shownText step) = true) :
    ∃ r, handleText state step = .ok r ∧ r.status = textStatus state step ∧
      isCut r.outputSummary = true := by
  obtain ⟨shown, hshown, hcut⟩ := sliced_ok (n := 200) htext
  rcases hstep.2 with ht | ht | ht
  · unfold shownText at hshown
    unfold handleText textStatus handleNote
    simp only [ht] at hshown ⊢
    rw [param_ok hobj]
    simp only [ok_bind, hshown]
    exact ⟨_, rfl, rfl, hcut⟩
  · unfold shownText at hshown
    unfold handleText textStatus handleEscalate
    simp only [ht] at hshown ⊢
    rw [param_ok hobj, param_ok hobj]
    simp only [ok_bind, hshown]
    exact ⟨_, rfl, rfl, hcut⟩
  · unfold shownText at hshown
    unfold handleText textStatus handleResolve
    simp only [ht] at hshown ⊢
    rw [param_ok hobj]
    by_cases hv : state = .verified
    · simp only [ok_bind, if_pos hv, hshown]
      exact ⟨_, rfl, rfl, hcut⟩
    · simp only [ok_bind, if_neg hv]
      exact ⟨_, rfl, rfl, rfl⟩

/-- **A step whose text cannot be cut raises**, a RESOLVE step when it would have resolved. -/
theorem handleText_error (hstep : TextStep step) (hobj : step.parameters.isObj = true)
    (htext : isCut (shownText step) = false)
    (hverified : step.type? = some .resolve → state = .verified) :
    ∃ message, handleText state step = .error (.other "TypeError" message) := by
  obtain ⟨message, hshown⟩ := sliced_error (n := 200) htext
  refine ⟨message, ?_⟩
  rcases hstep.2 with ht | ht | ht
  · unfold shownText at hshown
    unfold handleText handleNote
    simp only [ht] at hshown ⊢
    rw [param_ok hobj]
    simp only [ok_bind, hshown]
    rfl
  · unfold shownText at hshown
    unfold handleText handleEscalate
    simp only [ht] at hshown ⊢
    rw [param_ok hobj, param_ok hobj]
    simp only [ok_bind, hshown]
    rfl
  · unfold shownText at hshown
    unfold handleText handleResolve
    simp only [ht] at hshown ⊢
    rw [param_ok hobj]
    simp only [ok_bind, if_pos (hverified ht), hshown]
    rfl

/-- The result of a step that shows a text: its own, or the error that it raised. -/
def spoken (eng : Engine) (state : RunState) (step : SOPStep) : StepResult :=
  match handleText state step with
  | .ok r => r
  | .error e => errorResult eng step s!"{e.kind}: {e.message}" step.stepType

/-- Such a step raises a TypeError or an AttributeError, never a suspension. -/
theorem handleText_kind {e : Exn} (h : handleText state step = .error e) :
    e.isSuspended = false := by
  have hparam : ∀ {parameters : Json} {key : String} {default : Json} {e : Exn},
      param parameters key default = .error e → e.isSuspended = false := fun h => by
    unfold param at h
    split at h
    · cases h
    · cases h
      rfl
  have hsliced : ∀ {n : Nat} {v : Json} {e : Exn}, sliced n v = .error e →
      e.isSuspended = false := fun h => by
    unfold sliced at h
    split at h
    · cases h
    · cases h
      rfl
    · cases h
      rfl
  have hbind : ∀ {α β : Type} {x : Except Exn α} {f : α → Except Exn β},
      (x >>= f) = .error e → x = .error e ∨ ∃ a, x = .ok a ∧ f a = .error e := fun {_ _ x _} h => by
    cases x with
    | error e' =>
      cases h
      exact .inl rfl
    | ok a => exact .inr ⟨a, rfl, h⟩
  unfold handleText at h
  split at h
  · unfold handleEscalate at h
    rcases hbind h with h | ⟨reason, -, h⟩
    · exact hparam h
    rcases hbind h with h | ⟨text, -, h⟩
    · exact hparam h
    rcases hbind h with h | ⟨shown, -, h⟩
    · exact hsliced h
    · cases h
  · unfold handleResolve at h
    rcases hbind h with h | ⟨text, -, h⟩
    · exact hparam h
    split at h
    · rcases hbind h with h | ⟨shown, -, h⟩
      · exact hsliced h
      · cases h
    · cases h
  · unfold handleNote at h
    rcases hbind h with h | ⟨text, -, h⟩
    · exact hparam h
    rcases hbind h with h | ⟨shown, -, h⟩
    · exact hsliced h
    · cases h

/-- Nothing is asked of the outside to execute such a step. -/
theorem executeStep_text {done : List StepResult} (hstep : TextStep step) :
    executeStep eng inc done values state step = .ret (spoken eng state step) := by
  have hdispatch : dispatch eng inc done values state step =
      Program.ofExcept (handleText state step) := by
    unfold dispatch handleText
    rcases hstep.2 with ht | ht | ht
    · rw [ht]
    · rw [ht]
    · rw [ht]
  unfold executeStep spoken
  rw [if_neg (by rw [hstep.1]; exact Bool.false_ne_true), hdispatch]
  cases hhandle : handleText state step with
  | ok r => rfl
  | error e =>
    have hkind := handleText_kind hhandle
    show (if e.isSuspended = true then _ else _) = _
    rw [if_neg (by rw [hkind]; exact Bool.false_ne_true)]
    rfl

theorem spoken_ok (eng : Engine) (hstep : TextStep step) (hobj : step.parameters.isObj = true)
    (htext : isCut (shownText step) = true) :
    (spoken eng state step).status = textStatus state step ∧
      isCut (spoken eng state step).outputSummary = true := by
  obtain ⟨r, hr, hstatus, hcut⟩ : ∃ r, handleText state step = .ok r ∧
      r.status = textStatus state step ∧ isCut r.outputSummary = true :=
    handleText_ok hstep hobj htext
  unfold spoken
  rw [hr]
  exact ⟨hstatus, hcut⟩

theorem spoken_error (eng : Engine) (hstep : TextStep step) (hobj : step.parameters.isObj = true)
    (htext : isCut (shownText step) = false)
    (hverified : step.type? = some .resolve → state = .verified) :
    (spoken eng state step).status = .error ∧
      isCut (spoken eng state step).outputSummary = true := by
  obtain ⟨message, hmessage⟩ := handleText_error hstep hobj htext hverified
  unfold spoken
  rw [hmessage]
  exact ⟨rfl, rfl⟩

/-! ## What becomes of the run -/

/-- The position after a step that shows a text. -/
def textState (state : RunState) (step : SOPStep) : RunState :=
  match step.type? with
  | some .escalate => .escalated
  | some .resolve => if state = .verified then .resolved else .needsHuman
  | _ => state

/-- No such step is an action. -/
theorem actionPath_text (hstep : TextStep step) : actionPath step result = .ok .null := by
  refine if_neg fun ht => ?_
  rcases hstep.2 with h | h | h
  · rw [h] at ht
    cases ht
  · rw [h] at ht
    cases ht
  · rw [h] at ht
    cases ht

/-- The table is asked with the step's own event. -/
theorem advance_text (eng : Engine) (verifiedBy : String) (reason : Json) {entry : RunState}
    (hstep : TextStep step) (hstate : state = .executing ∨ state = .verified)
    (hstatus : result.status = textStatus entry step) :
    ∃ p, advance eng step result state verifiedBy reason = .ok p ∧
      p.state = textState state step ∧
        (state = .verified → p.state = .verified ∨ p.state = .resolved →
          p.verifiedBy = verifiedBy) := by
  have hpath : actionPath step result = .ok .null := actionPath_text hstep
  have hadvance : advance eng step result state verifiedBy reason =
      advanceStep eng step result state verifiedBy reason >>= fun p => pure p.cleared := by
    unfold advance
    rw [hpath]
    rfl
  have hclear : ∀ q : Position, (q.state = .verified ∨ q.state = .resolved) →
      q.cleared.verifiedBy = q.verifiedBy := fun q => cleared_verifiedBy
  rw [hadvance]
  unfold textStatus at hstatus
  unfold textState
  rcases hstep.2 with ht | ht | ht
  · have hadvanced : advanceStep eng step result state verifiedBy reason =
        .ok ⟨state, verifiedBy, reason, step.onSuccess⟩ := by
      unfold advanceStep
      simp only [ht] at hstatus ⊢
      rw [hstatus]
      rcases hstate with rfl | rfl
      · rfl
      · rfl
    rw [hadvanced]
    refine ⟨_, rfl, by rw [cleared_state, ht], fun _ hp => ?_⟩
    rw [cleared_state] at hp
    exact hclear _ hp
  · have hadvanced : advanceStep eng step result state verifiedBy reason =
        .ok ⟨.escalated, verifiedBy,
          result.errorMessage.orElse (.str "Step required escalation"), ""⟩ := by
      unfold advanceStep
      simp only [ht] at hstatus ⊢
      rw [hstatus]
      rcases hstate with rfl | rfl
      · rfl
      · rfl
    rw [hadvanced]
    refine ⟨_, rfl, by rw [cleared_state, ht], fun _ hp => ?_⟩
    rw [cleared_state] at hp
    exact hclear _ hp
  · have hnever : result.status ≠ .error ∧ result.status ≠ .escalated := by
      simp only [ht] at hstatus
      rw [hstatus]
      split
      · exact ⟨nofun, nofun⟩
      · exact ⟨nofun, nofun⟩
    have hadvanced : ∃ r, advanceStep eng step result state verifiedBy reason =
        .ok ⟨if state = .verified then .resolved else .needsHuman, verifiedBy, r, ""⟩ := by
      unfold advanceStep
      simp only [ht]
      rw [if_neg hnever.1, if_neg hnever.2]
      rcases hstate with rfl | rfl
      · exact ⟨_, rfl⟩
      · exact ⟨_, rfl⟩
    obtain ⟨r, hadvanced⟩ := hadvanced
    rw [hadvanced]
    refine ⟨_, rfl, by rw [cleared_state, ht], fun _ hp => ?_⟩
    rw [cleared_state] at hp
    exact hclear _ hp

/-- A step that raised ends the run for a person. -/
theorem advance_error {verifiedBy : String} {reason : Json} (hstep : TextStep step)
    (hstate : state = .executing ∨ state = .verified) (hstatus : result.status = .error) :
    ∃ p, advance eng step result state verifiedBy reason = .ok p ∧ p.state = .needsHuman := by
  have hpath : actionPath step result = .ok .null := actionPath_text hstep
  have hadvanced : ∃ r, advanceStep eng step result state verifiedBy reason =
      .ok ⟨.needsHuman, verifiedBy, r, ""⟩ := by
    unfold advanceStep
    simp only
    rw [if_pos hstatus]
    rcases hstate with rfl | rfl
    · exact ⟨_, rfl⟩
    · exact ⟨_, rfl⟩
  obtain ⟨r, hadvanced⟩ := hadvanced
  unfold advance
  rw [hpath]
  show ∃ p, (advanceStep eng step result state verifiedBy reason >>= fun p => pure p.cleared) =
    .ok p ∧ _
  rw [hadvanced]
  exact ⟨_, rfl, cleared_state _⟩

/-! ## One round, in a world whose journal takes its records -/

variable {w : EngineCalls.World}

theorem endIn_ofExcept {ε α : Type} (r : Except ε α) (past : List EngineCalls.Done)  :
    (Program.ofExcept r : Program EngineCalls ε α).endIn w past = r := by
  cases r with
  | ok a => rfl
  | error e => rfl

theorem endIn_guarded {α : Type} (went : List Visit) (q : Engine.Prog α)
    (past : List EngineCalls.Done) :
    (guarded went q).endIn w past =
      (q.endIn w past).mapError fun e => ⟨.executing, e, went⟩ := by
  unfold guarded
  induction q generalizing past with
  | ret a => rfl
  | raise e => rfl
  | call o k ih => exact ih (w past o) _

/-- The step is executed and its result recorded. -/
theorem endIn_executeAndRecord {l : Loop} (hw : Journalling w)
    (hexec : executeStep eng inc (results l.went) values state step = .ret result)
    (hcut : isCut result.outputSummary = true) (past : List EngineCalls.Done) :
    (executeAndRecord eng inc values journaled l state step).endIn w past = .ok result := by
  obtain ⟨shown, hshown, -⟩ := sliced_ok (n := 200) hcut
  obtain ⟨kept, hkept, -⟩ := sliced_ok (n := 300) hcut
  have hstarted : ∀ past, (executeStarted eng inc values journaled l state step).endIn w past =
      .ok result := by
    intro past
    unfold executeStarted
    rw [hexec]
    cases journaled with
    | false => rfl
    | true =>
      show (Program.ofExcept (w past (.stepStarted step)) >>= fun _ => _).endIn w _ = _
      rw [(hw past step).1]
      rfl
  have htold : ∀ past, (tell journaled step result).endIn w past = .ok () := by
    intro past
    unfold tell
    rw [hshown, hkept]
    cases journaled with
    | false => rfl
    | true =>
      show (Program.ofExcept (w past (.stepCompleted step result)) >>= fun _ => _).endIn w _ = _
      rw [(hw past step).2 result]
      rfl
  unfold executeAndRecord
  rw [Program.endIn_bind, endIn_guarded, hstarted]
  show Program.endIn w (Program.bind _ _) _ = _
  rw [Program.endIn_bind, endIn_guarded, htold]
  rfl

/-- What the journal holds for such a step is what it was when it was executed. -/
def Kept (eng : Engine) (steps : List SOPStep) (completed : List (String × StepResult)) : Prop :=
  ∀ step ∈ steps, TextStep step → ∀ result, completed.lookup step.stepId = some result →
    ∃ state, result = spoken eng state step

/-- No such step starts a verification. -/
theorem started_text (hstep : TextStep step) : started step state = .ok state := by
  refine if_neg fun h => ?_
  rcases hstep.2 with ht | ht | ht
  · rw [ht] at h
    cases h.1
  · rw [ht] at h
    cases h.1
  · rw [ht] at h
    cases h.1

/-- **One round over a step that shows a text**: its result is its own, and the walk goes on as
the table says. -/
theorem endIn_round_text (eng : Engine) (inc : Incident) (values : List (String × Json))
    (journaled : Bool) (n : Nat) {l : Loop} (hw : Journalling w) (hstep : TextStep step)
    (hcur : l.current steps = some step) (hrun : l.state.isTerminal = false)
    (hcut : isCut (spoken eng l.state step).outputSummary = true)
    (past : List EngineCalls.Done) :
    ∃ result past', (l.completed.lookup step.stepId = some result ∨
        result = spoken eng l.state step) ∧
      (runLoop eng inc steps values journaled (n + 1) l).endIn w past =
        match advance eng step result l.state l.verifiedBy l.reason with
        | .ok p => (runLoop eng inc steps values journaled n
            (l.next journaled step result p)).endIn w past'
        | .error e =>
          .error ⟨.executing, e, l.went ++ [⟨step, l.state, some result⟩]⟩ := by
  have hstarted : started step l.state = .ok l.state := started_text hstep
  rw [runLoop_round hrun hcur, Program.endIn_bind, endIn_guarded, endIn_ofExcept, hstarted]
  show ∃ result past', _ ∧ Program.endIn w (Program.bind _ _) _ = _
  rw [Program.endIn_bind]
  generalize past ++ Program.doneIn w _ past = past₁
  have hgo : ∀ result past₂, ∃ past',
      ((guarded (l.went ++ [⟨step, l.state, some result⟩]) (Program.ofExcept
        (advance eng step result l.state l.verifiedBy l.reason))).bind fun p =>
          runLoop eng inc steps values journaled n (l.next journaled step result p)).endIn w past₂ =
        match advance eng step result l.state l.verifiedBy l.reason with
        | .ok p => (runLoop eng inc steps values journaled n
            (l.next journaled step result p)).endIn w past'
        | .error e =>
          .error ⟨.executing, e, l.went ++ [⟨step, l.state, some result⟩]⟩ := by
    intro result past₂
    refine ⟨past₂ ++ Program.doneIn w (guarded (l.went ++ [⟨step, l.state, some result⟩])
      (Program.ofExcept (advance eng step result l.state l.verifiedBy l.reason))) past₂, ?_⟩
    rw [Program.endIn_bind, endIn_guarded, endIn_ofExcept]
    cases advance eng step result l.state l.verifiedBy l.reason with
    | ok p => rfl
    | error e => rfl
  unfold obtainResult
  cases hrec : l.completed.lookup step.stepId with
  | some result =>
    obtain ⟨past', hpast'⟩ := hgo result (past₁ ++ [])
    exact ⟨result, past', .inl rfl, hpast'⟩
  | none =>
    have hdone : (executeAndRecord eng inc values journaled l l.state step).endIn w past₁ =
        .ok (spoken eng l.state step) :=
      endIn_executeAndRecord hw (executeStep_text hstep) hcut past₁
    obtain ⟨past', hpast'⟩ := hgo (spoken eng l.state step) (past₁ ++ Program.doneIn w
      (executeAndRecord eng inc values journaled l l.state step) past₁)
    refine ⟨spoken eng l.state step, past', .inr rfl, ?_⟩
    dsimp only
    rw [hdone]
    dsimp only
    exact hpast'

/-- One round over any other step: it ends the walk with the step among those gone through, or the
walk goes on with a possible result. -/
theorem endIn_round (eng : Engine) (inc : Incident) (values : List (String × Json))
    (journaled : Bool) (n : Nat) (w : EngineCalls.World) {l : Loop}
    (hcur : l.current steps = some step) (hrun : l.state.isTerminal = false)
    (past : List EngineCalls.Done) :
    (∃ e result, (runLoop eng inc steps values journaled (n + 1) l).endIn w past =
        .error ⟨.executing, e, l.went ++ [⟨step, l.state, result⟩]⟩) ∨
      ∃ state result p past', started step l.state = .ok state ∧
        (l.completed.lookup step.stepId = some result ∨ Possible step result) ∧
          advance eng step result state l.verifiedBy l.reason = .ok p ∧
            (runLoop eng inc steps values journaled (n + 1) l).endIn w past =
              (runLoop eng inc steps values journaled n
                (l.next journaled step result p)).endIn w past' := by
  rw [runLoop_round hrun hcur, Program.endIn_bind, endIn_guarded, endIn_ofExcept]
  cases hstarted : started step l.state with
  | error e => exact .inl ⟨e, none, rfl⟩
  | ok state =>
    show (∃ e result, Program.endIn w (Program.bind _ _) _ = _) ∨
      ∃ state' result p past', _ ∧ _ ∧ _ ∧ Program.endIn w (Program.bind _ _) _ = _
    rw [Program.endIn_bind]
    generalize past ++ Program.doneIn w _ past = past₁
    have hlive : (obtainResult eng inc values journaled l state step).Always fun r =>
        (∃ e result, r = .error ⟨.executing, e, l.went ++ [⟨step, l.state, result⟩]⟩) ∨
          ∃ result, r = .ok result ∧
            (l.completed.lookup step.stepId = some result ∨ Possible step result) := by
      unfold obtainResult
      cases hrec : l.completed.lookup step.stepId with
      | some result => exact .inr ⟨result, rfl, .inl rfl⟩
      | none =>
        exact executeAndRecord_always executeStep_possible
          (fun result hres => .inr ⟨result, rfl, .inr hres⟩)
          (fun result e => .inl ⟨e, result, rfl⟩)
    rcases hlive.endIn (w := w) past₁ with ⟨e, result, hend⟩ | ⟨result, hend, hres⟩
    · rw [hend]
      exact .inl ⟨e, result, rfl⟩
    · rw [hend]
      dsimp only
      generalize past₁ ++ Program.doneIn w _ past₁ = past₂
      rw [Program.endIn_bind, endIn_guarded, endIn_ofExcept]
      cases hadvance : advance eng step result state l.verifiedBy l.reason with
      | error e => exact .inl ⟨e, some result, rfl⟩
      | ok p => exact .inr ⟨state, result, p, _, rfl, hres, hadvance, rfl⟩

/-- The walk only ever adds to the steps gone through. -/
theorem went_stays {l : Loop} {n : Nat} {v : Visit} (hv : v ∈ l.went) (hc : l.Counted steps)
    (hn : steps.length < n + l.visited.length) (past : List EngineCalls.Done) :
    v ∈ wentThrough ((runLoop eng inc steps values journaled n l).endIn w past) := by
  refine (runLoop_always (fun l => v ∈ l.went) (fun _ _ _ _ => True)
    (Q := fun r => v ∈ wentThrough r) ?_ ?_ ?_ ?_ ?_ hv hc hn).endIn past
  · exact fun _ _ _ _ _ => Program.Always.trivial fun _ _ _ => True.intro
  · exact fun _ hl _ => hl
  · exact fun _ hl _ _ => hl
  · exact fun _ _ _ _ hl _ _ => List.mem_append_left _ hl
  · exact fun _ _ _ _ _ hl _ _ _ _ _ => List.mem_append_left _ hl

/-- A walk goes through each step that it comes to. -/
theorem goes_through {l : Loop} {n : Nat} (hcur : l.current steps = some step)
    (hrun : l.state.isTerminal = false) (hc : l.Counted steps)
    (hn : steps.length < n + (l.currentId :: l.visited).length) (past : List EngineCalls.Done) :
    ∃ v ∈ wentThrough ((runLoop eng inc steps values journaled (n + 1) l).endIn w past),
      v.step = step := by
  rcases endIn_round eng inc values journaled n w hcur hrun past with ⟨e, result, hend⟩ |
      ⟨state, result, p, past', -, -, -, hend⟩
  · rw [hend]
    exact ⟨_, List.mem_append_right _ (List.mem_singleton_self _), rfl⟩
  · rw [hend]
    exact ⟨⟨step, l.state, some result⟩,
      went_stays (List.mem_append_right _ (List.mem_singleton_self _)) (counted_next hc hcur) hn _,
      rfl⟩

/-! ## The run -/

/-- What the walk has gone through says what state it is in. -/
def Loop.Meant (l : Loop) : Prop :=
  ∀ v ∈ l.went, TextStep v.step →
    (v.step.type? = some .escalate → l.state = .escalated) ∧
      (v.step.type? = some .resolve → l.state = .resolved ∧ l.verifiedBy ≠ "") ∧
        (v.step.type? = some .note → l.went.getLast? = some v → l.state.isTerminal = false)

/-- **A terminal step ends the run as it says, and a note does not end it.** -/
def Meant (r : Except Fault Ending) : Prop :=
  ∀ v ∈ wentThrough r, TextStep v.step →
    (v.step.type? = some .escalate → ∃ e, r = .ok e ∧ e.state = .escalated) ∧
      (v.step.type? = some .resolve → ∃ e, r = .ok e ∧ e.state = .resolved ∧ e.verifiedBy ≠ "") ∧
        (v.step.type? = some .note → (wentThrough r).getLast? ≠ some v)

/-- The texts of the steps that the run goes through can be cut. -/
def Legible (r : Except Fault Ending) : Prop :=
  ∀ v ∈ wentThrough r, TextStep v.step → isCut (shownText v.step) = true

instance (r : Except Fault Ending) : Decidable (Legible r) :=
  inferInstanceAs (Decidable (∀ v ∈ wentThrough r, TextStep v.step → _))

/-- The run ends for a person at a step that shows a text. -/
def Stopped (r : Except Fault Ending) : Prop :=
  ∃ e v, r = .ok e ∧ e.state = .needsHuman ∧ e.went.getLast? = some v ∧ TextStep v.step

/-- No RESOLVE step that is still to come is on record. -/
def Unresolved (steps : List SOPStep) (l : Loop) : Prop :=
  ∀ step ∈ steps, TextStep step → step.type? = some .resolve → step.stepId ∉ l.visited →
    l.completed.lookup step.stepId = none

/-- A walk that goes on has been through notes only. -/
theorem Loop.Meant.running {l : Loop} (h : l.Meant) (hrun : l.state.isTerminal = false) {v : Visit}
    (hv : v ∈ l.went) (htext : TextStep v.step) : v.step.type? = some .note := by
  obtain ⟨hescalate, hresolve, -⟩ := h v hv htext
  rcases htext.2 with ht | ht | ht
  · exact ht
  · rw [hescalate ht] at hrun
    cases hrun
  · rw [(hresolve ht).1] at hrun
    cases hrun

/-- The walk ends at a step that shows no text. -/
theorem meant_fault {l : Loop} {x : Visit} {e : Exn} {s : RunState} (h : l.Meant)
    (hrun : l.state.isTerminal = false) (hx : ¬TextStep x.step) :
    Meant (.error ⟨s, e, l.went ++ [x]⟩) := by
  intro v hv htext
  have hlast : (l.went ++ [x]).getLast? = some x := List.getLast?_concat ..
  rcases List.mem_append.mp hv with hv | hv
  · have hnote := h.running hrun hv htext
    refine ⟨fun ht => ?_, fun ht => ?_, fun _ hend => ?_⟩
    · rw [hnote] at ht
      cases ht
    · rw [hnote] at ht
      cases ht
    · have hend : (l.went ++ [x]).getLast? = some v := hend
      rw [hlast] at hend
      rw [Option.some.inj hend] at hx
      exact hx htext
  · rw [List.mem_singleton.mp hv] at htext
    exact absurd htext hx

theorem meant_finish {l : Loop} (h : l.Meant) (hterm : l.state.isTerminal = true) :
    Meant (.ok l.finish) := by
  intro v hv htext
  obtain ⟨hescalate, hresolve, hnote⟩ := h v hv htext
  refine ⟨fun ht => ⟨_, rfl, hescalate ht⟩, fun ht => ⟨_, rfl, (hresolve ht).1, ?_⟩,
    fun ht hlast => ?_⟩
  · have hby : l.finish.verifiedBy = l.verifiedBy := if_pos (hresolve ht).1
    rw [hby]
    exact (hresolve ht).2
  · have hrun := hnote ht hlast
    rw [hterm] at hrun
    cases hrun

/-- What it means that a step which shows a text has led to `p`. -/
def Says (step : SOPStep) (p : Position) : Prop :=
  (step.type? = some .escalate → p.state = .escalated) ∧
    (step.type? = some .resolve → p.state = .resolved ∧ p.verifiedBy ≠ "") ∧
      (step.type? = some .note → p.state.isTerminal = false)

/-- A round keeps what has been said, when its own step says what it means. -/
theorem meant_next {l : Loop} (h : l.Meant) (hrun : l.state.isTerminal = false)
    (hnew : (⟨step, l.state, some result⟩ : Visit) ∉ l.went)
    (hstep : TextStep step → Says step p) :
    (l.next journaled step result p).Meant := by
  intro v hv htext
  have hlast : (l.next journaled step result p).went.getLast? =
      some ⟨step, l.state, some result⟩ := List.getLast?_concat ..
  rcases List.mem_append.mp hv with hv | hv
  · have hnote := h.running hrun hv htext
    refine ⟨fun ht => ?_, fun ht => ?_, fun _ hend => ?_⟩
    · rw [hnote] at ht
      cases ht
    · rw [hnote] at ht
      cases ht
    · rw [hlast] at hend
      rw [← Option.some.inj hend] at hv
      exact absurd hv hnew
  · obtain rfl := List.mem_singleton.mp hv
    obtain ⟨hescalate, hresolve, hnote⟩ := hstep htext
    exact ⟨hescalate, hresolve, fun ht _ => hnote ht⟩

/-- A round keeps what the journal holds, when it records its own step's result. -/
theorem kept_next {l : Loop} (hnodup : (steps.map (·.stepId)).Nodup) (hmem : step ∈ steps)
    (h : Kept eng steps l.completed)
    (hresult : TextStep step → ∃ state, result = spoken eng state step) :
    Kept eng steps (l.next journaled step result p).completed := by
  intro s hs htext r hrec
  have hrec : (if (l.completed.lookup step.stepId).isNone && journaled then
      (step.stepId, result) :: l.completed else l.completed).lookup s.stepId = some r := hrec
  split at hrec
  · rw [List.lookup_cons] at hrec
    split at hrec
    · rename_i heq
      have hsame : s = step := List.inj_on_of_nodup_map hnodup hs hmem (by simpa using heq)
      rw [hsame] at htext ⊢
      rw [← Option.some.inj hrec]
      exact hresult htext
    · exact h s hs htext r hrec
  · exact h s hs htext r hrec

/-- A run that is verified was verified by a step with a name. -/
theorem verifiedBy_ne {l : Loop} (hg : GraphOk steps) (hl : l.OnPath steps) (hback : l.Backing)
    (h : l.state = .verified) : l.verifiedBy ≠ "" := by
  obtain ⟨before, verify, notes, -, hwent, -, hid, -⟩ := hback.verified h
  rw [← hid]
  refine hg.named _ (hl.members verify ?_)
  rw [hwent]
  exact List.mem_append_right _ (List.mem_cons_self ..)

/-- **A text that cannot be cut ends the run**, for a person, whether the step is executed now or
is on record. -/
theorem runLoop_uncut {l : Loop} (n : Nat) (hw : Journalling w) (hstep : TextStep step)
    (hobj : step.parameters.isObj = true) (htext : isCut (shownText step) = false)
    (hcur : l.current steps = some step) (hstate : l.state = .executing ∨ l.state = .verified)
    (hverified : step.type? = some .resolve → l.state = .verified)
    (hkept : ∀ result, l.completed.lookup step.stepId = some result →
      step.type? ≠ some .resolve ∧ ∃ state, result = spoken eng state step)
    (past : List EngineCalls.Done) :
    Stopped ((runLoop eng inc steps values journaled (n + 2) l).endIn w past) := by
  have hrun : l.state.isTerminal = false := by
    rcases hstate with h | h
    · rw [h]
      rfl
    · rw [h]
      rfl
  obtain ⟨hstatus, hcut⟩ := spoken_error eng hstep hobj htext hverified
  obtain ⟨result, past', hres, hend⟩ :=
    endIn_round_text eng inc values journaled (n + 1) hw hstep hcur hrun hcut past
  have hstatus : result.status = .error := by
    rcases hres with hrec | rfl
    · obtain ⟨hnever, state, rfl⟩ := hkept result hrec
      exact (spoken_error eng hstep hobj htext fun ht => absurd ht hnever).1
    · exact hstatus
  obtain ⟨p, hp, hpstate⟩ : ∃ p, advance eng step result l.state l.verifiedBy l.reason = .ok p ∧
      p.state = .needsHuman := advance_error hstep hstate hstatus
  have hterm : (l.next journaled step result p).state.isTerminal = true := by
    show p.state.isTerminal = true
    rw [hpstate]
    rfl
  rw [hend, hp]
  dsimp only
  rw [runLoop, if_pos hterm]
  exact ⟨_, ⟨step, l.state, some result⟩, rfl, hpstate, List.getLast?_concat .., hstep⟩

/-- A round leaves no RESOLVE step on record that is still to come. -/
theorem unresolved_next {l : Loop} (hcur : l.current steps = some step)
    (h : Unresolved steps l) : Unresolved steps (l.next journaled step result p) := by
  intro s hs htext ht hvis
  obtain ⟨-, -, hid, -⟩ := current_eq_some hcur
  obtain ⟨hne, hvis⟩ := not_or.mp (mt List.mem_cons.mpr hvis)
  have hlookup := h s hs htext ht hvis
  show (if (l.completed.lookup step.stepId).isNone && journaled then
    (step.stepId, result) :: l.completed else l.completed).lookup s.stepId = none
  split
  · rw [List.lookup_cons]
    split
    · rename_i heq
      exact absurd (by rw [← hid]; exact eq_of_beq heq) hne
    · exact hlookup
  · exact hlookup

/-- The steps gone through have texts that can be cut, and so has the next one. -/
theorem legible_concat {went : List Visit} {x : Visit}
    (h : ∀ v ∈ went, TextStep v.step → isCut (shownText v.step) = true)
    (hx : TextStep x.step → isCut (shownText x.step) = true) :
    ∀ v ∈ went ++ [x], TextStep v.step → isCut (shownText v.step) = true := by
  intro v hv
  rcases List.mem_append.mp hv with hv | hv
  · exact h v hv
  · rw [List.mem_singleton.mp hv]
    exact hx

/-- What holds of a walk whose texts could all be cut so far. -/
structure Loop.Saying (eng : Engine) (steps : List SOPStep) (l : Loop) : Prop where
  onPath : l.OnPath steps
  backing : l.Backing
  kept : Kept eng steps l.completed
  meant : l.Meant
  legible : ∀ v ∈ l.went, TextStep v.step → isCut (shownText v.step) = true
  counted : l.Counted steps

namespace Loop.Saying
variable {l : Loop}

/-- A RESOLVE step comes up when the run is verified. -/
theorem verified (h : l.Saying eng steps) (hg : GraphOk steps) (hrun : l.state.isTerminal = false)
    (hcur : l.current steps = some step) (ht : step.type? = some .resolve) :
    l.state = .verified := by
  obtain ⟨found, hfound, hsim⟩ := heading_enter hg h.onPath hrun
  obtain rfl : step = found := Option.some.inj (hcur.symm.trans hfound)
  have hin : (⟨step, l.state, none⟩ : Visit) ∈ l.went ++ [⟨step, l.state, none⟩] :=
    List.mem_append_right _ (List.mem_singleton.mpr rfl)
  exact (hsim none).resolves _ hin ht

/-- The step that comes up has not been gone through. -/
theorem fresh (h : l.Saying eng steps) (hcur : l.current steps = some step) (state : RunState)
    (result : Option StepResult) : (⟨step, state, result⟩ : Visit) ∉ l.went := by
  obtain ⟨-, hvis, hid, -⟩ := current_eq_some hcur
  intro hin
  refine hvis ?_
  rw [h.onPath.visited, List.mem_reverse, ← hid]
  exact List.mem_map_of_mem (f := fun v : Visit => v.step.stepId) hin

/-- **One step further**, where a step that shows a text says what it means. -/
theorem next (h : l.Saying eng steps) (hg : GraphOk steps) (hrun : l.state.isTerminal = false)
    (hcur : l.current steps = some step) (hs : started step l.state = .ok state)
    (hpossible : Possible step result)
    (hp : advance eng step result state l.verifiedBy l.reason = .ok p)
    (hsaid : TextStep step → isCut (shownText step) = true ∧
      (∃ s, result = spoken eng s step) ∧ Says step p) :
    (l.next journaled step result p).Saying eng steps where
  onPath := onPath_next hg h.onPath hcur hrun hs hpossible hp
  backing := backing_next h.backing hs hp
  kept := by
    obtain ⟨-, -, -, hmem⟩ := current_eq_some hcur
    exact kept_next hg.nodup hmem h.kept fun htext => (hsaid htext).2.1
  meant := meant_next h.meant hrun (h.fresh hcur _ _) fun htext => (hsaid htext).2.2
  legible := legible_concat h.legible fun htext => (hsaid htext).1
  counted := counted_next h.counted hcur

/-- **A text that can be cut is shown**, and the step says what it means. -/
theorem shows (h : l.Saying eng steps) (hg : GraphOk steps) (hw : Journalling w)
    (hobj : ∀ step ∈ steps, step.parameters.isObj = true) (hrun : l.state.isTerminal = false)
    (hcur : l.current steps = some step) (hstep : TextStep step)
    (htext : isCut (shownText step) = true) (n : Nat) (past : List EngineCalls.Done) :
    ∃ result p past', (l.next journaled step result p).Saying eng steps ∧
      (runLoop eng inc steps values journaled (n + 1) l).endIn w past =
        (runLoop eng inc steps values journaled n (l.next journaled step result p)).endIn w
          past' := by
  obtain ⟨-, -, -, hmem⟩ := current_eq_some hcur
  have hstate := (h.onPath.heading hrun).state
  have hshown : ∀ s, (spoken eng s step).status = textStatus s step ∧
      isCut (spoken eng s step).outputSummary = true :=
    fun s => spoken_ok eng hstep (hobj step hmem) htext
  obtain ⟨result, past', hres, hend⟩ :=
    endIn_round_text eng inc values journaled n hw hstep hcur hrun (hshown l.state).2 past
  have hown : ∃ s, result = spoken eng s step := by
    rcases hres with hrec | hlive
    · exact h.kept step hmem hstep result hrec
    · exact ⟨l.state, hlive⟩
  have hpossible : Possible step result := by
    rcases hres with hrec | rfl
    · exact h.onPath.honest step hmem result hrec
    · have halways : (executeStep eng inc [] values l.state step).Always fun r =>
          ∀ result, r = .ok result → Possible step result := executeStep_possible
      rw [executeStep_text hstep] at halways
      exact halways _ rfl
  obtain ⟨s, hs⟩ : ∃ s, result.status = textStatus s step := by
    obtain ⟨s, rfl⟩ := hown
    exact ⟨s, (hshown s).1⟩
  obtain ⟨p, hp, hpstate, hby⟩ := advance_text eng l.verifiedBy l.reason hstep hstate hs
  have hstarted : started step l.state = .ok l.state := started_text hstep
  refine ⟨result, p, past', h.next hg hrun hcur hstarted hpossible hp fun _ =>
    ⟨htext, hown, fun ht => ?_, fun ht => ?_, fun ht => ?_⟩, by rw [hend, hp]⟩
  · unfold textState at hpstate
    rw [ht] at hpstate
    exact hpstate
  · have hv := h.verified hg hrun hcur ht
    unfold textState at hpstate
    rw [ht, hv] at hpstate
    have hpstate : p.state = .resolved := hpstate
    rw [hby hv (.inr hpstate)]
    exact ⟨hpstate, verifiedBy_ne hg h.onPath h.backing hv⟩
  · unfold textState at hpstate
    rw [ht] at hpstate
    rw [hpstate]
    exact hrun

/-- **A text that cannot be cut is not legible**, and the run stops there unless a RESOLVE step is
on record. -/
theorem stops (h : l.Saying eng steps) (hg : GraphOk steps) (hw : Journalling w)
    (hobj : ∀ step ∈ steps, step.parameters.isObj = true) (hrun : l.state.isTerminal = false)
    (hcur : l.current steps = some step) (hstep : TextStep step)
    (htext : isCut (shownText step) = false) {n : Nat}
    (hn : steps.length < n + (l.currentId :: l.visited).length) (past : List EngineCalls.Done) :
    let r := (runLoop eng inc steps values journaled (n + 1) l).endIn w past
    ¬ Legible r ∧ (Unresolved steps l → Stopped r) := by
  obtain ⟨-, hvis, hid, hmem⟩ := current_eq_some hcur
  refine ⟨fun hleg => ?_, fun hfresh => ?_⟩
  · obtain ⟨v, hv, heq⟩ := goes_through hcur hrun h.counted hn past
    have hcut : isCut (shownText v.step) = true := hleg v hv (heq ▸ hstep)
    rw [heq, htext] at hcut
    cases hcut
  · have hsub : l.currentId :: l.visited ⊆ steps.map (·.stepId) :=
      List.cons_subset.mpr ⟨hid ▸ List.mem_map_of_mem hmem, h.counted.2⟩
    cases n with
    | zero =>
      have hle := (List.subperm_of_subset (List.nodup_cons.mpr ⟨hvis, h.counted.1⟩) hsub).length_le
      rw [List.length_map] at hle
      omega
    | succ n =>
      refine runLoop_uncut n hw hstep (hobj step hmem) htext hcur (h.onPath.heading hrun).state
        (h.verified hg hrun hcur)
        (fun result hrec => ⟨fun ht => ?_, h.kept step hmem hstep result hrec⟩) past
      rw [hfresh step hmem hstep ht (hid ▸ hvis)] at hrec
      cases hrec

end Loop.Saying

/-- **The run lemma**: in a world whose journal takes its records, the walk says what its steps
say as long as their texts can be cut, and stops at the first that cannot. -/
theorem runLoop_meant (hg : GraphOk steps) (hw : Journalling w)
    (hobj : ∀ step ∈ steps, step.parameters.isObj = true) {n : Nat} {l : Loop}
    (past : List EngineCalls.Done) (hl : l.Saying eng steps)
    (hn : steps.length < n + l.visited.length) :
    let r := (runLoop eng inc steps values journaled n l).endIn w past
    Legible r ∧ Meant r ∨ ¬ Legible r ∧ (Unresolved steps l → Stopped r) := by
  induction n generalizing l past with
  | zero =>
    have hle := (List.subperm_of_subset hl.counted.1 hl.counted.2).length_le
    rw [List.length_map] at hle
    omega
  | succ n ih =>
    by_cases hterm : l.state.isTerminal = true
    · rw [runLoop, if_pos hterm]
      exact .inl ⟨hl.legible, meant_finish hl.meant hterm⟩
    have hrun : l.state.isTerminal = false := by simpa using hterm
    obtain ⟨step, hcur, -⟩ := heading_enter hg hl.onPath hrun
    have hcount : steps.length < n + (l.currentId :: l.visited).length := by
      rw [List.length_cons]
      omega
    by_cases hstep : TextStep step
    · cases htext : isCut (shownText step) with
      | false => exact .inr (hl.stops hg hw hobj hrun hcur hstep htext hcount past)
      | true =>
        obtain ⟨result, p, past', hnext, hend⟩ :=
          hl.shows hg hw hobj hrun hcur hstep htext n past
        rw [hend]
        exact (ih past' hnext hcount).imp_right
          (.imp_right fun h hfresh => h (unresolved_next hcur hfresh))
    · rcases endIn_round eng inc values journaled n w hcur hrun past with ⟨e, result, hend⟩ |
          ⟨state, result, p, past', hs, hres, hp, hend⟩
      · rw [hend]
        exact .inl ⟨legible_concat hl.legible fun h => absurd h hstep,
          meant_fault hl.meant hrun hstep⟩
      · have hpossible : Possible step result := by
          rcases hres with hrec | hlive
          · exact hl.onPath.honest step (current_eq_some hcur).2.2.2 result hrec
          · exact hlive
        rw [hend]
        exact (ih past' (hl.next hg hrun hcur hs hpossible hp fun h => absurd h hstep)
          hcount).imp_right (.imp_right fun h hfresh => h (unresolved_next hcur hfresh))

/-- What an attempt finds in the journal is what earlier attempts of the run executed. -/
def Recorded (eng : Engine) (steps : List SOPStep) (journal : Option RunJournal) : Prop :=
  ∀ j ∈ journal, Kept eng steps j.completed ∧ ∀ step ∈ steps, ∀ result,
    j.completed.lookup step.stepId = some result → Possible step result

/-- No attempt has carried out a RESOLVE step. -/
def Resumable (steps : List SOPStep) (journal : Option RunJournal) : Prop :=
  ∀ j ∈ journal, ∀ step ∈ steps, TextStep step → step.type? = some .resolve →
    j.completed.lookup step.stepId = none

/-- **The run is what its steps say**, or stops at one whose text cannot be cut. -/
theorem runSteps_meant (hg : GraphOk steps) (hne : steps ≠ []) (hw : Journalling w)
    (hobj : ∀ step ∈ steps, step.parameters.isObj = true)
    {journal : Option RunJournal} (hjournal : Recorded eng steps journal)
    (past : List EngineCalls.Done) :
    let r := (runSteps eng inc steps values journal).endIn w past
    Legible r ∧ Meant r ∨ ¬ Legible r ∧ (Resumable steps journal → Stopped r) := by
  cases hsteps : steps with
  | nil => exact absurd hsteps hne
  | cons first rest =>
    rw [← hsteps]
    have hfirst : steps.head? = some first := by
      rw [hsteps]
      rfl
    have hrun : runSteps eng inc steps values journal =
        runLoop eng inc steps values journal.isSome (steps.length + 1)
          { currentId := first.stepId, completed := (journal.map (·.completed)).getD [] } := by
      rw [hsteps]
      rfl
    rw [hrun]
    have hback : Loop.Backing
        { currentId := first.stepId, completed := (journal.map (·.completed)).getD [] } :=
      ⟨nofun, nofun⟩
    have hkept : Kept eng steps ((journal.map (·.completed)).getD []) := by
      cases journal with
      | none =>
        intro step hs htext result hrec
        cases hrec
      | some j => exact (hjournal j rfl).1
    refine (runLoop_meant hg hw hobj past
      ⟨onPath_start hg hfirst journal fun j hj => (hjournal j hj).2, hback, hkept,
        fun v hv => absurd hv List.not_mem_nil, fun v hv => absurd hv List.not_mem_nil,
        List.nodup_nil, List.nil_subset _⟩ (Nat.lt_succ_self _)).imp_right
        (.imp_right fun h hresume => h fun step hs htext ht _ => ?_)
    cases journal with
    | none => rfl
    | some j => exact hresume j rfl step hs htext ht

/-! ## Validated SOPs -/

/-- A validated step's parameters are an object. -/
theorem parameters_isObj {sop : SOP} (h : validateSop eng.catalog sop = []) {step : SOPStep}
    (hs : step ∈ sop.steps) : step.parameters.isObj = true := by
  have hstep := validateSop_steps h step hs
  unfold stepProblems at hstep
  dsimp only at hstep
  split at hstep
  · cases hstep
  · by_contra hnot
    rw [if_pos (by simpa using hnot)] at hstep
    cases hstep

/-- And so they are when they have been rendered. -/
theorem rendered_isObj {sop : SOP} (h : validateSop eng.catalog sop = [])
    (hrendered : sop.steps.mapM (renderStep (Rendering.rendering eng) values) = .ok steps) :
    ∀ step ∈ steps, step.parameters.isObj = true := by
  have hmap : ∀ (source rendered : List SOPStep),
      source.mapM (renderStep (Rendering.rendering eng) values) = .ok rendered →
      (∀ step ∈ source, step.parameters.isObj = true) →
        ∀ step ∈ rendered, step.parameters.isObj = true := by
    intro source
    induction source with
    | nil =>
      intro rendered hr _ step hs
      rw [List.mapM_nil] at hr
      cases hr
      cases hs
    | cons first source ih =>
      intro rendered hr hobj step hs
      rw [List.mapM_cons] at hr
      obtain ⟨first', hfirst, hr⟩ := bind_eq_ok hr
      obtain ⟨rest, hrest, hr⟩ := bind_eq_ok hr
      cases hr
      obtain ⟨hobjFirst, hobj⟩ := List.forall_mem_cons.mp hobj
      rcases List.mem_cons.mp hs with rfl | hs
      · obtain ⟨parameters, hparameters, hfirst⟩ := bind_eq_ok hfirst
        cases hfirst
        have hparameters : Rendering.render eng.catalog.builtins values first.parameters =
          .ok parameters := hparameters
        cases hp : first.parameters with
        | obj fields =>
          rw [hp, Rendering.render] at hparameters
          obtain ⟨fields', -, hfields⟩ := bind_eq_ok hparameters
          cases hfields
          rfl
        | _ =>
          rw [hp] at hobjFirst
          cases hobjFirst
      · exact ih rest hrest hobj step hs
  exact hmap sop.steps steps hrendered fun step hs => parameters_isObj h hs

/-- How the execution ends, by what it went through. -/
def Concluded (inc : Incident) (sop : SOP) (r : Except Fault Ending) : Prop :=
  ∀ v ∈ wentThrough r, TextStep v.step →
    (v.step.type? = some .escalate →
      ∃ s, settle inc sop r = .ok s ∧ s.outcome = some .escalated) ∧
    (v.step.type? = some .resolve →
      ∃ s, settle inc sop r = .ok s ∧ s.outcome = some .resolved) ∧
    (v.step.type? = some .note → (wentThrough r).getLast? ≠ some v)

/-- A summary without an outcome takes one that it may have. -/
theorem conclude_ok {s : ExecutionSummary} {outcome : ExecutionOutcome} {reason : Json}
    {verifiedBy : String} (hnone : s.outcome = none)
    (hcheck : checkOutcome (some outcome) verifiedBy = true) :
    ∃ s', s.conclude (some outcome) reason verifiedBy = .ok s' ∧ s'.outcome = some outcome := by
  unfold ExecutionSummary.conclude
  rw [if_neg (by rw [hnone]; exact Bool.false_ne_true), dif_pos hcheck]
  exact ⟨_, rfl, rfl⟩

theorem settle_outcome {sop : SOP} {e : Ending} {outcome : ExecutionOutcome}
    (h : outcomeOf e.state = some outcome)
    (hcheck : checkOutcome (some outcome) e.verifiedBy = true) :
    ∃ s, settle inc sop (.ok e) = .ok s ∧ s.outcome = some outcome := by
  show ∃ s, conclude inc sop e = .ok s ∧ _
  unfold conclude
  rw [h]
  dsimp only
  obtain ⟨s, hs, houtcome⟩ : ∃ s, ExecutionSummary.conclude
      { incidentNumber := inc.number, sopId := sop.sopId, sopTitle := sop.title
        stepResults := results e.went } (some outcome) e.reason e.verifiedBy = .ok s ∧
        s.outcome = some outcome := conclude_ok rfl hcheck
  rw [hs]
  exact ⟨s, rfl, houtcome⟩

theorem Meant.concluded {sop : SOP} {r : Except Fault Ending} (h : Meant r) :
    Concluded inc sop r := by
  intro v hv htext
  obtain ⟨hescalate, hresolve, hnote⟩ := h v hv htext
  refine ⟨fun ht => ?_, fun ht => ?_, hnote⟩
  · obtain ⟨e, rfl, hstate⟩ := hescalate ht
    refine settle_outcome ?_ rfl
    rw [hstate]
    rfl
  · obtain ⟨e, rfl, hstate, hby⟩ := hresolve ht
    refine settle_outcome ?_ ?_
    · rw [hstate]
      rfl
    · unfold checkOutcome
      simpa using hby

/-- A run that stops at a step does not end as the step says. -/
theorem Stopped.concluded {sop : SOP} {r : Except Fault Ending} (h : Stopped r) :
    ¬ Concluded inc sop r ∧ ∃ s, settle inc sop r = .ok s ∧ s.outcome = some .needsHuman := by
  obtain ⟨e, v, rfl, hstate, hlast, htext⟩ := h
  obtain ⟨s, hs, houtcome⟩ : ∃ s, settle inc sop (.ok e) = .ok s ∧
      s.outcome = some .needsHuman := by
    refine settle_outcome ?_ rfl
    rw [hstate]
    rfl
  refine ⟨fun h => ?_, s, hs, houtcome⟩
  obtain ⟨hescalate, hresolve, hnote⟩ := h v (List.mem_of_getLast? hlast) htext
  have hother : ∀ outcome, (∃ s', settle inc sop (.ok e) = .ok s' ∧ s'.outcome = some outcome) →
      outcome = .needsHuman := by
    rintro outcome ⟨s', hs', houtcome'⟩
    rw [hs] at hs'
    cases hs'
    exact Option.some.inj (houtcome'.symm.trans houtcome)
  rcases htext.2 with ht | ht | ht
  · exact hnote ht hlast
  · exact absurd (hother _ (hescalate ht)) (by decide)
  · exact absurd (hother _ (hresolve ht)) (by decide)

end Executor

open Executor

/-- **Terminal steps of a validated SOP mean what they say** where every text that the run comes to
show is, once rendered, a text or a list: in every run whose journal takes its records, first or
resumed, an ESCALATE step ends the execution escalated, a RESOLVE step resolved, and a note does
not end it.  And a run that comes to any other text ends for a person, whatever the step says. -/
theorem terminal_steps_mean (eng : Engine) (inc : Incident) (sop : SOP)
    (values : List (String × Json)) (steps : List SOPStep)
    (hvalid : validateSop eng.catalog sop = [])
    (hrendered : sop.steps.mapM (renderStep (Rendering.rendering eng) values) = .ok steps)
    (journal : Option RunJournal) (hjournal : Recorded (Rendering.rendering eng) steps journal)
    (w : EngineCalls.World) (hw : Journalling w) (past : List EngineCalls.Done) :
    let r := (runSteps (Rendering.rendering eng) inc steps values journal).endIn w past
    (Legible r → Concluded inc sop r) ∧
      (Resumable steps journal → ¬ Legible r → ¬ Concluded inc sop r ∧
        ∃ s, settle inc sop r = .ok s ∧ s.outcome = some .needsHuman) := by
  have hobj := rendered_isObj hvalid hrendered
  obtain ⟨hne, hg⟩ := validateSop_graph hvalid
  have hshape := renderSteps_shape hrendered
  have hne' : steps ≠ [] := by
    rintro rfl
    exact hne (List.map_eq_nil_iff.mp hshape.symm)
  rcases runSteps_meant (hg.of_shape hshape) hne' hw hobj hjournal past with
    ⟨hlegible, hmeant⟩ | ⟨hnot, hstopped⟩
  · exact ⟨fun _ => hmeant.concluded, fun _ hnot => absurd hlegible hnot⟩
  · exact ⟨fun hlegible => absurd hlegible hnot, fun hresume _ => (hstopped hresume).concluded⟩

/-- A world in which everything that is asked succeeds. -/
def succeeding : EngineCalls.World := fun _ o =>
  match o with
  | .connectors | .stepStarted _ | .stepCompleted _ _ | .recordAdvised _ => .ok ()
  | .callAdapter .. => .ok { status := .success, result := some {} }
  | .perform _ => .ok { status := .success }
  | .extract _ => .ok []

theorem terminal_steps_mean_sample :
    Concluded {} sampleSop ((runSteps (Rendering.rendering sampleEngine) {} sampleSop.steps []
      none).endIn succeeding []) :=
  (terminal_steps_mean sampleEngine {} sampleSop [] sampleSop.steps (by decide) rfl none
    (fun _ h => nomatch h) succeeding (fun _ _ => ⟨rfl, fun _ => rfl⟩) []).1 (by decide +kernel)

/-- Hands over with the depth of a queue, which is a number. -/
def depthSop (reason : Json) : SOP where
  sopId := "queue-depth"
  title := "Queue depth"
  parameters := [{ name := "depth", type := "integer" }]
  steps := [{ stepId := "l2", stepType := "ESCALATE", parameters := .obj [("reason", reason)] }]

/-- `${depth}` -/
def depthReason : Json := .str "\x24\x7bdepth\x7d"

/-- The placeholder is a whole text, so the step has a number to show, and ends for a person. -/
theorem escalation_uncut :
    validateSop sampleEngine.catalog (depthSop depthReason) = [] ∧
      (depthSop depthReason).steps.mapM
        (renderStep (Rendering.rendering sampleEngine) [("depth", .int 7)]) =
          .ok (depthSop (.int 7)).steps ∧
      ¬Concluded {} (depthSop depthReason) ((runSteps (Rendering.rendering sampleEngine) {}
        (depthSop (.int 7)).steps [("depth", .int 7)] none).endIn succeeding []) := by
  refine ⟨by decide, by decide, fun h => ?_⟩
  have hended : ((settle {} (depthSop depthReason) ((runSteps (Rendering.rendering sampleEngine) {}
      (depthSop (.int 7)).steps [("depth", .int 7)] none).endIn succeeding [])).toOption.bind
        (·.outcome)) = some .needsHuman := by decide +kernel
  have hvisited : (wentThrough ((runSteps (Rendering.rendering sampleEngine) {}
      (depthSop (.int 7)).steps [("depth", .int 7)] none).endIn succeeding [])).any
        fun v => decide (TextStep v.step ∧ v.step.type? = some .escalate) := by decide +kernel
  obtain ⟨v, hv, htext⟩ := List.any_eq_true.mp hvisited
  obtain ⟨htext, ht⟩ := of_decide_eq_true htext
  obtain ⟨s, hs, houtcome⟩ := (h v hv htext).1 ht
  rw [hs] at hended
  rw [show (Except.ok s : Except Exn ExecutionSummary).toOption.bind (·.outcome) =
    some .escalated from houtcome] at hended
  cases hended

end L1Agent
