import L1Agent.Actions.Policy

/-! # Restrictions of the policy

`Situation.Stricter` says that one situation restricts another: more switches, freezes and
refusals, narrower hours, more raised tiers, fewer automatic rules, lower levels and ceilings.
`evaluate` follows: a restriction never moves the verdict up, and what is allowed is a T1 action
(`evaluate_stricter`).  It goes check by check: an action that nothing refuses in the stricter
situation is refused by nothing in the other one (`Situation.Clear`), and what is graded goes no
higher than its level (`grade_rank`).

The one exception is a write that its manifest declares as T0 and that a `raise_tier` rule of the
stricter situation raises: it was denied as what no manifest gives to a write, and is a T2 action
now, for which an approval is asked (`raised_from_read`).
-/
namespace L1Agent

/-- deny < shadow < recommend < require_approval < allow -/
def Verdict.rank : Verdict → Nat
  | deny => 0
  | shadow => 1
  | recommend => 2
  | requireApproval => 3
  | allow => 4

/-- T0 < T1 < T2 -/
def RiskTier.rank : RiskTier → Nat
  | t0 => 0
  | t1 => 1
  | t2 => 2

/-! ## What is stricter -/

/-- The level set for each SOP is lower, or no longer set. -/
def Rules.LowerLevels (r r' : Rules) : Prop :=
  ∀ sopId, r'.sopAutonomy.lookup sopId = none ∨
    ∃ level level' forHash, r.sopAutonomy.lookup sopId = some (level, forHash) ∧
      r'.sopAutonomy.lookup sopId = some (level', forHash) ∧ level'.rank ≤ level.rank

/-- `r'` restricts `r`. -/
structure Rules.Stricter (r r' : Rules) : Prop where
  sopAutonomy : r.LowerLevels r'
  raiseTier : r.raiseTier ⊆ r'.raiseTier
  automatic : r'.automatic ⊆ r.automatic
  freeze : r.freeze ⊆ r'.freeze
  hours : ∀ h, r.hours = some h → ∃ h', r'.hours = some h' ∧ ∀ now, h'.permits now = true →
    h.permits now = true
  rate : r.rateMax ≠ 0 → r'.rateMax ≠ 0 ∧ r'.rateMax ≤ r.rateMax

/-- `s'` restricts `s`. -/
structure Situation.Stricter (s s' : Situation) : Prop where
  killSwitches : s.killSwitches ⊆ s'.killSwitches
  tenantAutonomy : s'.tenantAutonomy.rank ≤ s.tenantAutonomy.rank
  rules : s.rules.Stricter s'.rules
  maxTier : s'.maxTier.rank ≤ s.maxTier.rank
  maxAutonomy : s'.maxAutonomy.rank ≤ s.maxAutonomy.rank
  recentActions : s.recentActions ≤ s'.recentActions
  refusals : s.refusals ⊆ s'.refusals

/-! ## The refusals -/

/-- **Nothing refuses the action.** -/
structure Situation.Clear (s : Situation) (request : ActionRequest) (tier : Option RiskTier) :
    Prop where
  switches : s.killSwitches = []
  write : request.isDeclaredWrite = true
  tiered : tier = some .t1 ∨ tier = some .t2
  ceiling : tier = some .t2 → s.maxTier = .t2
  writes : s.maxTier ≠ .t0
  freeze : ∀ w ∈ s.rules.freeze, ¬ (w.start ≤ request.now ∧ request.now < w.stop)
  hours : ∀ h, s.rules.hours = some h → h.permits request.now = true
  refusals : s.refusals = []
  rate : s.rules.rateMax = 0 ∨ s.recentActions < s.rules.rateMax

theorem refusal_clear {text : PolicyText} {request : ActionRequest} {s : Situation}
    {tier : Option RiskTier} : refusal text request s tier = none ↔ s.Clear request tier := by
  unfold refusal
  constructor
  · intro h
    split at h
    · cases h
    rename_i hswitches
    split at h
    · cases h
    rename_i hwrite
    split at h
    · cases h
    rename_i hceiling
    split at h
    · cases h
    rename_i hwrites
    split at h
    · cases h
    rename_i hfreeze
    split at h
    · cases h
    rename_i hhours
    split at h
    · cases h
    rename_i hrefusals
    split at h
    · cases h
    rename_i hrate
    refine ⟨by simpa using hswitches, ?_, ?_, fun htier => ?_, hwrites, fun w hw hin => ?_,
      fun hs hrules => ?_, by simpa using hrefusals, by omega⟩
    · by_contra hne
      exact hwrite (.inl (by simpa using hne))
    · by_contra hne
      rw [not_or] at hne
      exact hwrite (.inr hne)
    · by_contra hne
      exact hceiling ⟨htier, hne⟩
    · have hnone := List.find?_eq_none.mp hfreeze w hw
      simp [hin.1, hin.2] at hnone
    · rw [hrules] at hhours
      simpa using hhours
  · intro h
    rw [if_neg (by simp [h.switches]), if_neg ?_, if_neg fun hc => hc.2 (h.ceiling hc.1),
      if_neg h.writes]
    · have hfreeze : s.rules.freeze.find?
          (fun w => w.start ≤ (request.now : Int) && (request.now : Int) < w.stop) = none := by
        refine List.find?_eq_none.mpr fun w hw hin => h.freeze w hw ?_
        simpa using hin
      rw [hfreeze]
      dsimp only
      rw [if_neg ?_, if_neg (by simp [h.refusals]), if_neg ?_]
      · intro hrate
        rcases h.rate with hzero | hlt
        · exact hrate.1 hzero
        · omega
      · intro hany
        obtain ⟨hs, hrules, hnot⟩ := (Option.any_eq_true _ _).mp hany
        rw [h.hours hs hrules] at hnot
        cases hnot
    · rintro (hnot | ⟨h1, h2⟩)
      · rw [h.write] at hnot
        cases hnot
      · rcases h.tiered with ht | ht
        · exact h1 ht
        · exact h2 ht

/-- The verdict is a denial, or nothing refuses the action and it is graded. -/
theorem evaluate_cases (text : PolicyText) (request : ActionRequest) (s : Situation) :
    (evaluate text request s).verdict = .deny ∨
      s.Clear request (effectiveTier text request s.rules) ∧
        evaluate text request s = grade text request s (effectiveTier text request s.rules) := by
  unfold evaluate
  dsimp only
  cases hrefusal : refusal text request s (effectiveTier text request s.rules) with
  | some x => exact .inl rfl
  | none => exact .inr ⟨refusal_clear.mp hrefusal, rfl⟩

theorem evaluate_clear {text : PolicyText} {request : ActionRequest} {s : Situation}
    (h : s.Clear request (effectiveTier text request s.rules)) :
    evaluate text request s = grade text request s (effectiveTier text request s.rules) := by
  unfold evaluate
  dsimp only
  rw [refusal_clear.mpr h]

/-! ## The levels -/

theorem Autonomy.rank_lower (a b : Autonomy) : (a.lower b).rank = min a.rank b.rank := by
  unfold lower
  split <;> omega

theorem Rules.sopLevel_lower {r r' : Rules} (h : r.LowerLevels r') (sopId contentHash : String) :
    (r'.sopLevel sopId contentHash).rank ≤ (r.sopLevel sopId contentHash).rank := by
  unfold sopLevel
  rcases h sopId with hnone | ⟨level, level', forHash, hr, hr', hle⟩
  · rw [hnone]
    exact Nat.zero_le _
  · rw [hr, hr']
    dsimp only
    split
    · exact hle
    · exact Nat.le_refl _

/-- The level that counts. -/
def Situation.level (s : Situation) (request : ActionRequest) : Autonomy :=
  (s.tenantAutonomy.lower (s.rules.sopLevel request.sopId request.sopHash)).lower s.maxAutonomy

theorem Situation.Stricter.level {s s' : Situation} (h : s.Stricter s') (request : ActionRequest) :
    (s'.level request).rank ≤ (s.level request).rank := by
  have hsop := Rules.sopLevel_lower h.rules.sopAutonomy request.sopId request.sopHash
  have htenant := h.tenantAutonomy
  have hmax := h.maxAutonomy
  simp only [Situation.level, Autonomy.rank_lower]
  omega

/-- The action is on the tenant's automatic list. -/
def Situation.Listed (text : PolicyText) (request : ActionRequest) (s : Situation) : Prop :=
  s.rules.automatic.any (fun r =>
    r.covers text request.capabilityId request.targets request.sopId) = true

theorem Situation.Stricter.listed {text : PolicyText} {request : ActionRequest} {s s' : Situation}
    (h : s.Stricter s') (hlisted : s'.Listed text request) : s.Listed text request := by
  obtain ⟨r, hr, hcovers⟩ := List.any_eq_true.mp hlisted
  exact List.any_eq_true.mpr ⟨r, h.rules.automatic hr, hcovers⟩

/-- **What an action is graded**: no higher than its level, and allowed only if it is T1 and on
the list. -/
theorem grade_rank (text : PolicyText) (request : ActionRequest) (s : Situation)
    (tier : Option RiskTier) :
    (grade text request s tier).verdict.rank = (s.level request).rank + 1 ∧
        ((s.level request).rank < 3 ∨ tier = some .t1 ∧ s.Listed text request) ∨
      (grade text request s tier).verdict.rank = 3 ∧ (s.level request).rank = 3 ∧
        ¬ (tier = some .t1 ∧ s.Listed text request) := by
  unfold grade
  cases hlevel : s.level request with
  | shadow | recommend | approval =>
    have hsame := hlevel
    unfold Situation.level at hsame
    rw [hsame]
    exact .inl ⟨rfl, .inl (by decide)⟩
  | automatic =>
    have hsame := hlevel
    unfold Situation.level at hsame
    rw [hsame]
    dsimp only
    by_cases htier : tier = some .t1
    · rw [if_neg (not_not.mpr htier)]
      by_cases hlisted : s.rules.automatic.any (fun r =>
          r.covers text request.capabilityId request.targets request.sopId) = true
      · rw [if_pos hlisted]
        exact .inl ⟨rfl, .inr ⟨htier, hlisted⟩⟩
      · rw [if_neg hlisted]
        exact .inr ⟨rfl, rfl, fun h => hlisted h.2⟩
    · rw [if_pos htier]
      exact .inr ⟨rfl, rfl, fun h => htier h.1⟩

/-! ## The tiers -/

/-- The tier is the same, or raised to T2. -/
theorem Rules.Stricter.tier {text : PolicyText} {request : ActionRequest} {r r' : Rules}
    (h : r.Stricter r') :
    effectiveTier text request r' = effectiveTier text request r ∨
      effectiveTier text request r' = some .t2 := by
  unfold effectiveTier
  cases request.baseTier with
  | none => exact .inl rfl
  | some base =>
    dsimp only
    by_cases htouch : r'.raiseTier.any (fun x =>
        x.touches text request.capabilityId request.targets) = true
    · rw [if_pos htouch]
      exact .inr rfl
    · rw [if_neg htouch, if_neg]
      · exact .inl rfl
      · intro hany
        obtain ⟨x, hx, hx'⟩ := List.any_eq_true.mp hany
        exact htouch (List.any_eq_true.mpr ⟨x, h.raiseTier hx, hx'⟩)

/-- A tier that a write has is not raised out of nothing. -/
theorem effectiveTier_write {text : PolicyText} {request : ActionRequest} {r r' : Rules}
    (hbase : request.baseTier = some .t0 →
      effectiveTier text request r' = effectiveTier text request r)
    (h : effectiveTier text request r' = some .t1 ∨ effectiveTier text request r' = some .t2) :
    effectiveTier text request r = some .t1 ∨ effectiveTier text request r = some .t2 := by
  cases hb : request.baseTier with
  | none =>
    unfold effectiveTier at h
    rw [hb] at h
    rcases h with h | h <;> cases h
  | some base =>
    cases base with
    | t0 =>
      rw [← hbase hb]
      exact h
    | t1 | t2 =>
      unfold effectiveTier
      rw [hb]
      dsimp only
      split
      · exact .inr rfl
      · simp

/-! ## The verdict -/

/-- What nothing refuses in the stricter situation, nothing refuses in the other. -/
theorem Situation.Stricter.clear {text : PolicyText} {request : ActionRequest} {s s' : Situation}
    (h : s.Stricter s')
    (hbase : request.isDeclaredWrite = true → request.baseTier = some .t0 →
      effectiveTier text request s'.rules = effectiveTier text request s.rules)
    (hclear : s'.Clear request (effectiveTier text request s'.rules)) :
    s.Clear request (effectiveTier text request s.rules) where
  switches := List.subset_nil.mp (hclear.switches ▸ h.killSwitches)
  write := hclear.write
  tiered := effectiveTier_write (hbase hclear.write) hclear.tiered
  ceiling htier := by
    have hmax : s'.maxTier = .t2 := by
      refine hclear.ceiling ?_
      rcases @Rules.Stricter.tier text request _ _ h.rules with heq | heq
      · rw [heq, htier]
      · exact heq
    have hle := h.maxTier
    rw [hmax] at hle
    revert hle
    cases s.maxTier <;> decide
  writes hzero := by
    have hle := h.maxTier
    rw [hzero] at hle
    refine hclear.writes ?_
    revert hle
    cases s'.maxTier <;> decide
  freeze w hw := hclear.freeze w (h.rules.freeze hw)
  hours hs hrules := by
    obtain ⟨hs', hrules', hpermits⟩ := h.rules.hours hs hrules
    exact hpermits _ (hclear.hours hs' hrules')
  refusals := List.subset_nil.mp (hclear.refusals ▸ h.refusals)
  rate := by
    by_cases hzero : s.rules.rateMax = 0
    · exact .inl hzero
    · obtain ⟨hne, hle⟩ := h.rules.rate hzero
      have hcount := h.recentActions
      rcases hclear.rate with hrate | hrate
      · exact absurd hrate hne
      · exact .inr (by omega)

/-- **A restriction never moves the verdict up**, but for a declared write of tier T0 that it
raises; and what is allowed is T1. -/
theorem evaluate_stricter (text : PolicyText) (request : ActionRequest) (s s' : Situation)
    (h : s.Stricter s') :
    ((request.isDeclaredWrite = true → request.baseTier = some .t0 →
        effectiveTier text request s'.rules = effectiveTier text request s.rules) →
      (evaluate text request s').verdict.rank ≤ (evaluate text request s).verdict.rank) ∧
      ((evaluate text request s).verdict = .allow →
        effectiveTier text request s.rules = some .t1) := by
  refine ⟨fun hbase => ?_, fun hallow => ?_⟩
  · rcases evaluate_cases text request s' with hdeny | ⟨hclear, heq⟩
    · rw [hdeny]
      exact Nat.zero_le _
    rw [heq, evaluate_clear (h.clear hbase hclear)]
    have hlevel := h.level request
    rcases grade_rank text request s' (effectiveTier text request s'.rules) with
      ⟨hrank', hlist'⟩ | ⟨hrank', hlevel', -⟩ <;>
    rcases grade_rank text request s (effectiveTier text request s.rules) with
      ⟨hrank, hlist⟩ | ⟨hrank, hlevel'', hnot⟩
    · omega
    · -- The stricter one is allowed only if the other is.
      rcases hlist' with hlt | ⟨htier', hlisted'⟩
      · omega
      · refine absurd ⟨?_, h.listed hlisted'⟩ hnot
        rcases @Rules.Stricter.tier text request _ _ h.rules with hsame | hraised
        · rw [← hsame]
          exact htier'
        · rw [hraised] at htier'
          cases htier'
    · omega
    · omega
  · rcases evaluate_cases text request s with hdeny | ⟨-, heq⟩
    · rw [hallow] at hdeny
      cases hdeny
    · rcases grade_rank text request s (effectiveTier text request s.rules) with
        ⟨hrank, hlist⟩ | ⟨hrank, -, -⟩
      · rw [← heq, hallow] at hrank
        rcases hlist with hlt | ⟨htier, -⟩
        · have hfour : (4 : Nat) = (s.level request).rank + 1 := hrank
          omega
        · exact htier
      · rw [← heq, hallow] at hrank
        cases hrank

theorem Rules.LowerLevels.refl (r : Rules) : r.LowerLevels r := by
  intro sopId
  cases hlevel : r.sopAutonomy.lookup sopId with
  | none => exact .inl rfl
  | some x => exact .inr ⟨x.1, x.1, x.2, rfl, rfl, Nat.le_refl _⟩

/-- More tiers are raised. -/
theorem Situation.Stricter.raising (s : Situation) {raiseTier : List TargetRule}
    (h : s.rules.raiseTier ⊆ raiseTier) :
    s.Stricter { s with rules := { s.rules with raiseTier } } where
  killSwitches := List.Subset.refl _
  tenantAutonomy := Nat.le_refl _
  rules := ⟨.refl s.rules, h, List.Subset.refl _, List.Subset.refl _,
    fun hs hrules => ⟨hs, hrules, fun _ hpermits => hpermits⟩, fun hne => ⟨hne, Nat.le_refl _⟩⟩
  maxTier := Nat.le_refl _
  maxAutonomy := Nat.le_refl _
  recentActions := Nat.le_refl _
  refusals := List.Subset.refl _

/-- Names are compared as they are. -/
def plainText : PolicyText where
  fnmatchcase name pattern := name == pattern
  isoformat _ := ""

/-- A write that restarts the job `billing`. -/
def restartRequest (tier : RiskTier) : ActionRequest where
  sopId := "restart-job"
  sopHash := "h"
  capabilityId := "JOB_RESTART"
  isDeclaredWrite := true
  baseTier := some tier
  targets := ["billing"]
  now := 0

/-- A situation in which the job may be restarted without an approval. -/
def openSituation : Situation where
  killSwitches := []
  tenantAutonomy := .automatic
  rules :=
    { sopAutonomy := [("restart-job", .automatic, .str "h")]
      automatic := [{ capability := "JOB_RESTART", targets := ["billing"] }] }
  maxTier := .t2
  maxAutonomy := .automatic
  recentActions := 0
  refusals := []

/-- A rule that raises the job's tier. -/
def raising : List TargetRule := [{ capability := "JOB_RESTART", targets := ["billing"] }]

theorem evaluate_stricter_sample :
    (evaluate plainText (restartRequest .t1)
        { openSituation with rules := { openSituation.rules with raiseTier := raising } }).verdict.rank ≤
      (evaluate plainText (restartRequest .t1) openSituation).verdict.rank ∧
    ((evaluate plainText (restartRequest .t1) openSituation).verdict = .allow →
      effectiveTier plainText (restartRequest .t1) openSituation.rules = some .t1) :=
  (evaluate_stricter plainText (restartRequest .t1) openSituation _
    (.raising openSituation (List.nil_subset _))).imp_left fun h => h fun _ h' => nomatch h'

/-- **A tier can be raised out of nothing.**  A read that is asked for as a write is denied; with
a rule that raises its tier, an approval is asked for. -/
theorem raised_from_read : ¬ ∀ (text : PolicyText) (request : ActionRequest) (s s' : Situation),
    s.Stricter s' →
      (evaluate text request s').verdict.rank ≤ (evaluate text request s).verdict.rank := by
  intro hall
  have hle := hall plainText (restartRequest .t0) openSituation _
    (@Situation.Stricter.raising openSituation raising (List.nil_subset _))
  revert hle
  decide

end L1Agent
