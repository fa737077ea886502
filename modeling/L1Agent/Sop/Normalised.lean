import L1Agent.Sop.Content
import L1Agent.Sop.Store

/-! # What has been approved is what runs

What `normalise` has written is written again as it is, whether it is read as a content or as the
SOP that is to run.  So the engine runs what the content says and no more, and contents with one
hash are of one SOP, up to the order of keys in the values that they hold (`normalised_runs`).

A content with typed fields is one that the store's model holds; what runs of it there is what runs
here (`asSop_ofSop`).
-/
namespace L1Agent
namespace Raw
open Json

/-! ## Reading what has been written -/

/-- The step as it is read again. -/
def SOPStep.settled (s : SOPStep) : SOPStep :=
  { s with
    capability := s.capability.orElse (.str "")
    verify := s.verify.orElse (.obj []) }

def SOP.settled (s : SOP) : SOP :=
  { s with
    steps := s.steps.map SOPStep.settled
    changeTemplate := s.changeTemplate.orElse (.str "") }

theorem whenSet_orElse (key : String) (value : Json) {default : Json}
    (h : default.truthy = false) :
    whenSet key (value.orElse default) = whenSet key value := by
  unfold whenSet Json.orElse
  by_cases hvalue : value.truthy = true
  · rw [if_pos hvalue]
  · rw [if_neg hvalue, if_neg (by simp [h]), if_neg hvalue]

theorem SOPStep.toDict_settled (s : SOPStep) : s.settled.toDict = s.toDict := by
  unfold settled toDict
  dsimp only
  rw [whenSet_orElse _ _ rfl, whenSet_orElse _ _ rfl]

theorem whenSet_pos {key : String} {value : Json} (h : value.truthy = true) :
    whenSet key value = [(key, value)] := if_pos h

theorem whenSet_neg {key : String} {value : Json} (h : ¬ value.truthy = true) :
    whenSet key value = [] := if_neg h

theorem orElse_pos {value default : Json} (h : value.truthy = true) :
    value.orElse default = value := if_pos h

theorem orElse_neg {value default : Json} (h : ¬ value.truthy = true) :
    value.orElse default = default := if_neg h

theorem SOPStep.fromDict_toDict (s : SOPStep) : SOPStep.fromDict s.toDict = .ok s.settled := by
  unfold SOPStep.settled SOPStep.toDict
  by_cases hcapability : s.capability.truthy = true
  · rw [whenSet_pos hcapability, orElse_pos hcapability]
    by_cases hverify : s.verify.truthy = true
    · rw [whenSet_pos hverify]
      rfl
    · rw [whenSet_neg hverify, orElse_neg hverify]
      rfl
  · rw [whenSet_neg hcapability, orElse_neg hcapability]
    by_cases hverify : s.verify.truthy = true
    · rw [whenSet_pos hverify]
      rfl
    · rw [whenSet_neg hverify, orElse_neg hverify]
      rfl

theorem ParameterSpec.fromDict_toDict (p : ParameterSpec) :
    ParameterSpec.fromDict p.toDict = .ok p := rfl

theorem itemsOf_map {α : Type} {fromDict : Json → Except String α} {toDict : α → Json}
    {settled : α → α} (h : ∀ a, fromDict (toDict a) = .ok (settled a)) (as : List α) :
    itemsOf fromDict (.arr (as.map toDict)) = .ok (as.map settled) := by
  show (as.map toDict).mapM fromDict = _
  induction as with
  | nil => rfl
  | cons a as ih =>
    rw [List.map_cons, List.mapM_cons, h, ih]
    rfl

/-- The fields that are stored. -/
def SOP.stored (s : SOP) : List (String × Json) :=
  [("sop_id", s.sopId), ("title", s.title), ("applicable_services", s.applicableServices),
    ("applicable_categories", s.applicableCategories),
    ("applicable_assignment_groups", s.applicableAssignmentGroups), ("keywords", s.keywords),
    ("parameters", .arr (s.parameters.map ParameterSpec.toDict)),
    ("steps", .arr (s.steps.map SOPStep.toDict)), ("pre_checks", s.preChecks),
    ("tools_required", s.toolsRequired), ("escalation_criteria", s.escalationCriteria.toDict)] ++
    whenSet "change_template" s.changeTemplate

theorem SOP.pop_toDict (s : SOP) :
    pop "version" (pop "status" (fieldsOf s.toDict)) = s.stored := by
  unfold pop fieldsOf SOP.toDict SOP.stored whenSet
  by_cases htemplate : s.changeTemplate.truthy = true <;> simp [htemplate]

theorem SOP.stored_settled (s : SOP) : s.settled.stored = s.stored := by
  unfold settled stored
  dsimp only
  rw [whenSet_orElse _ _ rfl, List.map_map]
  have hsteps : SOPStep.toDict ∘ SOPStep.settled = SOPStep.toDict :=
    funext SOPStep.toDict_settled
  rw [hsteps]

/-- The status and the version are read for themselves. -/
theorem SOP.read_lifecycle {get got : String → Option Json}
    (h : ∀ k, k ≠ "status" → k ≠ "version" → got k = get k) :
    SOP.read got = (SOP.read get).map fun s =>
      { s with
        status := (got "status").getD (.str "published")
        version := (got "version").getD (.str "1.0") } := by
  unfold SOP.read
  simp only [h "sop_id" (by decide) (by decide), h "title" (by decide) (by decide),
    h "applicable_services" (by decide) (by decide),
    h "applicable_categories" (by decide) (by decide),
    h "applicable_assignment_groups" (by decide) (by decide), h "keywords" (by decide) (by decide),
    h "steps" (by decide) (by decide), h "pre_checks" (by decide) (by decide),
    h "tools_required" (by decide) (by decide), h "escalation_criteria" (by decide) (by decide),
    h "parameters" (by decide) (by decide), h "change_template" (by decide) (by decide)]
  cases itemsOf SOPStep.fromDict ((get "steps").getD (.arr [])) with
  | error e => rfl
  | ok steps =>
    cases EscalationCriteria.fromDict ((get "escalation_criteria").getD (.obj [])) with
    | error e => rfl
    | ok criteria =>
      cases itemsOf ParameterSpec.fromDict ((get "parameters").getD (.arr [])) with
      | error e => rfl
      | ok parameters => rfl

/-- **What is stored is read as it was**, but for what the lifecycle owns. -/
theorem SOP.fromDict_stored (s : SOP) : SOP.fromDict (.obj s.stored) =
    .ok { s.settled with status := .str "published", version := .str "1.0", contentHash := "" } := by
  have hsteps : itemsOf SOPStep.fromDict (.arr (s.steps.map SOPStep.toDict)) =
      .ok (s.steps.map SOPStep.settled) := itemsOf_map SOPStep.fromDict_toDict s.steps
  have hparameters : itemsOf ParameterSpec.fromDict (.arr (s.parameters.map ParameterSpec.toDict)) =
      .ok s.parameters :=
    (itemsOf_map (fun p => ParameterSpec.fromDict_toDict p) s.parameters).trans (by simp)
  have hread : ∀ template : List (String × Json),
      SOP.fromDict (.obj (s.stored.take 11 ++ template)) = (do
        let steps ← itemsOf SOPStep.fromDict (.arr (s.steps.map SOPStep.toDict))
        let parameters ←
          itemsOf ParameterSpec.fromDict (.arr (s.parameters.map ParameterSpec.toDict))
        return { s with
          steps, parameters
          status := ((Json.obj template).get? "status").getD (.str "published")
          version := ((Json.obj template).get? "version").getD (.str "1.0")
          changeTemplate :=
            (((Json.obj template).get? "change_template").getD (.str "")).orElse (.str "")
          contentHash := "" }) := fun _ => rfl
  have hstored : s.stored = s.stored.take 11 ++ whenSet "change_template" s.changeTemplate := rfl
  rw [hstored, hread, hsteps, hparameters]
  unfold SOP.settled
  by_cases htemplate : s.changeTemplate.truthy = true
  · rw [whenSet_pos htemplate]
    rfl
  · rw [whenSet_neg htemplate, orElse_neg htemplate]
    rfl

/-! ## The content is stable -/

/-- What `normalise` accepts, and what it writes. -/
theorem normalise_ok {builtins : Builtins} {content data : Json}
    (h : normalise builtins content = .ok data) :
    ∃ s, SOP.fromDict content = .ok s ∧ data = .obj s.stored ∧
      isKey (builtins.str (data.getD "sop_id" (.str ""))) = true := by
  unfold normalise at h
  split at h
  · cases h
  · cases hread : SOP.fromDict content with
    | error e =>
      rw [hread] at h
      cases h
    | ok s =>
      rw [hread] at h
      dsimp only at h
      rw [s.pop_toDict] at h
      split at h
      · cases h
      · rename_i hkey
        cases h
        exact ⟨s, rfl, rfl, by simpa using hkey⟩

theorem normalise_stored {builtins : Builtins} {s : SOP}
    (hkey : isKey (builtins.str ((Json.obj s.stored).getD "sop_id" (.str ""))) = true) :
    normalise builtins (.obj s.stored) = .ok (.obj s.stored) := by
  unfold normalise
  rw [if_neg (by simp [Json.isObj]), s.fromDict_stored]
  dsimp only
  rw [SOP.pop_toDict]
  show (if !isKey (builtins.str ((Json.obj s.settled.stored).getD "sop_id" (.str ""))) then _
    else Except.ok (Json.obj s.settled.stored)) = _
  rw [s.stored_settled, hkey]
  rfl

/-- What is to run is what the content says, and what the lifecycle sets. -/
theorem asSop_eq (builtins : Builtins) (fields : List (String × Json)) (version : Json)
    (digest : String) :
    asSop builtins (.obj fields) version digest = (SOP.fromDict (.obj fields)).map fun s =>
      { s with
        status := .str "published"
        version := .str (builtins.str (version.orElse (.str "")))
        contentHash := digest } := by
  let text : Json := .str (builtins.str (version.orElse (.str "")))
  let set := Json.setField (Json.setField fields "status" (.str "published")) "version" text
  have hother : ∀ k, k ≠ "status" → k ≠ "version" →
      (Json.obj set).get? k = (Json.obj fields).get? k := by
    intro k hstatus hversion
    rw [get?_setField, if_neg hversion, get?_setField, if_neg hstatus]
  have hstatus : (Json.obj set).get? "status" = some (.str "published") := by
    rw [get?_setField, if_neg (by decide), get?_setField, if_pos rfl]
  have hversion : (Json.obj set).get? "version" = some text := by
    rw [get?_setField, if_pos rfl]
  have hread := SOP.read_lifecycle hother
  rw [hstatus, hversion] at hread
  show (SOP.read fun k => (Json.obj set).get? k).map _ =
    (SOP.read fun k => (Json.obj fields).get? k).map _
  rw [hread]
  cases SOP.read fun k => (Json.obj fields).get? k <;> rfl

/-! ## The order of keys -/

def SOPStep.canonical (s : SOPStep) : SOPStep where
  stepId := s.stepId.canonical
  stepType := s.stepType.canonical
  description := s.description.canonical
  parameters := s.parameters.canonical
  expectedOutput := s.expectedOutput.canonical
  onSuccess := s.onSuccess.canonical
  onFailure := s.onFailure.canonical
  requiresApproval := s.requiresApproval.canonical
  timeoutSeconds := s.timeoutSeconds.canonical
  capability := s.capability.canonical
  verify := s.verify.canonical

def ParameterSpec.canonical (p : ParameterSpec) : ParameterSpec where
  name := p.name.canonical
  type := p.type.canonical
  source := p.source.canonical
  pattern := p.pattern.canonical
  enum := p.enum.canonical
  maxLength := p.maxLength.canonical
  description := p.description.canonical

def EscalationCriteria.canonical (c : EscalationCriteria) : EscalationCriteria where
  maxRetryCount := c.maxRetryCount.canonical
  escalateOnAccessDenied := c.escalateOnAccessDenied.canonical
  escalateOnAmbiguousResult := c.escalateOnAmbiguousResult.canonical
  escalateOnWriteAction := c.escalateOnWriteAction.canonical
  customRules := c.customRules.canonical

/-- The SOP with the keys of its values in order. -/
def SOP.canonical (s : SOP) : SOP where
  sopId := s.sopId.canonical
  title := s.title.canonical
  applicableServices := s.applicableServices.canonical
  applicableCategories := s.applicableCategories.canonical
  applicableAssignmentGroups := s.applicableAssignmentGroups.canonical
  keywords := s.keywords.canonical
  steps := s.steps.map SOPStep.canonical
  preChecks := s.preChecks.canonical
  toolsRequired := s.toolsRequired.canonical
  escalationCriteria := s.escalationCriteria.canonical
  version := s.version.canonical
  parameters := s.parameters.map ParameterSpec.canonical
  status := s.status.canonical
  changeTemplate := s.changeTemplate.canonical
  contentHash := s.contentHash

theorem getD_canonical (value : Option Json) {default : Json}
    (h : default.canonical = default) :
    (value.map Json.canonical).getD default = (value.getD default).canonical := by
  cases value with
  | none => exact h.symm
  | some v => rfl

/-- A class that is read of a mapping with its keys in order. -/
theorem ofDict_canonical {α : Type} {read : (String → Option Json) → α} {canonical : α → α}
    (hread : ∀ get : String → Option Json,
      read (fun k => (get k).map Json.canonical) = canonical (read get))
    {number : Json → Prop} {v : Json} (hv : Proper number v) :
    ofDict read v.canonical = (ofDict read v).map canonical := by
  unfold ofDict
  rw [isObj_canonical]
  split
  · have hget : (v.canonical.get? ·) = fun k => (v.get? k).map Json.canonical :=
      funext fun k => get?_canonical hv k
    rw [hget, hread]
    rfl
  · rfl

theorem SOPStep.fromDict_canonical {number : Json → Prop} {v : Json} (hv : Proper number v) :
    SOPStep.fromDict v.canonical = (SOPStep.fromDict v).map SOPStep.canonical := by
  refine ofDict_canonical (fun get => ?_) hv
  unfold SOPStep.read SOPStep.canonical
  simp only [orElse_canonical]
  congr 1 <;> first
    | exact getD_canonical _ rfl
    | exact congrArg (Json.orElse · _) (getD_canonical _ rfl)

theorem ParameterSpec.fromDict_canonical {number : Json → Prop} {v : Json}
    (hv : Proper number v) :
    ParameterSpec.fromDict v.canonical = (ParameterSpec.fromDict v).map ParameterSpec.canonical := by
  refine ofDict_canonical (fun get => ?_) hv
  unfold ParameterSpec.read ParameterSpec.canonical
  congr 1 <;> exact getD_canonical _ rfl

theorem EscalationCriteria.fromDict_canonical {number : Json → Prop} {v : Json}
    (hv : Proper number v) : EscalationCriteria.fromDict v.canonical =
      (EscalationCriteria.fromDict v).map EscalationCriteria.canonical := by
  refine ofDict_canonical (fun get => ?_) hv
  unfold EscalationCriteria.read EscalationCriteria.canonical
  congr 1 <;> exact getD_canonical _ rfl

theorem itemsOf_texts {α : Type} {fromDict : Json → Except String α}
    (htext : ∀ t, fromDict (.str t) = .error "AttributeError") (texts : List String) :
    (texts.map Json.str).mapM fromDict = if texts = [] then .ok [] else .error "AttributeError" := by
  cases texts with
  | nil => rfl
  | cons t texts =>
    rw [List.map_cons, List.mapM_cons, htext]
    rfl

/-- The items of a list whose keys are in order. -/
theorem itemsOf_canonical {α : Type} {fromDict : Json → Except String α} {canonical : α → α}
    {number : Json → Prop}
    (hitem : ∀ w, Proper number w → fromDict w.canonical = (fromDict w).map canonical)
    (htext : ∀ t, fromDict (.str t) = .error "AttributeError") {v : Json} (hv : Proper number v) :
    itemsOf fromDict v.canonical = (itemsOf fromDict v).map (List.map canonical) := by
  have htexts : ∀ texts : List String, (texts.map Json.str).mapM fromDict =
      ((texts.map Json.str).mapM fromDict).map (List.map canonical) := by
    intro texts
    rw [itemsOf_texts htext]
    split <;> rfl
  cases v with
  | arr items =>
    rw [Json.canonical]
    show (canonicalItems items).mapM fromDict = (items.mapM fromDict).map _
    have hitems : ProperItems number items := hv
    clear hv
    induction items with
    | nil => rfl
    | cons w items ih =>
      rw [canonicalItems, List.mapM_cons, List.mapM_cons, hitem w hitems.1, ih hitems.2]
      cases fromDict w with
      | error e => rfl
      | ok a => cases items.mapM fromDict <;> rfl
  | obj fields =>
    rw [Json.canonical]
    have hkeys : ∀ gs : List (String × Json),
        gs.map (fun f => Json.str f.1) = (gs.map Prod.fst).map Json.str := by simp
    show ((canonicalFields fields).map fun f => Json.str f.1).mapM fromDict =
      ((fields.map fun f => Json.str f.1).mapM fromDict).map _
    have hlength := (canonicalFields_perm fields).length_eq
    rw [hkeys, hkeys, ← htexts, itemsOf_texts htext, itemsOf_texts htext]
    rw [List.length_map] at hlength
    have hempty : (canonicalFields fields).map Prod.fst = [] ↔ fields.map Prod.fst = [] := by
      rw [List.map_eq_nil_iff, List.map_eq_nil_iff, ← List.length_eq_zero_iff, hlength,
        List.length_eq_zero_iff]
    simp only [hempty]
  | str t =>
    have hchars : (t.toList.map fun c => Json.str (String.singleton c)) =
        (t.toList.map String.singleton).map Json.str := by simp
    show (t.toList.map fun c => Json.str (String.singleton c)).mapM fromDict =
      ((t.toList.map fun c => Json.str (String.singleton c)).mapM fromDict).map _
    rw [hchars]
    exact htexts _
  | null | bool _ | int _ | float _ => rfl

/-- **An SOP that is read of a content with its keys in order.** -/
theorem SOP.fromDict_canonical {number : Json → Prop} {v : Json} (hv : Proper number v) :
    SOP.fromDict v.canonical = (SOP.fromDict v).map SOP.canonical := by
  unfold SOP.fromDict
  rw [isObj_canonical]
  split
  · have hget : (v.canonical.get? ·) = fun k => (v.get? k).map Json.canonical :=
      funext fun k => get?_canonical hv k
    have hproper : ∀ k {default : Json}, Proper number default →
        Proper number ((v.get? k).getD default) := by
      intro k default hdefault
      cases hw : v.get? k with
      | none => exact hdefault
      | some w => exact proper_get? hv hw
    rw [hget]
    unfold SOP.read
    rw [@getD_canonical (v.get? "steps") (.arr []) rfl,
      @getD_canonical (v.get? "escalation_criteria") (.obj []) rfl,
      @getD_canonical (v.get? "parameters") (.arr []) rfl,
      itemsOf_canonical (fun w => SOPStep.fromDict_canonical) (fun _ => rfl)
        (@hproper "steps" (.arr []) trivial),
      EscalationCriteria.fromDict_canonical (@hproper "escalation_criteria" (.obj []) ⟨.nil, trivial⟩),
      itemsOf_canonical (fun w => ParameterSpec.fromDict_canonical) (fun _ => rfl)
        (@hproper "parameters" (.arr []) trivial)]
    cases itemsOf SOPStep.fromDict ((v.get? "steps").getD (.arr [])) with
    | error e => rfl
    | ok steps =>
      cases EscalationCriteria.fromDict ((v.get? "escalation_criteria").getD (.obj [])) with
      | error e => rfl
      | ok criteria =>
        cases itemsOf ParameterSpec.fromDict ((v.get? "parameters").getD (.arr [])) with
        | error e => rfl
        | ok parameters =>
          refine congrArg Except.ok ?_
          unfold SOP.canonical
          simp only [orElse_canonical]
          congr 1 <;> first
            | rfl
            | exact getD_canonical _ rfl
            | exact congrArg (Json.orElse · _) (getD_canonical _ rfl)
  · rfl

/-- **What has been approved is what runs.**  A content that `normalise` accepts is written so
that it is not changed again; the SOP that is read of it says no more and no less; and a content
with the same hash is of the same SOP, up to the order of keys. -/
theorem normalised_runs (builtins : Builtins) (content data : Json)
    (h : normalise builtins content = .ok data) :
    normalise builtins data = .ok data ∧
      (∀ version digest, ∃ sop, asSop builtins data version digest = .ok sop ∧
        .obj (pop "version" (pop "status" (fieldsOf sop.toDict))) = data) ∧
      ∀ tools : Audit.Tools, tools.numbers.Faithful → Function.Injective tools.sha256 →
        ∀ content' data', normalise builtins content' = .ok data' →
          Proper tools.numbers.has data → Proper tools.numbers.has data' →
          contentHash tools data = contentHash tools data' → ∀ version digest,
            (asSop builtins data version digest).map SOP.canonical =
              (asSop builtins data' version digest).map SOP.canonical := by
  obtain ⟨s, -, rfl, hkey⟩ := normalise_ok h
  refine ⟨normalise_stored hkey, fun version digest => ?_, ?_⟩
  · rw [asSop_eq, s.fromDict_stored]
    refine ⟨_, rfl, ?_⟩
    rw [SOP.pop_toDict]
    exact congrArg Json.obj s.stored_settled
  · intro tools hnumbers hsha content' data' h' hproper hproper' hhash version digest
    obtain ⟨s', -, rfl, -⟩ := normalise_ok h'
    have hsame := (Audit.digest_eq_iff hnumbers hsha hproper hproper').mp hhash
    have hcanonical := (Json.canonical_eq_iff hproper hproper').mpr hsame
    have hread := SOP.fromDict_canonical hproper
    rw [hcanonical, SOP.fromDict_canonical hproper', s.fromDict_stored, s'.fromDict_stored] at hread
    have hsop := Except.ok.inj hread
    rw [asSop_eq, asSop_eq, s.fromDict_stored, s'.fromDict_stored]
    refine congrArg Except.ok ?_
    -- the lifecycle's fields are the same for both
    exact (congrArg (fun sop : SOP => { sop with
      status := .str "published"
      version := .str (builtins.str (version.orElse (.str "")))
      contentHash := digest }) hsop).symm

/-- A content with a write, and with fields that are not kept. -/
def sampleContent : Json :=
  .obj [("sop_id", .str "SOP-1"), ("status", .str "draft"), ("owner", .str "ann"),
    ("steps", .arr [.obj [("step_id", .str "s1"), ("step_type", .str "ACTION"),
      ("capability", .str "mail.send"), ("verify", .null)]]),
    ("change_template", .str "T1")]

theorem normalised_runs_sample :
    ∃ data, normalise Audit.plainTools.builtins sampleContent = .ok data ∧
      (normalise Audit.plainTools.builtins data = .ok data ∧
        (∀ version digest, ∃ sop,
          asSop Audit.plainTools.builtins data version digest = .ok sop ∧
            .obj (pop "version" (pop "status" (fieldsOf sop.toDict))) = data) ∧
        ∀ tools : Audit.Tools, tools.numbers.Faithful → Function.Injective tools.sha256 →
          ∀ content' data', normalise Audit.plainTools.builtins content' = .ok data' →
            Proper tools.numbers.has data → Proper tools.numbers.has data' →
            contentHash tools data = contentHash tools data' → ∀ version digest,
              (asSop Audit.plainTools.builtins data version digest).map SOP.canonical =
                (asSop Audit.plainTools.builtins data' version digest).map SOP.canonical) := by
  have haccepted : (normalise Audit.plainTools.builtins sampleContent).toOption.isSome = true := by
    decide +kernel
  cases hdata : normalise Audit.plainTools.builtins sampleContent with
  | error e =>
    rw [hdata] at haccepted
    cases haccepted
  | ok data =>
    exact ⟨data, rfl, normalised_runs Audit.plainTools.builtins sampleContent data hdata⟩

/-! ## The engine's own records

The engine's model of an SOP has the types that the validator sees to.  What `as_sop` makes of such
a content is the record that the store's model gives to the engine.
-/

def ofStep (s : L1Agent.SOPStep) : SOPStep where
  stepId := .str s.stepId
  stepType := .str s.stepType
  description := .str s.description
  parameters := s.parameters
  expectedOutput := .str s.expectedOutput
  onSuccess := .str s.onSuccess
  onFailure := .str s.onFailure
  requiresApproval := .bool s.requiresApproval
  timeoutSeconds := .int s.timeoutSeconds
  capability := .str s.capability
  verify := s.verify

def ofSpec (p : L1Agent.ParameterSpec) : ParameterSpec where
  name := .str p.name
  type := .str p.type
  source := p.source
  pattern := .str p.pattern
  enum := .arr p.enum
  maxLength := .int p.maxLength
  description := .str ""

/-- The record with the fields that no run reads. -/
def ofSop (sop : L1Agent.SOP) (rest : Json) : SOP where
  sopId := .str sop.sopId
  title := .str sop.title
  applicableServices := rest.getD "applicable_services" (.arr [])
  applicableCategories := rest.getD "applicable_categories" (.arr [])
  applicableAssignmentGroups := rest.getD "applicable_assignment_groups" (.arr [])
  keywords := rest.getD "keywords" (.arr [])
  steps := sop.steps.map ofStep
  preChecks := rest.getD "pre_checks" (.arr [])
  toolsRequired := rest.getD "tools_required" (.arr [])
  escalationCriteria := .read (rest.getD "escalation_criteria" (.obj [])).get?
  version := .str sop.version
  parameters := sop.parameters.map ofSpec
  status := .str sop.status
  changeTemplate := .str sop.changeTemplate
  contentHash := sop.contentHash

theorem orElse_text (t : String) : (Json.str t).orElse (.str "") = .str t := by
  unfold Json.orElse
  by_cases ht : t = ""
  · subst ht
    rfl
  · rw [if_pos (by simpa [Json.truthy] using ht)]

/-- **What runs of a typed content** is what the store's model says. -/
theorem asSop_ofSop (builtins : Builtins) (hint : ∀ n : Nat, builtins.str (.int n) = toString n)
    (content : SopContent) (version : Option Nat) (digest : String)
    (hverify : ∀ s ∈ content.sop.steps, s.verify.orElse (.obj []) = s.verify) :
    asSop builtins (.obj (ofSop content.sop content.rest).stored)
      (version.elim .null fun n => .int n) digest =
        .ok (ofSop (L1Agent.asSop content version digest) content.rest) := by
  have hversion : builtins.str ((version.elim Json.null fun n => .int n).orElse (.str "")) =
      (version.filter (· ≠ 0)).elim "" toString := by
    cases version with
    | none => rfl
    | some n =>
      by_cases hn : n = 0
      · subst hn
        rfl
      · have htruthy : (Json.int n).truthy = true := by simpa [Json.truthy] using hn
        show builtins.str ((Json.int n).orElse (.str "")) = _
        rw [orElse_pos htruthy, hint]
        simp [Option.filter, hn]
  have hsteps : (content.sop.steps.map ofStep).map SOPStep.settled = content.sop.steps.map ofStep := by
    rw [List.map_map]
    refine List.map_congr_left fun s hs => ?_
    unfold Function.comp SOPStep.settled ofStep
    dsimp only
    rw [orElse_text, hverify s hs]
  rw [asSop_eq, SOP.fromDict_stored, hversion]
  refine congrArg Except.ok ?_
  unfold SOP.settled ofSop
  dsimp only
  rw [hsteps, orElse_text]
  rfl

end Raw
end L1Agent
