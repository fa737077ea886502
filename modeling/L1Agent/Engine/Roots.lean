import L1Agent.Connectors.Lint
import L1Agent.Engine.Comparisons
import L1Agent.Sop.Validator

/-! # What an expression depends on

`root_names` collects the first segment of every path, and evaluation reads nothing else of its
context.  The collector goes through the whole tree where evaluation may stop early; so the names it
gives are enough, and a context that has them all is never found without a first segment.

`eval_frame` is the frame property and `elsewhere_eval` the other half; `evaluate_reads_roots` has
both for the text of an expression, with the error where the roots cannot be told, and the
validator's check, which refuses every name that it does not know.
-/
namespace L1Agent
namespace Expressions
open Sdk (Tools roots rootNames)

/-! ## The frame -/

variable {fields fields' : List (String × Json)}

/-- **Evaluation reads the roots only.** -/
theorem eval_frame {tree : Expr Rat}
    (h : ∀ name ∈ roots tree, fields.lookup name = fields'.lookup name) :
    eval (.obj fields) tree = eval (.obj fields') tree := by
  induction tree with
  | scalar v => rfl
  | list items => rfl
  | path root keys =>
    have hroot := h root (List.mem_singleton_self root)
    simp only [eval, resolve, child, hroot]
  | not a iha =>
    simp only [eval, iha h]
  | and a b iha ihb =>
    have ha := iha fun name hname => h name (List.mem_append_left _ hname)
    have hb := ihb fun name hname => h name (List.mem_append_right _ hname)
    simp only [eval, ha, hb]
  | or a b iha ihb =>
    have ha := iha fun name hname => h name (List.mem_append_left _ hname)
    have hb := ihb fun name hname => h name (List.mem_append_right _ hname)
    simp only [eval, ha, hb]
  | cmp op a b iha ihb =>
    have ha := iha fun name hname => h name (List.mem_append_left _ hname)
    have hb := ihb fun name hname => h name (List.mem_append_right _ hname)
    simp only [eval, ha, hb]

/-! ## A first segment that is missing -/

/-- What is raised for a path whose first segment is not in the context. -/
def missing (name : String) : Exn := .expression s!"'{name}' is not present"

/-- The exception is not about a first segment, which has no dot in it. -/
def Elsewhere (e : Exn) : Prop := ∀ name : String, '.' ∉ name.toList → e ≠ missing name

/-- A message that does not begin with a quotation mark. -/
theorem elsewhere_of_head {message : String} (h : message.toList.head? ≠ some '\'') :
    Elsewhere (.expression message) := by
  intro name _ heq
  have hmessage := Exn.expression.inj heq
  rw [hmessage] at h
  refine h ?_
  rw [String.toList_append, String.toList_append]
  rfl

/-- The text of several segments has a dot. -/
theorem dot_mem_walkedText (first second : Key) (rest : List Key) :
    '.' ∈ (walkedText (first :: second :: rest)).toList := by
  unfold walkedText
  rw [List.map_cons, List.map_cons, String.intercalate_cons_cons, String.toList_append,
    String.toList_append]
  refine List.mem_append_left _ (List.mem_append_right _ ?_)
  decide

theorem elsewhere_not_present {walked : List Key} (h : '.' ∈ (walkedText walked).toList) :
    Elsewhere (.expression s!"'{walkedText walked}' is not present") := by
  intro name hname heq
  have htext := congrArg String.toList (Exn.expression.inj heq)
  simp only [String.toList_append, toString] at htext
  have hsame := List.append_cancel_left (List.append_cancel_right htext)
  exact hname (hsame ▸ h)

theorem elsewhere_child {first second : Key} {rest : List Key} {current : Json} {part : Key}
    {e : Exn} (h : child (first :: second :: rest) current part = .error e) : Elsewhere e := by
  have hdot := elsewhere_not_present (dot_mem_walkedText first second rest)
  unfold child at h
  split at h
  · split at h
    · cases h
    · cases h
      exact hdot
  · cases h
    exact hdot
  · dsimp only at h
    split at h
    · cases h
    · cases h
      refine elsewhere_of_head ?_
      simp [String.toList_append, toString]
  · cases h
    refine elsewhere_of_head ?_
    simp [String.toList_append, toString]

/-- Behind the first segment another one is missing. -/
theorem elsewhere_resolve {walked : List Key} {current : Json} {keys : List Key} {e : Exn}
    (hwalked : walked ≠ []) (h : resolve walked current keys = .error e) : Elsewhere e := by
  induction keys generalizing walked current with
  | nil => cases h
  | cons part keys ih =>
    obtain ⟨first, rest, rfl⟩ := List.exists_cons_of_ne_nil hwalked
    rcases bind_error h with hchild | ⟨next, -, h⟩
    · rcases rest with _ | ⟨second, rest⟩
      · exact elsewhere_child hchild
      · exact elsewhere_child hchild
    · exact ih (by simp) h

theorem elsewhere_asBool {value : Json} {what : String} {c : Char} {e : Exn}
    (hwhat : what.toList.head? = some c) (hc : c ≠ '\'') (h : asBool value what = .error e) :
    Elsewhere e := by
  unfold asBool at h
  split at h
  · cases h
  · cases h
    obtain ⟨rest, hrest⟩ := List.head?_eq_some_iff.mp hwhat
    refine elsewhere_of_head ?_
    simp [String.toList_append, toString, hrest, hc]

theorem elsewhere_contains {left right : Json} {e : Exn} (h : contains left right = .error e) :
    Elsewhere e := by
  unfold contains at h
  split at h
  · cases h
  · split at h
    · cases h
    · cases h
      exact elsewhere_of_head (by decide)
  · cases h
    exact elsewhere_of_head (by decide)

theorem elsewhere_equals {left right : Json} {e : Exn} (h : equals left right = .error e) :
    Elsewhere e := by
  unfold equals at h
  split at h
  · cases h
  · cases h
    refine elsewhere_of_head ?_
    simp [String.toList_append, toString]

theorem elsewhere_compareValues {op : Comparison} {left right : Json} {e : Exn}
    (h : compareValues op left right = .error e) : Elsewhere e := by
  unfold compareValues at h
  split at h
  · exact elsewhere_contains h
  · exact elsewhere_contains (map_not_error h)
  · exact elsewhere_equals h
  · exact elsewhere_equals (map_not_error h)
  · unfold orders at h
    split at h
    · cases h
    · split at h
      · cases h
      · cases h
        refine elsewhere_of_head ?_
        simp [String.toList_append, toString]

/-- **Where the roots are there**, no first segment is missing. -/
theorem elsewhere_eval {tree : Expr Rat} (hroots : ∀ name ∈ roots tree, name ∈ fields.map (·.1))
    {e : Exn} (h : eval (.obj fields) tree = .error e) : Elsewhere e := by
  induction tree generalizing e with
  | scalar v => cases h
  | list items => cases h
  | path root keys =>
    rcases bind_error h with hchild | ⟨next, -, h⟩
    · obtain ⟨p, hp, hname⟩ := List.mem_map.mp (hroots root (List.mem_singleton_self root))
      unfold child at hchild
      cases hlookup : fields.lookup root with
      | some value =>
        simp only [hlookup] at hchild
        cases hchild
      | none =>
        have hne := List.lookup_eq_none_iff.mp hlookup p hp
        simp [hname] at hne
    · exact elsewhere_resolve (by simp) h
  | not a iha =>
    rcases bind_error h with ha | ⟨value, -, h⟩
    · exact iha hroots ha
    rcases bind_error h with hbool | ⟨b, -, h⟩
    · exact elsewhere_asBool rfl (by decide) hbool
    · cases h
  | and a b iha ihb =>
    have hleft := fun name hname => hroots name (List.mem_append_left _ hname)
    have hright := fun name hname => hroots name (List.mem_append_right _ hname)
    rcases bind_error h with ha | ⟨value, -, h⟩
    · exact iha hleft ha
    rcases bind_error h with hbool | ⟨p, -, h⟩
    · exact elsewhere_asBool rfl (by decide) hbool
    cases p with
    | false => cases h
    | true =>
      rcases bind_error h with hb | ⟨value', -, h⟩
      · exact ihb hright hb
      rcases bind_error h with hbool | ⟨q, -, h⟩
      · exact elsewhere_asBool rfl (by decide) hbool
      · cases h
  | or a b iha ihb =>
    have hleft := fun name hname => hroots name (List.mem_append_left _ hname)
    have hright := fun name hname => hroots name (List.mem_append_right _ hname)
    rcases bind_error h with ha | ⟨value, -, h⟩
    · exact iha hleft ha
    rcases bind_error h with hbool | ⟨p, -, h⟩
    · exact elsewhere_asBool rfl (by decide) hbool
    cases p with
    | true => cases h
    | false =>
      rcases bind_error h with hb | ⟨value', -, h⟩
      · exact ihb hright hb
      rcases bind_error h with hbool | ⟨q, -, h⟩
      · exact elsewhere_asBool rfl (by decide) hbool
      · cases h
  | cmp op a b iha ihb =>
    have hleft := fun name hname => hroots name (List.mem_append_left _ hname)
    have hright := fun name hname => hroots name (List.mem_append_right _ hname)
    rcases bind_error h with ha | ⟨value, -, h⟩
    · exact iha hleft ha
    rcases bind_error h with hb | ⟨value', -, h⟩
    · exact ihb hright hb
    rcases bind_error h with hcmp | ⟨p, -, h⟩
    · exact elsewhere_compareValues hcmp
    · cases h

/-! ## The names that the validator checks -/

variable (tools : Tools)

/-- `expressions.root_names` as the validator calls it: an ExpressionError is a text. -/
def checkedNames (text : String) : Except String (List String) :=
  (rootNames tools text).mapError Exn.message

/-- The roots of a text are those of the tree that is evaluated. -/
theorem rootNames_ok {text : String} {names : List String} (h : rootNames tools text = .ok names) :
    ∃ tree, parse tools.reader (.str text) = .ok tree ∧ roots tree = names := by
  unfold rootNames at h
  match hparse : parse tools.reader (.str text) with
  | .ok tree =>
    rw [hparse] at h
    exact ⟨tree, rfl, Except.ok.inj h⟩
  | .error e =>
    rw [hparse] at h
    cases h

/-- An expression without problems uses allowed names only. -/
theorem names_of_no_problems {cat : Catalog} (hcat : cat.rootNames = checkedNames tools)
    {label text : String} {allowed : List String}
    (h : expressionProblems cat label (.str text) allowed = []) :
    ∃ names, rootNames tools text = .ok names ∧ ∀ name ∈ names, name ∈ allowed := by
  unfold expressionProblems at h
  rw [hcat] at h
  dsimp only [checkedNames] at h
  cases hnames : rootNames tools text with
  | error e =>
    rw [hnames] at h
    cases h
  | ok names =>
    rw [hnames] at h
    refine ⟨names, rfl, fun name hname => ?_⟩
    by_contra hout
    have hmem : name ∈ names.filter fun n => n ∉ allowed :=
      List.mem_filter.mpr ⟨hname, by simpa using hout⟩
    have hnil : (names.filter fun n => n ∉ allowed) = [] := List.map_eq_nil_iff.mp h
    rw [hnil] at hmem
    cases hmem

/-- **An expression reads only its declared roots.**  Where they cannot be told the evaluation ends
with the same error in every context.  Where they can, two contexts that agree on them give the
same result or error, and in a context that has them all no first segment is missing.  The names
that the validator allows cover them. -/
theorem evaluate_reads_roots (text : String) :
    (∀ e, rootNames tools text = .error e →
      ∀ context, evaluate tools.reader (.str text) context = .error e) ∧
      (∀ names, rootNames tools text = .ok names →
        (∀ fields fields' : List (String × Json),
          (∀ name ∈ names, fields.lookup name = fields'.lookup name) →
            evaluate tools.reader (.str text) (.obj fields) =
              evaluate tools.reader (.str text) (.obj fields')) ∧
          ∀ fields : List (String × Json), (∀ name ∈ names, name ∈ fields.map (·.1)) →
            ∀ name : String, '.' ∉ name.toList →
              evaluate tools.reader (.str text) (.obj fields) ≠ .error (missing name)) ∧
        ∀ (cat : Catalog) (label : String) (allowed : List String),
          cat.rootNames = checkedNames tools →
            expressionProblems cat label (.str text) allowed = [] →
              ∃ names, rootNames tools text = .ok names ∧ ∀ name ∈ names, name ∈ allowed := by
  refine ⟨fun e h context => ?_, fun names h => ?_, fun cat label allowed hcat hnone => ?_⟩
  · unfold evaluate
    unfold rootNames at h
    match hparse : parse tools.reader (.str text) with
    | .error x =>
      rw [hparse] at h
      cases h
      rfl
    | .ok tree =>
      rw [hparse] at h
      cases h
  · obtain ⟨tree, htree, rfl⟩ := rootNames_ok tools h
    refine ⟨fun fields fields' hagree => ?_, fun fields hroots name hname heq => ?_⟩
    · unfold evaluate
      rw [htree]
      show (eval (.obj fields) tree >>= _) = (eval (.obj fields') tree >>= _)
      rw [eval_frame hagree]
    · have helse : Elsewhere (missing name) := by
        rcases bind_error heq with hparse | ⟨tree', htree', heq⟩
        · rw [htree] at hparse
          cases hparse
        obtain rfl : tree = tree' := Except.ok.inj (htree.symm.trans htree')
        rcases bind_error heq with heval | ⟨value, -, hbool⟩
        · exact elsewhere_eval hroots heval
        · exact elsewhere_asBool rfl (by decide) hbool
      exact helse name hname rfl
  · exact names_of_no_problems tools hcat hnone

end Expressions
end L1Agent
