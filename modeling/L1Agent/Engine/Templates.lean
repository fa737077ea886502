import L1Agent.Connectors.Lint
import L1Agent.Engine.Binding
import L1Agent.Engine.Rendering
import L1Agent.Library.Scanning

/-! # What a template renders to

A template's text is cut once into characters and placeholders (`Cut Hole`), and the rendered text
is put together from these pieces.  `placeholders_in` collects the same placeholders, so a template
renders where all of them are bound.

What a template stands for is a relation of its own (`Rendered`), which the renderer computes
(`render_iff`), and which there is exactly where every placeholder is bound (`rendered_iff`).
`render_exact` adds the SOPs: the steps of one without problems render with the values that were
bound to its parameters, since `_bind` gives a value for every declared name (`bindAll_bound`).
-/
namespace L1Agent
namespace Rendering
open Parameters Scanning Interleaving

/-- A name: `[A-Za-z_][A-Za-z0-9_]*`. -/
def Identifier : List Char → Prop
  | [] => False
  | c :: rest => (c.isAlpha || c == '_') = true ∧ ∀ d ∈ rest, isWordChar d = true

/-- `${name}` -/
def hole (name : List Char) : List Char := '$' :: '{' :: (name ++ ['}'])

/-- The text is the placeholder of the name. -/
def Hole (u name : List Char) : Prop := Identifier name ∧ u = hole name

theorem hole_length (name : List Char) : (hole name).length = width name := by
  unfold hole width
  rw [List.length_cons, List.length_cons, List.length_append, List.length_singleton]

/-- The name ends where no further character can belong to it. -/
theorem word_span {word rest : List Char} (h : ∀ d ∈ word, isWordChar d = true) :
    (word ++ '}' :: rest).takeWhile isWordChar = word ∧
      (word ++ '}' :: rest).dropWhile isWordChar = '}' :: rest := by
  have hbrace : isWordChar '}' = false := by decide
  refine ⟨?_, ?_⟩
  · rw [List.takeWhile_append_of_pos h, List.takeWhile_cons_of_neg (by rw [hbrace]; decide),
      List.append_nil]
  · rw [List.dropWhile_append_of_pos h, List.dropWhile_cons_of_neg (by rw [hbrace]; decide)]

/-- **The placeholder that a text begins with.** -/
theorem placeholder?_iff {text name : List Char} :
    placeholder? text = some name ↔ Identifier name ∧ hole name <+: text := by
  constructor
  · intro h
    unfold placeholder? at h
    split at h
    · rename_i c rest
      split at h
      · rename_i hcond
        obtain ⟨hfirst, hclosed⟩ := Bool.and_eq_true_iff.mp hcond
        cases h
        have hclosed : (rest.dropWhile isWordChar).head? = some '}' := of_decide_eq_true hclosed
        obtain ⟨tail, htail⟩ : ∃ tail, rest.dropWhile isWordChar = '}' :: tail := by
          match hdrop : rest.dropWhile isWordChar with
          | [] =>
            rw [hdrop] at hclosed
            cases hclosed
          | d :: tail =>
            rw [hdrop] at hclosed
            cases hclosed
            exact ⟨tail, rfl⟩
        refine ⟨⟨hfirst, fun d hd => List.mem_takeWhile_imp hd⟩, tail, ?_⟩
        have hrest : rest.takeWhile isWordChar ++ '}' :: tail = rest := by
          rw [← htail, List.takeWhile_append_dropWhile]
        show '$' :: '{' :: ((c :: rest.takeWhile isWordChar ++ ['}']) ++ tail) = _
        rw [List.cons_append, List.cons_append, List.append_assoc]
        show '$' :: '{' :: c :: (rest.takeWhile isWordChar ++ '}' :: tail) = _
        rw [hrest]
      · cases h
    · cases h
  · rintro ⟨hname, tail, rfl⟩
    match name, hname with
    | c :: word, ⟨hfirst, hword⟩ =>
      have hshape : hole (c :: word) ++ tail = '$' :: '{' :: c :: (word ++ '}' :: tail) := by
        unfold hole
        simp
      obtain ⟨htake, hdrop⟩ := @word_span word tail hword
      rw [hshape, placeholder?, hdrop, htake, hfirst]
      rfl

/-- The token that the scan looks for. -/
def token? (text : List Char) : Option (List Char × Nat) :=
  (placeholder? text).map fun name => (name, width name)

theorem recognises : Recognises Hole token? where
  found := by
    intro text name n
    unfold token?
    rw [Option.map_eq_some_iff]
    constructor
    · rintro ⟨name', h, heq⟩
      cases heq
      obtain ⟨hname, hbegins⟩ := placeholder?_iff.mp h
      exact ⟨hole name, ⟨hname, rfl⟩, hole_length name, hbegins⟩
    · rintro ⟨u, ⟨hname, rfl⟩, hn, hbegins⟩
      refine ⟨name, placeholder?_iff.mpr ⟨hname, hbegins⟩, ?_⟩
      rw [← hn, hole_length]
  solid := by
    rintro u name ⟨-, rfl⟩
    exact List.cons_ne_nil _ _

/-- A text that is one placeholder and nothing else. -/
theorem whole?_iff {text name : List Char} : whole? text = some name ↔ Hole text name := by
  unfold whole?
  rw [Option.filter_eq_some_iff, placeholder?_iff]
  constructor
  · rintro ⟨⟨hname, hbegins⟩, hlength⟩
    refine ⟨hname, (hbegins.eq_of_length ?_).symm⟩
    rw [hole_length]
    exact (of_decide_eq_true hlength).symm
  · rintro ⟨hname, rfl⟩
    exact ⟨⟨hname, List.prefix_rfl⟩, decide_eq_true (hole_length name)⟩

/-! ## The collector and the two ways to replace -/

section
variable {builtins : Builtins} {values : List (String × Json)}

/-- The name is bound to a value. -/
def IsBound (values : List (String × Json)) (name : String) : Prop :=
  ∃ v, values.lookup name = some v

theorem findAll_skip (skip : Nat) (text : List Char) :
    findAll skip text = findAll 0 (text.drop skip) := by
  induction text generalizing skip with
  | nil => rw [List.drop_nil, findAll, findAll]
  | cons c rest ih =>
    match skip with
    | 0 => rfl
    | skip + 1 =>
      rw [findAll, List.drop_succ_cons]
      exact ih skip

theorem substitute_skip (skip : Nat) (text : List Char) :
    substitute builtins values skip text = substitute builtins values 0 (text.drop skip) := by
  induction text generalizing skip with
  | nil => rw [List.drop_nil, substitute, substitute]
  | cons c rest ih =>
    match skip with
    | 0 => rfl
    | skip + 1 =>
      rw [substitute, List.drop_succ_cons]
      exact ih skip

/-- What stands behind a placeholder. -/
theorem drop_hole (name rest : List Char) :
    (('{' :: (name ++ ['}'])) ++ rest).drop (width name - 1) = rest := by
  have hlen : width name - 1 = ('{' :: (name ++ ['}'])).length := by
    rw [← hole_length, hole, List.length_cons]
    rfl
  rw [hlen, List.drop_left]

theorem placeholder?_hole {name : List Char} (hname : Identifier name) (rest : List Char) :
    placeholder? ('$' :: (('{' :: (name ++ ['}'])) ++ rest)) = some name :=
  placeholder?_iff.mpr ⟨hname, rest, rfl⟩

theorem placeholder?_none {text : List Char} (h : ¬Begins Hole text) :
    placeholder? text = none := by
  match hfound : placeholder? text with
  | none => rfl
  | some name =>
    obtain ⟨hname, hbegins⟩ := placeholder?_iff.mp hfound
    exact absurd ⟨hole name, name, ⟨hname, rfl⟩, hbegins⟩ h

theorem findAll_hole {name : List Char} (hname : Identifier name) (rest : List Char) :
    findAll 0 (hole name ++ rest) = String.ofList name :: findAll 0 rest := by
  show findAll 0 ('$' :: (('{' :: (name ++ ['}'])) ++ rest)) = _
  rw [findAll, placeholder?_hole hname]
  show String.ofList name :: findAll (width name - 1) _ = _
  rw [findAll_skip, drop_hole]

theorem substitute_hole {name : List Char} (hname : Identifier name) (rest : List Char) :
    substitute builtins values 0 (hole name ++ rest) =
      (lookup values name >>= fun v =>
        substitute builtins values 0 rest >>= fun more =>
          pure ((builtins.str v).toList ++ more)) := by
  show substitute builtins values 0 ('$' :: (('{' :: (name ++ ['}'])) ++ rest)) = _
  rw [substitute, placeholder?_hole hname]
  show (lookup values name >>= fun v =>
    substitute builtins values (width name - 1) _ >>= fun more => _) = _
  rw [substitute_skip, drop_hole]

theorem substitute_plain {c : Char} {rest : List Char} (h : ¬Begins Hole (c :: rest)) :
    substitute builtins values 0 (c :: rest) =
      (substitute builtins values 0 rest >>= fun more => pure (c :: more)) := by
  rw [substitute, placeholder?_none h]

/-- The collector finds the placeholders that the text is cut into. -/
theorem findAll_cut {text : List Char} {ps : List (Piece Char (List Char))}
    (hcut : Cut Hole text ps) : findAll 0 text = (tokens ps).map String.ofList := by
  induction hcut with
  | nil => rfl
  | plain hnone _ ih => rw [findAll, placeholder?_none hnone, tokens, ← ih]
  | token htoken _ ih =>
    obtain ⟨hname, rfl⟩ := htoken
    rw [findAll_hole hname, tokens, List.map_cons, ih]

/-- The text of the value that is bound. -/
def valueText (builtins : Builtins) (values : List (String × Json)) (name : List Char) :
    List Char :=
  match values.lookup (String.ofList name) with
  | some v => (builtins.str v).toList
  | none => []

theorem valueText_of {name : List Char} {v : Json}
    (hv : values.lookup (String.ofList name) = some v) :
    valueText builtins values name = (builtins.str v).toList := by
  rw [valueText, hv]

theorem lookup_ok {name : List Char} {v : Json} :
    lookup values name = .ok v ↔ values.lookup (String.ofList name) = some v := by
  unfold lookup
  match values.lookup (String.ofList name) with
  | none => exact ⟨fun h => (nomatch h), fun h => (nomatch h)⟩
  | some v' =>
    exact ⟨fun h => congrArg some (Except.ok.inj h), fun h => congrArg _ (Option.some.inj h)⟩

/-- **Every placeholder is replaced at once**: the text that a value brings is no part of what is
scanned. -/
theorem substitute_cut {text : List Char} {ps : List (Piece Char (List Char))}
    (hcut : Cut Hole text ps) {out : List Char} :
    substitute builtins values 0 text = .ok out ↔
      (∀ name ∈ tokens ps, IsBound values (String.ofList name)) ∧
        out = replaced (valueText builtins values) ps := by
  induction hcut generalizing out with
  | nil =>
    rw [substitute, tokens, replaced]
    constructor
    · intro h
      exact ⟨fun name hname => absurd hname List.not_mem_nil, (Except.ok.inj h).symm⟩
    · rintro ⟨-, rfl⟩
      rfl
  | plain hnone _ ih =>
    rw [substitute_plain hnone, tokens, replaced]
    constructor
    · intro h
      obtain ⟨more, hmore, hout⟩ := Executor.bind_eq_ok h
      obtain ⟨hbound, rfl⟩ := ih.mp hmore
      exact ⟨hbound, (Except.ok.inj hout).symm⟩
    · rintro ⟨hbound, rfl⟩
      rw [ih.mpr ⟨hbound, rfl⟩]
      rfl
  | token htoken _ ih =>
    obtain ⟨hname, rfl⟩ := htoken
    rw [substitute_hole hname, tokens, replaced, List.forall_mem_cons]
    constructor
    · intro h
      obtain ⟨v, hv, h⟩ := Executor.bind_eq_ok h
      obtain ⟨more, hmore, hout⟩ := Executor.bind_eq_ok h
      obtain ⟨hbound, rfl⟩ := ih.mp hmore
      have hv := lookup_ok.mp hv
      refine ⟨⟨⟨v, hv⟩, hbound⟩, ?_⟩
      rw [valueText_of hv]
      exact (Except.ok.inj hout).symm
    · rintro ⟨⟨⟨v, hv⟩, hbound⟩, rfl⟩
      rw [lookup_ok.mpr hv, valueText_of hv]
      show (substitute builtins values 0 _ >>= _) = _
      rw [ih.mpr ⟨hbound, rfl⟩]
      rfl

/-! ## Nested templates -/

variable (builtins values) in
mutual

/-- What a template stands for: the template with the same structure and keys, in which a text that
is one placeholder has become its value, and every other text has its placeholders replaced by the
texts of their values. -/
inductive Rendered : Json → Json → Prop
  | whole {text : String} {name : List Char} {v : Json} (hwhole : Hole text.toList name)
      (hv : values.lookup (String.ofList name) = some v) : Rendered (.str text) v
  | text {text : String} {ps : List (Piece Char (List Char))}
      (hnone : ¬∃ name, Hole text.toList name) (hcut : Cut Hole text.toList ps)
      (hbound : ∀ name ∈ tokens ps, IsBound values (String.ofList name)) :
      Rendered (.str text) (.str (String.ofList (replaced (valueText builtins values) ps)))
  | list {items out : List Json} (hitems : RenderedItems items out) :
      Rendered (.arr items) (.arr out)
  | mapping {fields out : List (String × Json)} (hfields : RenderedFields fields out) :
      Rendered (.obj fields) (.obj out)
  | null : Rendered .null .null
  | bool (b : Bool) : Rendered (.bool b) (.bool b)
  | int (n : Int) : Rendered (.int n) (.int n)
  | float (q : Rat) : Rendered (.float q) (.float q)

inductive RenderedItems : List Json → List Json → Prop
  | nil : RenderedItems [] []
  | cons {item r : Json} {items out : List Json} (hitem : Rendered item r)
      (hitems : RenderedItems items out) : RenderedItems (item :: items) (r :: out)

inductive RenderedFields : List (String × Json) → List (String × Json) → Prop
  | nil : RenderedFields [] []
  | cons {key : String} {value r : Json} {fields out : List (String × Json)}
      (hvalue : Rendered value r) (hfields : RenderedFields fields out) :
      RenderedFields ((key, value) :: fields) ((key, r) :: out)

end

/-- A text is rendered as it is cut. -/
theorem render_text {text : String} {r : Json} :
    render builtins values (.str text) = .ok r ↔ Rendered builtins values (.str text) r := by
  have hcut := recognises.cut_pieces text.toList
  rw [render]
  constructor
  · intro h
    split at h
    · rename_i name hwhole
      exact .whole (whole?_iff.mp hwhole) (lookup_ok.mp h)
    · rename_i hnone
      obtain ⟨out, hout, h⟩ := Executor.bind_eq_ok h
      obtain ⟨hbound, rfl⟩ := (substitute_cut hcut).mp hout
      cases h
      refine .text ?_ hcut hbound
      rintro ⟨name, hhole⟩
      rw [whole?_iff.mpr hhole] at hnone
      cases hnone
  · intro h
    cases h with
    | whole hwhole hv =>
      rw [whole?_iff.mpr hwhole]
      exact lookup_ok.mpr hv
    | text hnone hcut' hbound =>
      have hwhole : whole? text.toList = none := by
        rw [Option.eq_none_iff_forall_ne_some]
        exact fun name hname => hnone ⟨name, whole?_iff.mp hname⟩
      rw [hwhole]
      show (substitute builtins values 0 text.toList >>= _) = _
      rw [(substitute_cut hcut').mpr ⟨hbound, rfl⟩]
      rfl

mutual

/-- **The renderer renders**, and nothing else. -/
theorem render_iff : ∀ (t r : Json),
    render builtins values t = .ok r ↔ Rendered builtins values t r
  | .str text, r => render_text
  | .arr items, r => by
    rw [render]
    constructor
    · intro h
      obtain ⟨out, hout, h⟩ := Executor.bind_eq_ok h
      cases h
      exact .list ((renderItems_iff items out).mp hout)
    · intro h
      cases h with
      | list hitems =>
        rw [(renderItems_iff items _).mpr hitems]
        rfl
  | .obj fields, r => by
    rw [render]
    constructor
    · intro h
      obtain ⟨out, hout, h⟩ := Executor.bind_eq_ok h
      cases h
      exact .mapping ((renderFields_iff fields out).mp hout)
    · intro h
      cases h with
      | mapping hfields =>
        rw [(renderFields_iff fields _).mpr hfields]
        rfl
  | .null, r => ⟨fun h => Except.ok.inj h ▸ .null, fun h => by cases h; rfl⟩
  | .bool b, r => ⟨fun h => Except.ok.inj h ▸ .bool b, fun h => by cases h; rfl⟩
  | .int n, r => ⟨fun h => Except.ok.inj h ▸ .int n, fun h => by cases h; rfl⟩
  | .float q, r => ⟨fun h => Except.ok.inj h ▸ .float q, fun h => by cases h; rfl⟩

theorem renderItems_iff : ∀ (items out : List Json),
    renderItems builtins values items = .ok out ↔ RenderedItems builtins values items out
  | [], out => ⟨fun h => Except.ok.inj h ▸ .nil, fun h => by cases h; rfl⟩
  | item :: items, out => by
    rw [renderItems]
    constructor
    · intro h
      obtain ⟨r, hr, h⟩ := Executor.bind_eq_ok h
      obtain ⟨more, hmore, h⟩ := Executor.bind_eq_ok h
      cases h
      exact .cons ((render_iff item r).mp hr) ((renderItems_iff items more).mp hmore)
    · intro h
      cases h with
      | cons hitem hitems =>
        rw [(render_iff item _).mpr hitem, (renderItems_iff items _).mpr hitems]
        rfl

theorem renderFields_iff : ∀ fields out : List (String × Json),
    renderFields builtins values fields = .ok out ↔ RenderedFields builtins values fields out
  | [], out => ⟨fun h => Except.ok.inj h ▸ .nil, fun h => by cases h; rfl⟩
  | (key, value) :: fields, out => by
    rw [renderFields]
    constructor
    · intro h
      obtain ⟨r, hr, h⟩ := Executor.bind_eq_ok h
      obtain ⟨more, hmore, h⟩ := Executor.bind_eq_ok h
      cases h
      exact .cons ((render_iff value r).mp hr) ((renderFields_iff fields more).mp hmore)
    · intro h
      cases h with
      | cons hvalue hfields =>
        rw [(render_iff value _).mpr hvalue, (renderFields_iff fields _).mpr hfields]
        rfl

end

/-- A text renders where its placeholders are bound. -/
theorem rendered_text {text : String} :
    (∃ r, Rendered builtins values (.str text) r) ↔
      ∀ name ∈ findAll 0 text.toList, IsBound values name := by
  have hcut := recognises.cut_pieces text.toList
  by_cases hwhole : ∃ name, Hole text.toList name
  · obtain ⟨name, hname⟩ := hwhole
    have hone : findAll 0 text.toList = [String.ofList name] := by
      obtain ⟨hidentifier, htext⟩ := hname
      rw [htext, ← List.append_nil (hole name), findAll_hole hidentifier]
      rfl
    rw [hone, List.forall_mem_singleton]
    constructor
    · rintro ⟨r, hr⟩
      cases hr with
      | @whole _ name' _ hwhole hv =>
        have hsame : whole? text.toList = some name' := whole?_iff.mpr hwhole
        rw [whole?_iff.mpr hname] at hsame
        cases hsame
        exact ⟨r, hv⟩
      | text hnone _ _ => exact absurd ⟨name, hname⟩ hnone
    · rintro ⟨v, hv⟩
      exact ⟨v, .whole hname hv⟩
  · rw [findAll_cut hcut, List.forall_mem_map]
    constructor
    · rintro ⟨r, hr⟩
      cases hr with
      | whole h _ => exact absurd ⟨_, h⟩ hwhole
      | text _ hcut' hbound =>
        rw [recognises.cut_iff.mp hcut']
        exact hbound
    · intro hbound
      exact ⟨_, .text hwhole hcut hbound⟩

mutual

/-- **A template renders where all its placeholders are bound.** -/
theorem rendered_iff : ∀ t : Json,
    (∃ r, Rendered builtins values t r) ↔ ∀ name ∈ placeholdersIn t, IsBound values name
  | .str text => by rw [placeholdersIn, rendered_text]
  | .arr items => by
    rw [placeholdersIn, ← renderedItems_iff items]
    constructor
    · rintro ⟨r, hr⟩
      cases hr with
      | list hitems => exact ⟨_, hitems⟩
    · rintro ⟨out, hout⟩
      exact ⟨_, .list hout⟩
  | .obj fields => by
    rw [placeholdersIn, ← renderedFields_iff fields]
    constructor
    · rintro ⟨r, hr⟩
      cases hr with
      | mapping hfields => exact ⟨_, hfields⟩
    · rintro ⟨out, hout⟩
      exact ⟨_, .mapping hout⟩
  | .null => ⟨fun _ _ h => absurd h List.not_mem_nil, fun _ => ⟨_, .null⟩⟩
  | .bool b => ⟨fun _ _ h => absurd h List.not_mem_nil, fun _ => ⟨_, .bool b⟩⟩
  | .int n => ⟨fun _ _ h => absurd h List.not_mem_nil, fun _ => ⟨_, .int n⟩⟩
  | .float q => ⟨fun _ _ h => absurd h List.not_mem_nil, fun _ => ⟨_, .float q⟩⟩

theorem renderedItems_iff : ∀ items : List Json,
    (∃ out, RenderedItems builtins values items out) ↔
      ∀ name ∈ placeholdersInItems items, IsBound values name
  | [] => ⟨fun _ _ h => absurd h List.not_mem_nil, fun _ => ⟨_, .nil⟩⟩
  | item :: items => by
    rw [placeholdersInItems, List.forall_mem_append, ← rendered_iff item,
      ← renderedItems_iff items]
    constructor
    · rintro ⟨out, hout⟩
      cases hout with
      | cons hitem hitems => exact ⟨⟨_, hitem⟩, _, hitems⟩
    · rintro ⟨⟨r, hr⟩, out, hout⟩
      exact ⟨_, .cons hr hout⟩

theorem renderedFields_iff : ∀ fields : List (String × Json),
    (∃ out, RenderedFields builtins values fields out) ↔
      ∀ name ∈ placeholdersInFields fields, IsBound values name
  | [] => ⟨fun _ _ h => absurd h List.not_mem_nil, fun _ => ⟨_, .nil⟩⟩
  | (key, value) :: fields => by
    rw [placeholdersInFields, List.forall_mem_append, ← rendered_iff value,
      ← renderedFields_iff fields]
    constructor
    · rintro ⟨out, hout⟩
      cases hout with
      | cons hvalue hfields => exact ⟨⟨_, hvalue⟩, _, hfields⟩
    · rintro ⟨⟨r, hr⟩, out, hout⟩
      exact ⟨_, .cons hr hout⟩

end

end

/-! ## A validated SOP -/

section
open Raw.Binding

/-- The validator that collects placeholders in this way. -/
def collecting (cat : Catalog) : Catalog := { cat with undeclaredPlaceholders }

/-- The engine that binds in this way. -/
def binding (lang : Patterns) (eng : Engine) : Engine :=
  { eng with
    bindWhatCanBe := fun sop incident => do
      let bound ← bindWhatCanBe lang (sop.parameters.map ofTyped) incident
      pure ⟨bound.values, bound.failures,
        sop.parameters.filter fun spec => ofTyped spec ∈ bound.notFound⟩ }

variable {cat : Catalog} {sop : SOP} {values : List (String × Json)}

theorem extraKeys_eq_nil {keys known : List String} :
    extraKeys keys known = [] ↔ ∀ k ∈ keys, k ∈ known := by
  unfold extraKeys
  rw [← List.length_eq_zero_iff, List.length_insertionSort, List.length_eq_zero_iff,
    List.eq_nil_iff_forall_not_mem]
  constructor
  · intro h k hk
    by_contra hnot
    exact h k (List.mem_dedup.mpr (List.mem_filter.mpr ⟨hk, decide_eq_true hnot⟩))
  · intro h k hk
    obtain ⟨hmem, hnot⟩ := List.mem_filter.mp (List.mem_dedup.mp hk)
    exact of_decide_eq_true hnot (h k hmem)

/-- What the steps of a validated SOP use is declared. -/
theorem declared_of_valid (h : validateSop (collecting cat) sop = []) {step : SOPStep}
    (hstep : step ∈ sop.steps) :
    ∀ name ∈ placeholdersIn step.parameters, ∃ spec ∈ sop.parameters, spec.name = name := by
  have hcontent := (validateSop_content h).2
  unfold contentProblems at hcontent
  simp only [List.append_eq_nil_iff] at hcontent
  have hnone : undeclaredPlaceholders sop = [] := List.map_eq_nil_iff.mp hcontent.1.1.1.1.2
  intro name hname
  have hmem : name ∈ sop.steps.flatMap fun step => placeholdersIn step.parameters :=
    List.mem_flatMap.mpr ⟨step, hstep, hname⟩
  exact List.mem_map.mp (extraKeys_eq_nil.mp hnone name hmem)

/-- Every declared name is bound. -/
def AllBound (sop : SOP) (values : List (String × Json)) : Prop :=
  ∀ spec ∈ sop.parameters, IsBound values spec.name

/-- Where every declared name is bound, the steps of a validated SOP render. -/
theorem renders_of_bound (h : validateSop (collecting cat) sop = []) (hbound : AllBound sop values)
    (builtins : Builtins) : ∀ step ∈ sop.steps,
      ∃ r, render builtins values step.parameters = .ok r := by
  intro step hstep
  have hnames : ∀ name ∈ placeholdersIn step.parameters, IsBound values name := by
    intro name hname
    obtain ⟨spec, hspec, rfl⟩ := declared_of_valid h hstep name hname
    exact hbound spec hspec
  obtain ⟨r, hr⟩ := (rendered_iff step.parameters).mpr hnames
  exact ⟨r, (render_iff step.parameters r).mpr hr⟩

theorem isBound_setField {key name : String} {v : Json} (h : IsBound values name) :
    IsBound (Json.setField values key v) name := by
  unfold IsBound
  rw [Json.lookup_setField]
  by_cases hkey : name = key
  · rw [if_pos hkey]
    exact ⟨v, rfl⟩
  · rw [if_neg hkey]
    exact h

theorem setFailure_ne_nil (failures : List (String × String)) (name message : String) :
    setFailure failures name message ≠ [] := by
  unfold setFailure
  split
  · rename_i hany
    intro hnil
    rw [List.map_eq_nil_iff.mp hnil] at hany
    cases hany
  · exact List.append_ne_nil_of_right_ne_nil _ (List.cons_ne_nil _ _)

/-- The names that `bind_parameters` has bound. -/
theorem bindParametersFrom_bound {lang : Patterns} {incident : Incident}
    {specs : List Raw.ParameterSpec} {values out : List (String × Json)}
    (h : bindParametersFrom lang incident values specs = .ok out) :
    (∀ name, IsBound values name → IsBound out name) ∧
      ∀ spec ∈ specs, IsBound out (nameOf lang spec) := by
  induction specs generalizing values with
  | nil =>
    cases h
    exact ⟨fun name hname => hname, fun spec hspec => absurd hspec List.not_mem_nil⟩
  | cons spec specs ih =>
    rw [bindParametersFrom_cons] at h
    obtain ⟨v, -, h⟩ := Executor.bind_eq_ok h
    obtain ⟨hkept, hmore⟩ := ih h
    refine ⟨fun name hname => hkept name (isBound_setField hname), ?_⟩
    rw [List.forall_mem_cons]
    exact ⟨hkept _ ⟨v, by rw [Json.lookup_setField, if_pos rfl]⟩, hmore⟩

/-- So has `bind_what_can_be`, where it reports no failure. -/
theorem bindWhatCanBeFrom_bound {lang : Patterns} {incident : Incident}
    {specs : List Raw.ParameterSpec} {acc out : Raw.Binding.Bound}
    (h : bindWhatCanBeFrom lang incident acc specs = .ok out) (hout : out.failures = []) :
    acc.failures = [] ∧ (∀ name, IsBound acc.values name → IsBound out.values name) ∧
      ∀ spec ∈ specs, IsBound out.values (nameOf lang spec) := by
  induction specs generalizing acc with
  | nil =>
    cases h
    exact ⟨hout, fun name hname => hname, fun spec hspec => absurd hspec List.not_mem_nil⟩
  | cons spec specs ih =>
    rw [bindWhatCanBeFrom_cons] at h
    dsimp only at h
    split at h
    · rename_i v _
      obtain ⟨hnone, hkept, hmore⟩ := ih h
      refine ⟨hnone, fun name hname => hkept name (isBound_setField hname), ?_⟩
      rw [List.forall_mem_cons]
      exact ⟨hkept _ ⟨v, by rw [Json.lookup_setField, if_pos rfl]⟩, hmore⟩
    · rename_i m _
      -- A failure that has been reported stays.
      have hnone : setFailure acc.failures (nameOf lang spec) m = [] := (ih h).1
      exact absurd hnone (setFailure_ne_nil _ _ _)
    · cases h

/-- A validated SOP's parameters, as its content says them. -/
theorem allBound_of {lang : Patterns}
    (h : ∀ spec ∈ sop.parameters.map ofTyped, IsBound values (nameOf lang spec)) :
    AllBound sop values :=
  fun spec hspec => h (ofTyped spec) (List.mem_map_of_mem hspec)

theorem always_ofExcept {α : Type} {r : Except Exn α} {Q : α → Prop} (h : ∀ a, r = .ok a → Q a) :
    (Program.ofExcept (E := EngineCalls) r).Always fun r => ∀ a, r = .ok a → Q a := by
  cases r with
  | error e => exact h
  | ok a => exact h

/-- The values that `_bind` picks have the names of the declarations. -/
theorem allBound_picked {found : List (String × Json)}
    (h : (sop.parameters.mapM fun spec => match found.lookup spec.name with
      | some value => (.ok (spec.name, value) : Except Exn _)
      | none => .error (.other "KeyError" spec.name)) = .ok values) : AllBound sop values := by
  intro spec hspec
  obtain ⟨pair, hpair, heq⟩ := Sdk.mem_of_mapM_ok h hspec
  have hname : pair.1 = spec.name := by
    split at heq
    · cases heq
      rfl
    · cases heq
  match hlookup : values.lookup spec.name with
  | some v => exact ⟨v, hlookup⟩
  | none =>
    have hnot := List.lookup_eq_none_iff.mp hlookup pair hpair
    rw [hname] at hnot
    simp at hnot

/-- **What `_bind` returns has a value for every declared name**, whatever a model or an earlier
attempt has answered. -/
theorem bindAll_bound {eng : Engine} {incident : Incident} {journal : Option RunJournal}
    {advisor : Bool}
    (hrules : ∀ bound, eng.bindWhatCanBe sop incident = .ok bound → bound.failures = [] →
      AllBound sop bound.values) :
    (Executor.bindAll eng incident sop journal advisor).Always fun r =>
      ∀ values, r = .ok values → AllBound sop values := by
  unfold Executor.bindAll
  cases hwhat : eng.bindWhatCanBe sop incident with
  | error e => exact fun values h => nomatch h
  | ok bound =>
    rw [Program.bind_eq, Program.ofExcept, Program.bind_ret]
    split
    · rename_i hnone
      rintro values ⟨⟩
      exact hrules bound hwhat hnone
    · extract_lets askable stored known rest
      refine Program.Always.ite (fun _ values h => nomatch h) fun _ => ?_
      have hrest : ∀ located, (rest located).Always fun r =>
          ∀ values, r = .ok values → AllBound sop values := by
        intro located
        refine Program.Always.bind_result fun advised => ?_
        extract_lets found picked
        have hpicked : (picked ()).Always fun r =>
            ∀ values, r = .ok values → AllBound sop values :=
          always_ofExcept fun values => allBound_picked
        exact Program.Always.ite (fun _ => Program.Always.bind_result fun _ => hpicked)
          fun _ => hpicked
      refine Program.Always.ite (fun _ => Program.Always.bind_result hrest) fun _ => ?_
      exact Program.Always.ite (fun _ => Program.Always.bind_result hrest)
        fun _ => Program.Always.bind_result hrest

/-- The engine that binds and renders in this way. -/
def templating (lang : Patterns) (eng : Engine) : Engine := rendering (binding lang eng)

theorem mapM_ok {α β : Type} {f : α → Except Exn β} {as : List α}
    (h : ∀ a ∈ as, ∃ b, f a = .ok b) : ∃ bs, as.mapM f = .ok bs := by
  induction as with
  | nil => exact ⟨[], rfl⟩
  | cons a as ih =>
    rw [List.forall_mem_cons] at h
    obtain ⟨⟨b, hb⟩, hrest⟩ := h
    obtain ⟨bs, hbs⟩ := ih hrest
    refine ⟨b :: bs, ?_⟩
    rw [List.mapM_cons, hb, hbs]
    rfl

/-- The executor never fails to render what it has bound. -/
theorem bindAll_renders (h : validateSop (collecting cat) sop = []) (lang : Patterns) (eng : Engine)
    (incident : Incident) (journal : Option RunJournal) (advisor : Bool) :
    (Executor.bindAll (templating lang eng) incident sop journal advisor).Always fun r =>
      ∀ values, r = .ok values →
        ∃ steps, sop.steps.mapM (Executor.renderStep (templating lang eng) values) = .ok steps := by
  have hrules : ∀ bound, (templating lang eng).bindWhatCanBe sop incident = .ok bound →
      bound.failures = [] → AllBound sop bound.values := by
    intro bound hbound hnone
    obtain ⟨found, hfound, hbound⟩ := Executor.bind_eq_ok hbound
    cases hbound
    exact allBound_of (bindWhatCanBeFrom_bound hfound hnone).2.2
  refine (bindAll_bound hrules).mono fun r hr values hvalues => mapM_ok fun step hstep => ?_
  obtain ⟨parameters, hparameters⟩ := renders_of_bound h (hr values hvalues)
    (binding lang eng).catalog.builtins step hstep
  have hrender : (templating lang eng).render step.parameters values = .ok parameters := hparameters
  refine ⟨{ step with parameters }, ?_⟩
  rw [Executor.renderStep, hrender]
  rfl

end

/-- **Rendering is exact.**  A template renders if and only if every placeholder that is collected
from it is bound, and then to what it stands for, in one pass; and the steps of an SOP without
problems render with the values that are bound to its parameters, whichever way these were bound. -/
theorem render_exact (builtins : Builtins) (values : List (String × Json)) (template : Json) :
    ((∃ r, render builtins values template = .ok r) ↔
      ∀ name ∈ placeholdersIn template, IsBound values name) ∧
    (∀ r, render builtins values template = .ok r ↔ Rendered builtins values template r) ∧
    ∀ (cat : Catalog) (sop : SOP), validateSop (collecting cat) sop = [] →
      ∀ (lang : Patterns) (incident : Incident),
        (∀ bound,
          Raw.Binding.bindParameters lang (sop.parameters.map Raw.Binding.ofTyped) incident =
            .ok bound →
          ∀ step ∈ sop.steps, ∃ r, render builtins bound step.parameters = .ok r) ∧
        ∀ (eng : Engine) (journal : Option RunJournal) (advisor : Bool),
          (Executor.bindAll (templating lang eng) incident sop journal advisor).Always fun r =>
            ∀ bound, r = .ok bound →
              ∃ steps, sop.steps.mapM (Executor.renderStep (templating lang eng) bound) =
                .ok steps := by
  refine ⟨?_, render_iff template, fun cat sop h lang incident => ⟨fun bound hbound => ?_,
    fun eng journal advisor => bindAll_renders h lang eng incident journal advisor⟩⟩
  · rw [← rendered_iff template]
    exact exists_congr fun r => render_iff template r
  · exact renders_of_bound h (allBound_of (bindParametersFrom_bound hbound).2) builtins

example : render ⟨fun _ => "", fun _ => none, fun _ => false⟩
    [("a", .str "\x24\x7bb\x7d"), ("b", .str "hidden")] (.str "see \x24\x7ba\x7d") =
      .ok (.str "see \x24\x7bb\x7d") := by
  decide

end Rendering
end L1Agent
