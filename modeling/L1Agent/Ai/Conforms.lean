import L1Agent.Ai.Schema

/-! # What it means that an answer fits

`Conforms` is the meaning of a schema, as a relation that nothing of the validator is part of.
`Limits` are bounds that hold whatever the schema says: with none of them it is the meaning that
JSON Schema gives the keywords, and with the module's own (`MAX_STRING`, `MAX_ITEMS`) it is what
`problems` decides.

`problems_nil` is that equivalence, by recursion on the schema, with one lemma for each keyword; it
asks that the schema was accepted, that its bounds are numbers (`WellTyped`), and that the numbers
of the value are in the range of floats (`Ranged`).  `problems_of_long_list` is a list where the two
meanings differ.
-/
namespace L1Agent
open Decoded

/-- What a text and an array may be at most, whatever the schema says. -/
structure Limits where
  text : Option Nat := none
  items : Option Nat := none

/-- The limits of the module. -/
def Limits.own : Limits := ⟨some maxString, some maxSchemaItems⟩

/-- The value fits the schema, at every depth. -/
inductive Conforms (fullmatch : Text → Text → Bool) (limits : Limits) : Schema → Value → Prop
  | object {properties : List (Text × Schema)} {required extra : List Text}
      {additionalProperties : Option Bool} {fields : List (Text × Value)}
      (hlisted : ∀ f ∈ fields, ∃ p ∈ properties, p.1 = f.1)
      (hrequired : ∀ k ∈ required, ∃ f ∈ fields, f.1 = k)
      (hproperties : ∀ p ∈ properties, ∀ v, fields.lookup p.1 = some v →
        Conforms fullmatch limits p.2 v) :
      Conforms fullmatch limits (.object properties required additionalProperties extra)
        (.obj fields)
  | string {maxLength : Option Number} {enum : Option (List Value)} {pattern : Option Text}
      {extra : List Text} {t : Text}
      (henum : ∀ allowed, enum = some allowed → Value.str t ∈ allowed)
      (hlength : ∀ most, maxLength = some most → ¬most.lt (.int t.length))
      (hlimit : ∀ most, limits.text = some most → t.length ≤ most)
      (hpattern : ∀ p, pattern = some p → fullmatch p t = true) :
      Conforms fullmatch limits (.string maxLength enum pattern extra) (.str t)
  | number {integer : Bool} {minimum maximum : Option Number} {extra : List Text} {n : Number}
      (hinteger : integer = true → ∃ i, n = .int i)
      (hminimum : ∀ bound, minimum = some bound → ¬n.lt bound)
      (hmaximum : ∀ bound, maximum = some bound → ¬bound.lt n) :
      Conforms fullmatch limits (.number integer minimum maximum extra) (.num n)
  | boolean {extra : List Text} {b : Bool} : Conforms fullmatch limits (.boolean extra) (.bool b)
  | array {child : Schema} {maxItems : Option Number} {extra : List Text} {items : List Value}
      (hcount : ∀ most, maxItems = some most → ¬most.lt (.int items.length))
      (hlimit : ∀ most, limits.items = some most → items.length ≤ most)
      (hitems : ∀ v ∈ items, Conforms fullmatch limits child v) :
      Conforms fullmatch limits (.array child maxItems extra) (.arr items)

mutual

/-- The bounds of the schema are numbers, which a NaN is not. -/
def WellTyped : Schema → Prop
  | .object properties _ _ _ => WellTypedProperties properties
  | .string maxLength _ _ _ => maxLength ≠ some (.float .nan)
  | .number _ minimum maximum _ => minimum ≠ some (.float .nan) ∧ maximum ≠ some (.float .nan)
  | .array items maxItems _ => maxItems ≠ some (.float .nan) ∧
    (match items with
      | some child => WellTyped child
      | none => True)
  | .boolean _ | .unsupported => True

def WellTypedProperties : List (Text × Schema) → Prop
  | [] => True
  | (_, child) :: rest => WellTyped child ∧ WellTypedProperties rest

end

/-- The number is within the range of floats. -/
def InFloatRange : Number → Prop
  | .int n => ¬Overflows n
  | .float (.finite _) => True
  | .float _ => False

mutual

/-- Every number of the value is in the range of floats. -/
def Ranged : Value → Prop
  | .num n => InFloatRange n
  | .arr items => RangedItems items
  | .obj fields => RangedFields fields
  | _ => True

def RangedItems : List Value → Prop
  | [] => True
  | v :: vs => Ranged v ∧ RangedItems vs

def RangedFields : List (Text × Value) → Prop
  | [] => True
  | (_, v) :: fields => Ranged v ∧ RangedFields fields

end

section
variable {fullmatch : Text → Text → Bool} {place : Text}

theorem RangedItems.mem {items : List Value} (h : RangedItems items) : ∀ v ∈ items, Ranged v := by
  induction items with
  | nil => exact fun v hv => absurd hv List.not_mem_nil
  | cons item items ih =>
    rw [List.forall_mem_cons]
    exact ⟨h.1, ih h.2⟩

theorem RangedFields.lookup {fields : List (Text × Value)} (h : RangedFields fields) {key : Text}
    {v : Value} (hv : fields.lookup key = some v) : Ranged v := by
  induction fields with
  | nil => cases hv
  | cons f fields ih =>
    obtain ⟨k, w⟩ := f
    rw [List.lookup_cons] at hv
    split at hv
    · rw [← Option.some.inj hv]
      exact h.1
    · exact ih h.2 hv

/-- A bound lies above one whole number and below another. -/
theorem lt_of_between {bound : Number} {m n : Int} (hm : (Number.int m).lt bound = true)
    (hn : bound.lt (.int n) = true) : m < n := by
  match bound with
  | .int b =>
    have hmb : m < b := of_decide_eq_true hm
    have hbn : b < n := of_decide_eq_true hn
    omega
  | .float (.finite q) =>
    have hmq : (m : Rat) < q := of_decide_eq_true hm
    have hqn : q < (n : Rat) := of_decide_eq_true hn
    exact_mod_cast hmq.trans hqn
  | .float (.infinite true) => cases hm
  | .float (.infinite false) => cases hn
  | .float .nan => cases hm

/-- A number that is not above `m` is below what `m` is below. -/
theorem lt_of_not_above {bound : Number} (hbound : bound ≠ .float .nan) {m n : Int}
    (hm : ¬(Number.int m).lt bound = true) (hn : m < n) : bound.lt (.int n) = true := by
  match bound with
  | .int b =>
    have hmb : ¬m < b := fun h => hm (decide_eq_true h)
    exact decide_eq_true (by omega : b < n)
  | .float (.finite q) =>
    have hmq : q ≤ (m : Rat) := not_lt.mp fun h => hm (decide_eq_true h)
    have hmn : (m : Rat) < n := by exact_mod_cast hn
    exact decide_eq_true (hmq.trans_lt hmn)
  | .float (.infinite true) => rfl
  | .float (.infinite false) => exact absurd rfl hm
  | .float .nan => exact absurd rfl hbound

/-- A count is compared with both bounds. -/
theorem exceeds_iff {count most : Nat} {bound : Number} (hbound : bound ≠ .float .nan) :
    exceeds count bound most = true ↔ most < count ∨ bound.lt (.int count) = true := by
  have hint : (Number.int most).lt (.int count) = true ↔ most < count := by
    show decide ((most : Int) < count) = true ↔ _
    rw [decide_eq_true_eq, Int.ofNat_lt]
  unfold exceeds Number.min
  by_cases hless : (Number.int most).lt bound = true
  · rw [if_pos hless, hint]
    refine ⟨Or.inl, fun h => h.elim id fun hcount => ?_⟩
    exact Int.ofNat_lt.mp (lt_of_between hless hcount)
  · rw [if_neg hless]
    refine ⟨Or.inr, fun h => h.elim (fun hmost => ?_) id⟩
    exact lt_of_not_above hbound hless (Int.ofNat_lt.mpr hmost)

/-- A bound is kept to by what does not exceed it, and by everything where there is none. -/
theorem not_exceeds {count most : Nat} {bound : Option Number}
    (hbound : bound ≠ some (.float .nan)) :
    ¬exceeds count (bound.getD (.int most)) most = true ↔
      (∀ b, bound = some b → ¬b.lt (.int count) = true) ∧ count ≤ most := by
  match bound with
  | none =>
    have hint : (Number.int most).lt (.int count) = true ↔ most < count := by
      show decide ((most : Int) < count) = true ↔ _
      rw [decide_eq_true_eq, Int.ofNat_lt]
    rw [Option.getD_none, exceeds_iff (by intro h; cases h), hint, or_self, not_lt]
    exact ⟨fun h => ⟨fun b hb => (nomatch hb), h⟩, And.right⟩
  | some b =>
    rw [Option.getD_some, exceeds_iff fun h => hbound (congrArg some h), not_or, not_lt]
    constructor
    · rintro ⟨hmost, hb⟩
      refine ⟨fun b' hb' => ?_, hmost⟩
      obtain rfl := Option.some.inj hb'
      exact hb
    · rintro ⟨hb, hmost⟩
      exact ⟨hmost, hb b rfl⟩

theorem any_isText {t : Text} {allowed : List Value} :
    allowed.any (Value.isText t) = true ↔ Value.str t ∈ allowed := by
  rw [List.any_eq_true]
  constructor
  · rintro ⟨v, hv, htext⟩
    match v with
    | .str u =>
      have hsame : u = t := eq_of_beq htext
      exact hsame ▸ hv
    | .null | .bool _ | .num _ | .arr _ | .obj _ => cases htext
  · intro hmem
    exact ⟨.str t, hmem, beq_self_eq_true t⟩

theorem textProblems_nil {maxLength : Option Number} {enum : Option (List Value)}
    {pattern : Option Text} {t : Text} (hbound : maxLength ≠ some (.float .nan)) :
    textProblems fullmatch maxLength enum pattern t place = [] ↔
      (∀ allowed, enum = some allowed → Value.str t ∈ allowed) ∧
      ((∀ most, maxLength = some most → ¬most.lt (.int t.length) = true) ∧ t.length ≤ maxString) ∧
      ∀ p, pattern = some p → fullmatch p t = true := by
  have henum : (enum.any fun allowed => !allowed.any (Value.isText t)) = true ↔
      ¬∀ allowed, enum = some allowed → Value.str t ∈ allowed := by
    match enum with
    | none => exact iff_of_false Bool.false_ne_true (not_not.mpr fun _ h => (nomatch h))
    | some allowed =>
      rw [Option.any_some, Bool.not_eq_true', ← Bool.not_eq_true, any_isText, not_iff_not]
      exact ⟨fun h _ heq => Option.some.inj heq ▸ h, fun h => h allowed rfl⟩
  have hpattern : (pattern.any fun p => !fullmatch p t) = true ↔
      ¬∀ p, pattern = some p → fullmatch p t = true := by
    match pattern with
    | none => exact iff_of_false Bool.false_ne_true (not_not.mpr fun _ h => (nomatch h))
    | some p =>
      rw [Option.any_some, Bool.not_eq_true', ← Bool.not_eq_true, not_iff_not]
      exact ⟨fun h _ heq => Option.some.inj heq ▸ h, fun h => h p rfl⟩
  have hlength := @not_exceeds t.length maxString maxLength hbound
  unfold textProblems
  by_cases h1 : ∀ allowed, enum = some allowed → Value.str t ∈ allowed
  · rw [if_neg (fun h => henum.mp h h1)]
    by_cases h2 : exceeds t.length (maxLength.getD (.int maxString)) maxString = true
    · rw [if_pos h2]
      exact iff_of_false (List.cons_ne_nil _ _) fun h => hlength.mpr h.2.1 h2
    · rw [if_neg h2]
      by_cases h3 : ∀ p, pattern = some p → fullmatch p t = true
      · rw [if_neg (fun h => hpattern.mp h h3)]
        exact iff_of_true rfl ⟨h1, hlength.mp h2, h3⟩
      · rw [if_pos (hpattern.mpr h3)]
        exact iff_of_false (List.cons_ne_nil _ _) fun h => h3 h.2.2
  · rw [if_pos (henum.mpr h1)]
    exact iff_of_false (List.cons_ne_nil _ _) fun h => h1 h.1

theorem any_bound {bound : Option Number} {fails : Number → Bool} :
    (bound.any fails) = true ↔ ¬∀ b, bound = some b → ¬fails b = true := by
  match bound with
  | none => exact iff_of_false Bool.false_ne_true (not_not.mpr fun _ h => (nomatch h))
  | some b =>
    rw [Option.any_some]
    constructor
    · intro hfails hnone
      exact hnone b rfl hfails
    · intro hsome
      by_contra hfails
      exact hsome fun b' hb' => Option.some.inj hb' ▸ hfails

theorem isInt_iff {n : Number} : n.isInt = true ↔ ∃ i, n = .int i := by
  match n with
  | .int i => exact iff_of_true rfl ⟨i, rfl⟩
  | .float x => exact iff_of_false Bool.false_ne_true fun ⟨i, hi⟩ => (nomatch hi)

theorem isFinite_ranged {n : Number} (h : InFloatRange n) : isFinite n = .ok true := by
  cases n with
  | int i =>
    rw [InFloatRange] at h
    rw [isFinite, if_neg h]
  | float x =>
    cases x with
    | finite q => rfl
    | infinite negative => exact h.elim
    | nan => exact h.elim

theorem numberProblems_nil {integer : Bool} {minimum maximum : Option Number} {n : Number}
    (hrange : InFloatRange n) : numberProblems integer minimum maximum n place = .ok [] ↔
      (integer = true → ∃ i, n = .int i) ∧
      (∀ bound, minimum = some bound → ¬n.lt bound = true) ∧
      ∀ bound, maximum = some bound → ¬bound.lt n = true := by
  have hfinite := isFinite_ranged hrange
  have hint := @isInt_iff n
  unfold numberProblems
  by_cases h1 : (integer && !n.isInt) = true
  · rw [if_pos h1]
    obtain ⟨hinteger, hnot⟩ := Bool.and_eq_true_iff.mp h1
    refine iff_of_false (fun h => List.cons_ne_nil _ _ (Except.ok.inj h)) fun h => ?_
    rw [hint.mpr (h.1 hinteger)] at hnot
    cases hnot
  · have hinteger : integer = true → ∃ i, n = .int i := by
      intro hinteger
      by_contra hnot
      rw [← hint, Bool.not_eq_true] at hnot
      rw [hinteger, hnot] at h1
      exact h1 rfl
    rw [if_neg h1, hfinite]
    dsimp only
    by_cases h2 : ∀ bound, minimum = some bound → ¬n.lt bound = true
    · rw [if_neg fun h => any_bound.mp h h2]
      by_cases h3 : ∀ bound, maximum = some bound → ¬bound.lt n = true
      · rw [if_neg fun h => any_bound.mp h h3]
        exact iff_of_true rfl ⟨hinteger, h2, h3⟩
      · rw [if_pos (any_bound.mpr h3)]
        exact iff_of_false (fun h => List.cons_ne_nil _ _ (Except.ok.inj h)) fun h => h3 h.2.2
    · rw [if_pos (any_bound.mpr h2)]
      exact iff_of_false (fun h => List.cons_ne_nil _ _ (Except.ok.inj h)) fun h => h2 h.2.1

/-- The items have no problem when none of them has one. -/
theorem itemProblems_nil {child : Value → Text → Except Raised (List Text)} {P : Value → Prop}
    {items : List Value} (h : ∀ v ∈ items, ∀ place, child v place = .ok [] ↔ P v) (index : Nat) :
    itemProblems child place index items = .ok [] ↔ ∀ v ∈ items, P v := by
  induction items generalizing index with
  | nil => exact iff_of_true rfl fun v hv => absurd hv List.not_mem_nil
  | cons v items ih =>
    rw [List.forall_mem_cons] at h
    obtain ⟨hv, hrest⟩ := h
    have hfirst := hv (place ++ text "[" ++ text (toString index) ++ text "]")
    have hmore := ih hrest (index + 1)
    rw [itemProblems, List.forall_mem_cons, ← hfirst, ← hmore]
    cases child v (place ++ text "[" ++ text (toString index) ++ text "]") with
    | error e => exact iff_of_false (fun h => by cases h) fun h => by cases h.1
    | ok found =>
      dsimp only
      cases itemProblems child place (index + 1) items with
      | error e => exact iff_of_false (fun h => by cases h) fun h => by cases h.2
      | ok more =>
        simp only [Except.ok.injEq, List.append_eq_nil_iff]

/-- The keys that are not listed, and those that are missing. -/
theorem keyProblems_nil {properties : List (Text × Schema)} {required : List Text}
    {fields : List (Text × Value)} :
    ((fields.filter fun f => !properties.any (·.1 == f.1)).map fun f =>
        place ++ text ": '" ++ f.1 ++ text "' is not allowed") ++
      ((required.filter fun k => !fields.any (·.1 == k)).map fun k =>
        place ++ text ": '" ++ k ++ text "' is required") = [] ↔
      (∀ f ∈ fields, ∃ p ∈ properties, p.1 = f.1) ∧ ∀ k ∈ required, ∃ f ∈ fields, f.1 = k := by
  rw [List.append_eq_nil_iff, List.map_eq_nil_iff, List.map_eq_nil_iff, List.filter_eq_nil_iff,
    List.filter_eq_nil_iff]
  refine and_congr (forall₂_congr fun f _ => ?_) (forall₂_congr fun k _ => ?_)
  · rw [Bool.not_eq_true', Bool.not_eq_false, List.any_eq_true]
    exact exists_congr fun p => and_congr_right fun _ => beq_iff_eq
  · rw [Bool.not_eq_true', Bool.not_eq_false, List.any_eq_true]
    exact exists_congr fun f => and_congr_right fun _ => beq_iff_eq

mutual

/-- **No problem is found exactly in what fits**, and nothing in between is skipped. -/
theorem problems_nil : ∀ (schema : Schema) (value : Value) (place : Text),
    checkSchema schema = .ok () → WellTyped schema → Ranged value →
      (problems fullmatch schema value place = .ok [] ↔
        Conforms fullmatch Limits.own schema value)
  | .object properties required additionalProperties extra, value, place, hcheck, htyped,
    hranged => by
    match value with
    | .obj fields =>
      have hproperties := propertyProblems_nil properties fields place (checkSchema_object hcheck)
        htyped hranged
      rw [problems]
      constructor
      · intro h
        match hmore : propertyProblems fullmatch properties fields place with
        | .error e =>
          rw [hmore] at h
          cases h
        | .ok more =>
          rw [hmore] at h
          obtain ⟨hkeys, rfl⟩ := List.append_eq_nil_iff.mp (Except.ok.inj h)
          obtain ⟨hlisted, hrequired⟩ := keyProblems_nil.mp hkeys
          exact .object hlisted hrequired (hproperties.mp hmore)
      · intro h
        cases h with
        | object hlisted hrequired hfits =>
          rw [hproperties.mpr hfits]
          refine congrArg Except.ok ?_
          rw [keyProblems_nil.mpr ⟨hlisted, hrequired⟩, List.nil_append]
    | .null | .bool _ | .num _ | .str _ | .arr _ =>
      exact iff_of_false (fun h => List.cons_ne_nil _ _ (Except.ok.inj h)) fun h => (nomatch h)
  | .string maxLength enum pattern extra, value, place, hcheck, htyped, hranged => by
    match value with
    | .str t =>
      rw [problems, Except.ok.injEq, textProblems_nil htyped]
      constructor
      · rintro ⟨henum, ⟨hlength, hlimit⟩, hpattern⟩
        exact .string henum hlength (fun most hmost => Option.some.inj hmost ▸ hlimit) hpattern
      · intro h
        cases h with
        | string henum hlength hlimit hpattern =>
          exact ⟨henum, ⟨hlength, hlimit maxString rfl⟩, hpattern⟩
    | .null | .bool _ | .num _ | .arr _ | .obj _ =>
      exact iff_of_false (fun h => List.cons_ne_nil _ _ (Except.ok.inj h)) fun h => (nomatch h)
  | .number integer minimum maximum extra, value, place, hcheck, htyped, hranged => by
    match value with
    | .num n =>
      rw [problems, numberProblems_nil hranged]
      constructor
      · rintro ⟨hinteger, hminimum, hmaximum⟩
        exact .number hinteger hminimum hmaximum
      · intro h
        cases h with
        | number hinteger hminimum hmaximum => exact ⟨hinteger, hminimum, hmaximum⟩
    | .null | .bool _ | .str _ | .arr _ | .obj _ =>
      exact iff_of_false (fun h => List.cons_ne_nil _ _ (Except.ok.inj h)) fun h => (nomatch h)
  | .boolean extra, value, place, hcheck, htyped, hranged => by
    match value with
    | .bool b => exact iff_of_true rfl .boolean
    | .null | .num _ | .str _ | .arr _ | .obj _ =>
      exact iff_of_false (fun h => List.cons_ne_nil _ _ (Except.ok.inj h)) fun h => (nomatch h)
  | .array none maxItems extra, value, place, hcheck, htyped, hranged => by cases hcheck
  | .array (some child) maxItems extra, value, place, hcheck, htyped, hranged => by
    obtain ⟨child', most, heq, rfl, hchild⟩ := checkSchema_array hcheck
    obtain rfl := Option.some.inj heq
    obtain ⟨hbound, hchildTyped⟩ := htyped
    match value with
    | .arr items =>
      have hitems := @itemProblems_nil place (problems fullmatch child) _ items (fun v hv place =>
        problems_nil child v place hchild hchildTyped (hranged.mem v hv)) 0
      have hcount := @not_exceeds items.length maxSchemaItems (some most) hbound
      rw [problems]
      by_cases hlong : exceeds items.length most maxSchemaItems = true
      · rw [if_pos hlong]
        refine iff_of_false (fun h => List.cons_ne_nil _ _ (Except.ok.inj h)) fun h => ?_
        cases h with
        | array hmost hlimit _ => exact hcount.mpr ⟨hmost, hlimit maxSchemaItems rfl⟩ hlong
      · rw [if_neg hlong]
        obtain ⟨hmost, hlimit⟩ := hcount.mp hlong
        constructor
        · intro h
          exact .array hmost (fun most hmost => Option.some.inj hmost ▸ hlimit) (hitems.mp h)
        · intro h
          cases h with
          | array _ _ hfits => exact hitems.mpr hfits
    | .null | .bool _ | .num _ | .str _ | .obj _ =>
      exact iff_of_false (fun h => List.cons_ne_nil _ _ (Except.ok.inj h)) fun h => (nomatch h)
  | .unsupported, value, place, hcheck, htyped, hranged => by cases hcheck

theorem propertyProblems_nil : ∀ (properties : List (Text × Schema))
    (fields : List (Text × Value)) (place : Text), checkProperties properties = .ok () →
    WellTypedProperties properties → RangedFields fields →
    (propertyProblems fullmatch properties fields place = .ok [] ↔
      ∀ p ∈ properties, ∀ v, fields.lookup p.1 = some v → Conforms fullmatch Limits.own p.2 v)
  | [], fields, place, _, _, _ => iff_of_true rfl fun p hp => absurd hp List.not_mem_nil
  | (key, child) :: rest, fields, place, hcheck, htyped, hranged => by
    obtain ⟨hchild, hrest⟩ := checkProperties_cons.mp hcheck
    have hmore := propertyProblems_nil rest fields place hrest htyped.2 hranged
    rw [propertyProblems, List.forall_mem_cons, ← hmore]
    match hlookup : fields.lookup key with
    | none =>
      have hnone : ∀ v, (none : Option Value) = some v → Conforms fullmatch Limits.own child v :=
        fun v hv => (nomatch hv)
      dsimp only
      match propertyProblems fullmatch rest fields place with
      | .error e => exact iff_of_false (fun h => (nomatch h)) fun h => (nomatch h.2)
      | .ok more => exact ⟨fun h => ⟨hnone, h⟩, And.right⟩
    | some value =>
      have hfound := problems_nil child value (place ++ text "." ++ key) hchild htyped.1
        (hranged.lookup hlookup)
      have hone : (∀ v, some value = some v → Conforms fullmatch Limits.own child v) ↔
          problems fullmatch child value (place ++ text "." ++ key) = .ok [] := by
        rw [hfound]
        exact ⟨fun h => h value rfl, fun h v hv => Option.some.inj hv ▸ h⟩
      dsimp only
      rw [hone]
      match problems fullmatch child value (place ++ text "." ++ key) with
      | .error e => exact iff_of_false (fun h => (nomatch h)) fun h => (nomatch h.1)
      | .ok found =>
        match propertyProblems fullmatch rest fields place with
        | .error e => exact iff_of_false (fun h => (nomatch h)) fun h => (nomatch h.2)
        | .ok more => simp only [Except.ok.injEq, List.append_eq_nil_iff]

end

end

/-- **The answer schema is closed at every depth.**  For an accepted schema whose bounds are
numbers, and a value whose numbers are in the range of floats, no problem is found if and only if
the value fits the schema and the module's own limits. -/
theorem answer_schema_closed (fullmatch : Text → Text → Bool) (schema : Schema) (value : Value)
    (place : Text) (hcheck : checkSchema schema = .ok ()) (htyped : WellTyped schema)
    (hranged : Ranged value) :
    problems fullmatch schema value place = .ok [] ↔
      Conforms fullmatch Limits.own schema value :=
  problems_nil schema value place hcheck htyped hranged

/-- A list of up to three findings, each with a text and a score. -/
def findingsSchema : Schema :=
  .array (some (.object
    [(text "text", .string (some (.int 10)) none none []),
      (text "score", .number true (some (.int 0)) (some (.int 5)) [])]
    [text "text"] (some false) [])) (some (.int 3)) []

/-- One finding. -/
def findingsValue : Value :=
  .arr [.obj [(text "text", .str (text "disk")), (text "score", .num (.int 4))]]

theorem answer_schema_closed_findings :
    problems (fun _ _ => true) findingsSchema findingsValue (text "$") = .ok [] ↔
      Conforms (fun _ _ => true) Limits.own findingsSchema findingsValue :=
  answer_schema_closed _ findingsSchema findingsValue (text "$") (by decide +kernel)
    ⟨fun h => (nomatch h), fun h => (nomatch h),
      ⟨fun h => (nomatch h), fun h => (nomatch h)⟩, trivial⟩
    ⟨⟨trivial, (by decide +kernel : ¬Overflows 4), trivial⟩, trivial⟩

/-- A schema that allows two hundred items. -/
def longListSchema : Schema := .array (some (.boolean [])) (some (.int 200)) []

/-- A list of 101 items fits what the schema says, and is refused by the module's own limit. -/
theorem problems_of_long_list :
    checkSchema longListSchema = .ok () ∧ WellTyped longListSchema ∧
      Ranged (.arr (List.replicate 101 (.bool true))) ∧
      Conforms (fun _ _ => true) {} longListSchema (.arr (List.replicate 101 (.bool true))) ∧
      problems (fun _ _ => true) longListSchema (.arr (List.replicate 101 (.bool true)))
        (text "$") ≠ .ok [] := by
  refine ⟨by decide +kernel, ⟨by decide, trivial⟩, ?_, .array (fun most hmost => ?_)
    (fun most hmost => (nomatch hmost)) fun v hv => ?_, ?_⟩
  · show RangedItems (List.replicate 101 (.bool true))
    simp only [List.replicate, RangedItems, Ranged, and_self]
  · obtain rfl := Option.some.inj hmost
    decide
  · rw [List.eq_of_mem_replicate hv]
    exact .boolean
  · rw [longListSchema, problems, if_pos (by decide)]
    exact fun h => List.cons_ne_nil _ _ (Except.ok.inj h)

end L1Agent
