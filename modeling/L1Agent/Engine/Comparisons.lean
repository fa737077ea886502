import L1Agent.Engine.Grammar

/-! # What is compared

An evaluation that ends with a truth value has compared values of like type only
(`evaluate_like`), and every other one raises ExpressionError (`evaluate_error`).  `in` and `==`
are two operators with two rules: `==` keeps booleans and numbers apart, and `in` leaves that to
the host language, where a boolean is the number 0 or 1.  So `1 in [true]` is true, and `1 == true`
is an error.  `isIn_iff_equals` says exactly when the two agree.

`evaluate_closed` puts the three together: what a truth value comes from, how everything else ends,
and when `in` and `==` agree.  `isIn_without_equal` is the list with a boolean in it.
-/
namespace L1Agent.Expressions
open LongestMatch
variable {context : Json}

/-- The values are of like type for the operator. -/
def Like : Comparison → Json → Json → Prop
  | .symbol (.order _), x, y =>
    (isNumber x = true ∧ isNumber y = true) ∨ (∃ s t, x = .str s ∧ y = .str t)
  | .symbol _, x, y =>
    x = .null ∨ y = .null ∨ (isNumber x = true ∧ isNumber y = true) ∨ x.typeName = y.typeName
  | _, x, y => (∃ items, y = .arr items) ∨ (∃ s t, x = .str s ∧ y = .str t)

/-- The comparisons that an evaluation makes, in order. -/
def comparisons (context : Json) : Expr Rat → List (Comparison × Json × Json)
  | .scalar _ | .list _ | .path _ _ => []
  | .not a => comparisons context a
  | .and a b =>
    comparisons context a ++
      match eval context a with
      | .ok (.bool true) => comparisons context b
      | _ => []
  | .or a b =>
    comparisons context a ++
      match eval context a with
      | .ok (.bool false) => comparisons context b
      | _ => []
  | .cmp op a b =>
    comparisons context a ++
      match eval context a with
      | .ok x => comparisons context b ++
        match eval context b with
        | .ok y => [(op, x, y)]
        | _ => []
      | _ => []

/-! ## Every comparison made is between values of like type -/

theorem map_not_ok {x : Except Exn Bool} {b : Bool} (h : x.map not = .ok b) : x = .ok !b := by
  cases x with
  | error e => cases h
  | ok c =>
    cases h
    rw [Bool.not_not]

theorem map_not_error {x : Except Exn Bool} {e : Exn} (h : x.map not = .error e) :
    x = .error e := by
  cases x with
  | error e' =>
    cases h
    rfl
  | ok c => cases h

theorem contains_like {x y : Json} {b : Bool} (h : contains x y = .ok b) : Like .isIn x y := by
  unfold contains at h
  split at h
  · exact .inl ⟨_, rfl⟩
  · split at h
    · exact .inr ⟨_, _, rfl, rfl⟩
    · cases h
  · cases h

theorem equals_like {x y : Json} {b : Bool} (h : equals x y = .ok b) :
    Like (.symbol .eq) x y := by
  unfold equals at h
  by_cases hlike : x = .null ∨ y = .null ∨ (isNumber x ∧ isNumber y) ∨ x.typeName = y.typeName
  · exact hlike
  · rw [if_neg hlike] at h
    cases h

theorem orders_like {o : Order} {x y : Json} {b : Bool} (h : orders o x y = .ok b) :
    Like (.symbol (.order o)) x y := by
  unfold orders at h
  split at h
  · exact .inr ⟨_, _, rfl, rfl⟩
  · split at h
    · rename_i hnumbers _ _
      exact .inl (Bool.and_eq_true_iff.mp hnumbers)
    · cases h

theorem compareValues_like {op : Comparison} {x y : Json} {b : Bool}
    (h : compareValues op x y = .ok b) : Like op x y := by
  unfold compareValues at h
  split at h
  · exact contains_like h
  · exact contains_like (map_not_ok h)
  · exact equals_like h
  · exact equals_like (map_not_ok h)
  · exact orders_like h

theorem asBool_ok {value : Json} {what : String} {b : Bool} (h : asBool value what = .ok b) :
    value = .bool b := by
  unfold asBool at h
  split at h
  · cases h
    rfl
  · cases h

/-- What was compared on the way to a value was of like type. -/
theorem eval_like {tree : Expr Rat} {value : Json} (h : eval context tree = .ok value) :
    ∀ c ∈ comparisons context tree, Like c.1 c.2.1 c.2.2 := by
  induction tree generalizing value with
  | scalar v => exact fun c hc => absurd hc List.not_mem_nil
  | list items => exact fun c hc => absurd hc List.not_mem_nil
  | path root keys => exact fun c hc => absurd hc List.not_mem_nil
  | not a iha =>
    obtain ⟨x, hx, -⟩ := bind_ok h
    exact iha hx
  | and a b iha ihb =>
    obtain ⟨x, hx, hbool⟩ := bind_ok h
    obtain ⟨p, hp, hbranch⟩ := bind_ok hbool
    cases asBool_ok hp
    intro c hc
    unfold comparisons at hc
    rw [hx] at hc
    rcases List.mem_append.mp hc with hc | hc
    · exact iha hx c hc
    · cases p with
      | true =>
        obtain ⟨y, hy, -⟩ := bind_ok hbranch
        exact ihb hy c hc
      | false => cases hc
  | or a b iha ihb =>
    obtain ⟨x, hx, hbool⟩ := bind_ok h
    obtain ⟨p, hp, hbranch⟩ := bind_ok hbool
    cases asBool_ok hp
    intro c hc
    unfold comparisons at hc
    rw [hx] at hc
    rcases List.mem_append.mp hc with hc | hc
    · exact iha hx c hc
    · cases p with
      | true => cases hc
      | false =>
        obtain ⟨y, hy, -⟩ := bind_ok hbranch
        exact ihb hy c hc
  | cmp op a b iha ihb =>
    obtain ⟨x, hx, hright⟩ := bind_ok h
    obtain ⟨y, hy, hcompare⟩ := bind_ok hright
    obtain ⟨p, hp, -⟩ := bind_ok hcompare
    intro c hc
    unfold comparisons at hc
    rw [hx, hy] at hc
    rcases List.mem_append.mp hc with hc | hc
    · exact iha hx c hc
    rcases List.mem_append.mp hc with hc | hc
    · exact ihb hy c hc
    · rw [List.mem_singleton.mp hc]
      exact compareValues_like hp

/-! ## Everything else raises ExpressionError -/

theorem child_error {walked : List Key} {current : Json} {part : Key} {x : Exn}
    (h : child walked current part = .error x) : ∃ message, x = .expression message := by
  unfold child at h
  split at h
  · split at h
    · cases h
    · cases h
      exact ⟨_, rfl⟩
  · cases h
    exact ⟨_, rfl⟩
  · dsimp only at h
    split at h
    · cases h
    · cases h
      exact ⟨_, rfl⟩
  · cases h
    exact ⟨_, rfl⟩

theorem resolve_error {walked : List Key} {current : Json} {keys : List Key} {x : Exn}
    (h : resolve walked current keys = .error x) : ∃ message, x = .expression message := by
  induction keys generalizing walked current with
  | nil => cases h
  | cons part keys ih =>
    rcases bind_error h with hchild | ⟨next, -, h⟩
    · exact child_error hchild
    · exact ih h

theorem contains_error {left right : Json} {x : Exn} (h : contains left right = .error x) :
    ∃ message, x = .expression message := by
  unfold contains at h
  split at h
  · cases h
  · split at h
    · cases h
    · cases h
      exact ⟨_, rfl⟩
  · cases h
    exact ⟨_, rfl⟩

theorem equals_error {left right : Json} {x : Exn} (h : equals left right = .error x) :
    ∃ message, x = .expression message := by
  unfold equals at h
  split at h
  · cases h
  · cases h
    exact ⟨_, rfl⟩

theorem compareValues_error {op : Comparison} {left right : Json} {x : Exn}
    (h : compareValues op left right = .error x) : ∃ message, x = .expression message := by
  unfold compareValues at h
  split at h
  · exact contains_error h
  · exact contains_error (map_not_error h)
  · exact equals_error h
  · exact equals_error (map_not_error h)
  · unfold orders at h
    split at h
    · cases h
    · split at h
      · cases h
      · cases h
        exact ⟨_, rfl⟩

theorem asBool_error {value : Json} {what : String} {x : Exn} (h : asBool value what = .error x) :
    ∃ message, x = .expression message := by
  unfold asBool at h
  split at h
  · cases h
  · cases h
    exact ⟨_, rfl⟩

theorem eval_error {tree : Expr Rat} {x : Exn} (h : eval context tree = .error x) :
    ∃ message, x = .expression message := by
  induction tree generalizing x with
  | scalar v => cases h
  | list items => cases h
  | path root keys => exact resolve_error h
  | not a iha =>
    rcases bind_error h with ha | ⟨value, -, h⟩
    · exact iha ha
    rcases bind_error h with hbool | ⟨b, -, h⟩
    · exact asBool_error hbool
    · cases h
  | and a b iha ihb =>
    rcases bind_error h with ha | ⟨value, -, h⟩
    · exact iha ha
    rcases bind_error h with hbool | ⟨p, -, h⟩
    · exact asBool_error hbool
    cases p with
    | false => cases h
    | true =>
      rcases bind_error h with hb | ⟨value', -, h⟩
      · exact ihb hb
      rcases bind_error h with hbool | ⟨q, -, h⟩
      · exact asBool_error hbool
      · cases h
  | or a b iha ihb =>
    rcases bind_error h with ha | ⟨value, -, h⟩
    · exact iha ha
    rcases bind_error h with hbool | ⟨p, -, h⟩
    · exact asBool_error hbool
    cases p with
    | true => cases h
    | false =>
      rcases bind_error h with hb | ⟨value', -, h⟩
      · exact ihb hb
      rcases bind_error h with hbool | ⟨q, -, h⟩
      · exact asBool_error hbool
      · cases h
  | cmp op a b iha ihb =>
    rcases bind_error h with ha | ⟨value, -, h⟩
    · exact iha ha
    rcases bind_error h with hb | ⟨value', -, h⟩
    · exact ihb hb
    rcases bind_error h with hcmp | ⟨p, -, h⟩
    · exact compareValues_error hcmp
    · cases h

theorem evaluate_error {r : Reader Rat} {text : Json} {x : Exn}
    (h : evaluate r text context = .error x) : ∃ message, x = .expression message := by
  rcases bind_error h with hparse | ⟨tree, -, h⟩
  · exact parse_error hparse
  rcases bind_error h with heval | ⟨value, -, h⟩
  · exact eval_error heval
  · exact asBool_error h

/-- A truth value comes from comparisons between values of like type only. -/
theorem evaluate_like {r : Reader Rat} {text : Json} {b : Bool}
    (h : evaluate r text context = .ok b) :
    ∃ tree, parse r text = .ok tree ∧
      ∀ c ∈ comparisons context tree, Like c.1 c.2.1 c.2.2 := by
  obtain ⟨tree, htree, heval⟩ := bind_ok h
  obtain ⟨value, hvalue, -⟩ := bind_ok heval
  exact ⟨tree, htree, eval_like hvalue⟩

/-! ## Membership and equality -/

/-- One of the values is a boolean, and the other the number that it counts as. -/
def Twin (x e : Json) : Prop :=
  isNumber x ≠ isNumber e ∧ x.number? = e.number? ∧ x.number?.isSome = true

/-- The values are both booleans or both numbers, and they are equal. -/
def Own (x e : Json) : Prop :=
  isNumber x = isNumber e ∧ x.number? = e.number? ∧ x.number?.isSome = true

theorem isIn_iff {x : Json} {items : List Json} :
    compareValues .isIn x (.arr items) = .ok true ↔ ∃ e ∈ items, x.same e = true := by
  show (Except.ok (x.isIn items) : Except Exn Bool) = .ok true ↔ _
  rw [Except.ok.injEq]
  exact List.any_eq_true

theorem equals_eq {x e : Json} (h : Like (.symbol .eq) x e) : equals x e = .ok (x.same e) := by
  have hlike : x = .null ∨ e = .null ∨ (isNumber x = true ∧ isNumber e = true) ∨
      x.typeName = e.typeName := h
  unfold equals
  rw [if_pos hlike]

theorem equals_iff {x e : Json} :
    compareValues (.symbol .eq) x e = .ok true ↔ Like (.symbol .eq) x e ∧ x.same e = true := by
  show equals x e = .ok true ↔ _
  constructor
  · intro h
    have hlike := equals_like h
    rw [equals_eq hlike] at h
    exact ⟨hlike, Except.ok.inj h⟩
  · rintro ⟨hlike, hsame⟩
    rw [equals_eq hlike, hsame]

/-- What counts as a number equals what counts as the same number. -/
theorem same_number {x e : Json} (hx : x.number?.isSome = true) :
    x.same e = true ↔ x.number? = e.number? := by
  have hsame : ∀ p, x.number? = some p → x.same e = e.number?.elim false (p == ·) := by
    intro p hp
    cases x <;> first | (cases hp; cases e <;> rfl) | cases hx
  cases hp : x.number? with
  | none =>
    rw [hp] at hx
    cases hx
  | some p =>
    rw [hsame p hp]
    cases e.number? with
    | none => exact ⟨fun h => absurd h Bool.false_ne_true, by rintro ⟨⟩⟩
    | some q =>
      rw [Option.some.injEq]
      exact beq_iff_eq

/-- What does not count as a number equals values of its own type only. -/
theorem same_typeName {x e : Json} (hx : x.number?.isSome = false) (h : x.same e = true) :
    x.typeName = e.typeName := by
  cases x with
  | bool b => cases hx
  | int n => cases hx
  | float q => cases hx
  | null => cases e <;> simp_all [Json.same, Json.number?, Json.typeName]
  | str s => cases e <;> simp_all [Json.same, Json.number?, Json.typeName]
  | arr items => cases e <;> simp_all [Json.same, Json.number?, Json.typeName]
  | obj fields => cases e <;> simp_all [Json.same, Json.number?, Json.typeName]

/-- Of two values that count as the same number, both are booleans or both are numbers if `==`
compares them. -/
theorem like_number {x e : Json} (hx : x.number?.isSome = true) (h : x.number? = e.number?) :
    Like (.symbol .eq) x e ↔ isNumber x = isNumber e := by
  cases x with
  | bool b => cases e <;> simp_all [Like, Json.number?, isNumber, Json.typeName]
  | int n => cases e <;> simp_all [Like, Json.number?, isNumber, Json.typeName]
  | float q => cases e <;> simp_all [Like, Json.number?, isNumber, Json.typeName]
  | _ => cases hx

/-- `in` and `==` agree on a value and a list when and only when the list holds a number that the
value equals as a boolean, or the other way round, only beside an equal of the value's own kind. -/
theorem isIn_iff_equals (x : Json) (items : List Json) :
    (compareValues .isIn x (.arr items) = .ok true ↔
        ∃ e ∈ items, compareValues (.symbol .eq) x e = .ok true) ↔
      ((∃ e ∈ items, Twin x e) → ∃ e ∈ items, Own x e) := by
  rw [isIn_iff]
  simp only [equals_iff]
  cases hx : x.number?.isSome with
  | false =>
    have hnone : ¬ ∃ e ∈ items, Twin x e := by
      rintro ⟨e, -, -, -, hsome⟩
      rw [hx] at hsome
      cases hsome
    refine ⟨fun _ h => absurd h hnone, fun _ => ⟨?_, ?_⟩⟩
    · rintro ⟨e, he, hsame⟩
      exact ⟨e, he, .inr (.inr (.inr (same_typeName hx hsame))), hsame⟩
    · rintro ⟨e, he, -, hsame⟩
      exact ⟨e, he, hsame⟩
  | true =>
    have hown : ∀ {e}, Like (.symbol .eq) x e ∧ x.same e = true ↔ Own x e := by
      intro e
      rw [same_number hx]
      constructor
      · rintro ⟨hlike, hsame⟩
        exact ⟨(like_number hx hsame).mp hlike, hsame, hx⟩
      · rintro ⟨hkind, hsame, -⟩
        exact ⟨(like_number hx hsame).mpr hkind, hsame⟩
    constructor
    · rintro h ⟨e, he, htwin⟩
      obtain ⟨e', he', hlike⟩ := h.mp ⟨e, he, (same_number hx).mpr htwin.2.1⟩
      exact ⟨e', he', hown.mp hlike⟩
    · intro h
      constructor
      · rintro ⟨e, he, hsame⟩
        by_cases hkind : isNumber x = isNumber e
        · exact ⟨e, he, hown.mpr ⟨hkind, (same_number hx).mp hsame, hx⟩⟩
        · obtain ⟨e', he', hequal⟩ := h ⟨e, he, hkind, (same_number hx).mp hsame, hx⟩
          exact ⟨e', he', hown.mpr hequal⟩
      · rintro ⟨e, he, -, hsame⟩
        exact ⟨e, he, hsame⟩

/-- **Expressions fail closed.**  A truth value comes from comparisons between values of like type
only, and everything else raises ExpressionError; and `in` agrees with `==` exactly where no
boolean is taken for a number, unless an equal of the value's own kind is there as well. -/
theorem evaluate_closed (r : Reader Rat) :
    (∀ text context b, evaluate r text context = .ok b → ∃ tree, parse r text = .ok tree ∧
      ∀ c ∈ comparisons context tree, Like c.1 c.2.1 c.2.2) ∧
    (∀ text context x, evaluate r text context = .error x → ∃ message, x = .expression message) ∧
    (∀ (x : Json) (items : List Json),
      (compareValues .isIn x (.arr items) = .ok true ↔
          ∃ e ∈ items, compareValues (.symbol .eq) x e = .ok true) ↔
        ((∃ e ∈ items, Twin x e) → ∃ e ∈ items, Own x e)) :=
  ⟨fun _ _ _ => evaluate_like, fun _ _ _ => evaluate_error, isIn_iff_equals⟩

/-- A reader for texts without a point. -/
def plainReader : Reader Rat where
  float _ := 0
  repr
    | .str s => s
    | _ => ""

/-- `1 in [true]` is true, and `1 == true` is an error. -/
theorem isIn_without_equal :
    evaluate plainReader (.str "1 in [true]") (.obj []) = .ok true ∧
      evaluate plainReader (.str "1 == true") (.obj []) =
        .error (.expression "cannot compare int with bool") ∧
      ¬ (compareValues .isIn (.int 1) (.arr [.bool true]) = .ok true ↔
        ∃ e ∈ [Json.bool true], compareValues (.symbol .eq) (.int 1) e = .ok true) := by
  refine ⟨by decide +kernel, by decide +kernel, fun h => ?_⟩
  obtain ⟨e, he, hequal⟩ := h.mp (by decide)
  cases List.mem_singleton.mp he
  cases hequal

end L1Agent.Expressions
