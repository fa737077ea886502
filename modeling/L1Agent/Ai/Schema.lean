import L1Agent.Library.Decoded

/-! # The schema of an answer (`ai/schema.py`)

A small, closed subset of JSON Schema.  `checkSchema` refuses a schema that `problems` would not
enforce completely, and `problems` lists why a value does not fit.

A number is tested for being finite by way of its float, so an integer that is too large for one
raises instead of being listed.  `Schema.numbers` are the integers that are tested; for the rest of
a value it does not matter what it is (`problems_isOk`).

That the exceptions are told apart from the findings is `problems_isOk`; what the findings mean is
the subject of `Ai/Conforms.lean`.
-/
namespace L1Agent
open Decoded

/-- `MAX_STRING` -/
def maxString : Nat := 20000

/-- `MAX_ITEMS` -/
def maxSchemaItems : Nat := 100

/-- A schema by its type, with the keywords that it may have.  `extra` are keywords that its type
does not have. -/
inductive Schema where
  | object (properties : List (Text × Schema)) (required : List Text)
      (additionalProperties : Option Bool) (extra : List Text)
  | string (maxLength : Option Number) (enum : Option (List Value)) (pattern : Option Text)
      (extra : List Text)
  | number (integer : Bool) (minimum maximum : Option Number) (extra : List Text)
  | boolean (extra : List Text)
  | array (items : Option Schema) (maxItems : Option Number) (extra : List Text)
  /-- No mapping, or without a type of these. -/
  | unsupported
  deriving Inhabited

/-- `SchemaError` -/
def schemaError : Raised := ⟨"SchemaError"⟩

mutual

/-- Refuse a schema this validator would not enforce completely. -/
def checkSchema : Schema → Except Raised Unit
  | .unsupported => .error schemaError
  | .object properties required additionalProperties extra =>
    if !extra.isEmpty then .error schemaError
    else if additionalProperties ≠ some false then .error schemaError
    else if required.any fun name => !properties.any (·.1 == name) then .error schemaError
    else checkProperties properties
  | .string maxLength enum _ extra =>
    if !extra.isEmpty then .error schemaError
    else if enum.isNone && maxLength.isNone then .error schemaError
    else .ok ()
  | .number _ _ _ extra | .boolean extra =>
    if !extra.isEmpty then .error schemaError else .ok ()
  | .array none _ _ => .error schemaError
  | .array (some items) maxItems extra =>
    if !extra.isEmpty then .error schemaError
    else if maxItems.isNone then .error schemaError
    else checkSchema items

def checkProperties : List (Text × Schema) → Except Raised Unit
  | [] => .ok ()
  | (_, child) :: rest =>
    match checkSchema child with
    | .ok () => checkProperties rest
    | .error e => .error e

end

/-- `count > min(bound, most)` -/
def exceeds (count : Nat) (bound : Number) (most : Nat) : Bool :=
  (bound.min (.int most)).lt (.int count)

/-- What is wrong with the items, each at its place. -/
def itemProblems (child : Value → Text → Except Raised (List Text)) (place : Text) :
    Nat → List Value → Except Raised (List Text)
  | _, [] => .ok []
  | index, item :: items =>
    match child item (place ++ text "[" ++ text (toString index) ++ text "]") with
    | .error e => .error e
    | .ok found =>
      match itemProblems child place (index + 1) items with
      | .error e => .error e
      | .ok more => .ok (found ++ more)

section
variable (fullmatch : Text → Text → Bool)

/-- What is wrong with a text; `fullmatch` is `re.fullmatch`. -/
def textProblems (maxLength : Option Number) (enum : Option (List Value)) (pattern : Option Text)
    (value place : Text) : List Text :=
  if enum.any fun allowed => !allowed.any (Value.isText value) then
    [place ++ text ": not one of the allowed values"]
  else if exceeds value.length (maxLength.getD (.int maxString)) maxString then
    [place ++ text ": too long"]
  else if pattern.any fun pattern => !fullmatch pattern value then
    [place ++ text ": does not match the pattern"]
  else []

/-- What is wrong with a number. -/
def numberProblems (integer : Bool) (minimum maximum : Option Number) (value : Number)
    (place : Text) : Except Raised (List Text) :=
  if integer && !value.isInt then .ok [place ++ text ": not an integer"]
  else match isFinite value with
    | .error e => .error e
    | .ok false => .ok [place ++ text ": not a finite number"]
    | .ok true =>
      if minimum.any fun bound => value.lt bound then .ok [place ++ text ": below the minimum"]
      else if maximum.any fun bound => bound.lt value then
        .ok [place ++ text ": above the maximum"]
      else .ok []

mutual

/-- Why the value does not fit the schema. -/
def problems : Schema → Value → Text → Except Raised (List Text)
  | .object properties required _ _, value, place =>
    match value with
    | .obj fields =>
      match propertyProblems properties fields place with
      | .error e => .error e
      | .ok more => .ok (
        ((fields.filter fun f => !properties.any (·.1 == f.1)).map fun f =>
          place ++ text ": '" ++ f.1 ++ text "' is not allowed") ++
        ((required.filter fun k => !fields.any (·.1 == k)).map fun k =>
          place ++ text ": '" ++ k ++ text "' is required") ++ more)
    | _ => .ok [place ++ text ": not an object"]
  | .string maxLength enum pattern _, value, place =>
    match value with
    | .str t => .ok (textProblems fullmatch maxLength enum pattern t place)
    | _ => .ok [place ++ text ": not a string"]
  | .number integer minimum maximum _, value, place =>
    match value with
    | .num n => numberProblems integer minimum maximum n place
    | _ => .ok [place ++ text ": not a number"]
  | .boolean _, value, place =>
    match value with
    | .bool _ => .ok []
    | _ => .ok [place ++ text ": not a boolean"]
  | .array items maxItems _, value, place =>
    match value with
    | .arr vs =>
      match maxItems with
      | none => .error keyError
      | some maxItems =>
        if exceeds vs.length maxItems maxSchemaItems then .ok [place ++ text ": too many items"]
        else match items with
          | none => if vs.isEmpty then .ok [] else .error keyError
          | some child => itemProblems (problems child) place 0 vs
    | _ => .ok [place ++ text ": not an array"]
  | .unsupported, _, place => .ok [place ++ text ": unsupported type"]

/-- Why the fields do not fit the properties. -/
def propertyProblems : List (Text × Schema) → List (Text × Value) → Text →
    Except Raised (List Text)
  | [], _, _ => .ok []
  | (key, child) :: rest, fields, place =>
    match (match fields.lookup key with
      | some value => problems child value (place ++ text "." ++ key)
      | none => .ok []) with
    | .error e => .error e
    | .ok found =>
      match propertyProblems rest fields place with
      | .error e => .error e
      | .ok more => .ok (found ++ more)

end

end

/-! ## What raises -/

mutual

/-- The integers of the value that are tested for being finite. -/
def Schema.numbers : Schema → Value → List Int
  | .object properties _ _ _, value =>
    match value with
    | .obj fields => Schema.propertyNumbers properties fields
    | _ => []
  | .number .., value =>
    match value with
    | .num (.int n) => [n]
    | _ => []
  | .array (some child) (some maxItems) _, value =>
    match value with
    | .arr vs =>
      if exceeds vs.length maxItems maxSchemaItems then [] else vs.flatMap (Schema.numbers child)
    | _ => []
  | _, _ => []

def Schema.propertyNumbers : List (Text × Schema) → List (Text × Value) → List Int
  | [], _ => []
  | (key, child) :: rest, fields =>
    (match fields.lookup key with
      | some value => Schema.numbers child value
      | none => []) ++ Schema.propertyNumbers rest fields

end

section
variable {fullmatch : Text → Text → Bool} {place : Text}

theorem checkProperties_cons {key : Text} {child : Schema} {rest : List (Text × Schema)} :
    checkProperties ((key, child) :: rest) = .ok () ↔
      checkSchema child = .ok () ∧ checkProperties rest = .ok () := by
  rw [checkProperties]
  cases hchild : checkSchema child with
  | ok u => exact ⟨fun h => ⟨rfl, h⟩, And.right⟩
  | error e => exact ⟨fun h => (nomatch h), fun h => (nomatch h.1)⟩

/-- An accepted schema of objects has accepted properties. -/
theorem checkSchema_object {properties : List (Text × Schema)} {required extra : List Text}
    {additionalProperties : Option Bool}
    (h : checkSchema (.object properties required additionalProperties extra) = .ok ()) :
    checkProperties properties = .ok () := by
  rw [checkSchema] at h
  split at h
  · cases h
  · split at h
    · cases h
    · split at h
      · cases h
      · exact h

/-- An accepted schema of arrays says what the items are, and how many. -/
theorem checkSchema_array {items : Option Schema} {maxItems : Option Number} {extra : List Text}
    (h : checkSchema (.array items maxItems extra) = .ok ()) :
    ∃ child most, items = some child ∧ maxItems = some most ∧ checkSchema child = .ok () := by
  cases items with
  | none => cases h
  | some child =>
    rw [checkSchema] at h
    split at h
    · cases h
    · cases maxItems with
      | none => cases h
      | some most => exact ⟨child, most, rfl, rfl, by simpa using h⟩

/-- A number raises when it has no float; a float in the place of an integer is listed before. -/
theorem numberProblems_isOk {integer : Bool} {minimum maximum : Option Number} {n : Number} :
    (numberProblems integer minimum maximum n place).isOk = true ↔ ∀ i, n = .int i → ¬Overflows i := by
  cases n with
  | float x =>
    refine iff_of_true ?_ (fun i h => (nomatch h))
    cases integer with
    | true => rfl
    | false =>
      cases x with
      | finite q =>
        simp only [numberProblems, isFinite, Bool.false_and, Bool.false_eq_true, if_false]
        split
        · rfl
        · split
          · rfl
          · rfl
      | infinite negative => rfl
      | nan => rfl
  | int i =>
    have hint : (integer && !(Number.int i).isInt) = false := by simp [Number.isInt]
    rw [numberProblems, if_neg (by rw [hint]; exact Bool.false_ne_true), isFinite]
    by_cases hover : Overflows i
    · rw [if_pos hover]
      exact iff_of_false Bool.false_ne_true fun h => h i rfl hover
    · rw [if_neg hover]
      refine iff_of_true ?_ (fun j hj => ?_)
      · dsimp only
        split
        · rfl
        · split
          · rfl
          · rfl
      · cases hj
        exact hover

theorem itemProblems_isOk {child : Value → Text → Except Raised (List Text)} {P : Value → Prop}
    (h : ∀ v place, (child v place).isOk = true ↔ P v) (index : Nat) (vs : List Value) :
    (itemProblems child place index vs).isOk = true ↔ ∀ v ∈ vs, P v := by
  induction vs generalizing index with
  | nil => exact iff_of_true rfl (by simp)
  | cons v vs ih =>
    have hv := h v (place ++ text "[" ++ text (toString index) ++ text "]")
    have hvs := ih (index + 1)
    rw [itemProblems, List.forall_mem_cons, ← hv, ← hvs]
    cases child v (place ++ text "[" ++ text (toString index) ++ text "]") with
    | error e => exact iff_of_false Bool.false_ne_true fun h => Bool.false_ne_true h.1
    | ok found =>
      cases itemProblems child place (index + 1) vs with
      | error e => exact iff_of_false Bool.false_ne_true fun h => Bool.false_ne_true h.2
      | ok more => exact iff_of_true rfl ⟨rfl, rfl⟩

mutual

/-- **A value is gone through to the end** unless an integer that is tested has no float. -/
theorem problems_isOk : ∀ (schema : Schema) (value : Value) (place : Text),
    checkSchema schema = .ok () → ((problems fullmatch schema value place).isOk = true ↔
      ∀ n ∈ schema.numbers value, ¬Overflows n)
  | .object properties required additionalProperties extra, value, place, h => by
    cases value with
    | obj fields =>
      have hproperties := propertyProblems_isOk properties fields place (checkSchema_object h)
      rw [problems, Schema.numbers]
      rw [← hproperties]
      cases propertyProblems fullmatch properties fields place with
      | error e => exact Iff.rfl
      | ok more => exact Iff.rfl
    | null | bool _ | num _ | str _ | arr _ => exact iff_of_true rfl (by simp [Schema.numbers])
  | .string maxLength enum pattern extra, value, place, _ => by
    refine iff_of_true ?_ (by cases value <;> simp [Schema.numbers])
    cases value with
    | str t => rfl
    | null | bool _ | num _ | arr _ | obj _ => rfl
  | .number integer minimum maximum extra, value, place, _ => by
    cases value with
    | num n =>
      rw [problems, numberProblems_isOk]
      cases n with
      | int i => simp [Schema.numbers]
      | float x => simp [Schema.numbers]
    | null | bool _ | str _ | arr _ | obj _ => exact iff_of_true rfl (by simp [Schema.numbers])
  | .boolean extra, value, place, _ => by
    refine iff_of_true ?_ (by cases value <;> simp [Schema.numbers])
    cases value with
    | bool b => rfl
    | null | num _ | str _ | arr _ | obj _ => rfl
  | .array none maxItems extra, value, place, h => by cases h
  | .array (some child) maxItems extra, value, place, h => by
    obtain ⟨child', most, heq, rfl, hchild⟩ := checkSchema_array h
    cases heq
    cases value with
    | arr vs =>
      rw [problems, Schema.numbers]
      by_cases hlong : exceeds vs.length most maxSchemaItems = true
      · rw [if_pos hlong, if_pos hlong]
        exact iff_of_true rfl (by simp)
      · rw [if_neg hlong, if_neg hlong,
          itemProblems_isOk (fun v place => problems_isOk child v place hchild)]
        simp only [List.mem_flatMap, forall_exists_index, and_imp]
        exact ⟨fun h n v hv hn => h v hv n hn, fun h v hv n hn => h n v hv hn⟩
    | null | bool _ | num _ | str _ | obj _ => exact iff_of_true rfl (by simp [Schema.numbers])
  | .unsupported, value, place, h => by cases h

theorem propertyProblems_isOk : ∀ (properties : List (Text × Schema))
    (fields : List (Text × Value)) (place : Text), checkProperties properties = .ok () →
    ((propertyProblems fullmatch properties fields place).isOk = true ↔
      ∀ n ∈ Schema.propertyNumbers properties fields, ¬Overflows n)
  | [], fields, place, _ => iff_of_true rfl (by simp [Schema.propertyNumbers])
  | (key, child) :: rest, fields, place, h => by
    obtain ⟨hchild, hrest⟩ := checkProperties_cons.mp h
    have hmore := propertyProblems_isOk rest fields place hrest
    rw [propertyProblems, Schema.propertyNumbers, List.forall_mem_append, ← hmore]
    cases hlookup : fields.lookup key with
    | none =>
      cases propertyProblems fullmatch rest fields place with
      | error e => exact iff_of_false Bool.false_ne_true fun h => Bool.false_ne_true h.2
      | ok more => exact iff_of_true rfl ⟨by simp, rfl⟩
    | some value =>
      have hfound := problems_isOk child value (place ++ text "." ++ key) hchild
      dsimp only
      rw [← hfound]
      cases problems fullmatch child value (place ++ text "." ++ key) with
      | error e => exact iff_of_false Bool.false_ne_true fun h => Bool.false_ne_true h.1
      | ok found =>
        cases propertyProblems fullmatch rest fields place with
        | error e => exact iff_of_false Bool.false_ne_true fun h => Bool.false_ne_true h.2
        | ok more => exact iff_of_true rfl ⟨rfl, rfl⟩

end

end

end L1Agent
