import L1Agent.Engine.Lexemes

/-! # The grammar of expressions

`Derives` is the documented grammar, with the tree of each derivation: a repetition
`and ("or" and)*` groups to the left.  The parser consumes a derivation (`run_sound`), it finds
one wherever what follows does not go on with it (`run_complete`), and its depth is never reached
(`run_error`).  So a text is accepted when and only when the grammar generates it (`parse_iff`),
and with one tree only (`derives_unique`).

`parse_exact` states it from the text on: the parser gives a tree when and only when the text is
not too long, is cut into tokens, and these have a derivation, which is then of this tree.
-/
namespace L1Agent.Expressions
open LongestMatch
variable {F : Type} {r : Reader F}

/-- The phrases: `expr` is `or`, and `orMore a` is `("or" and)*` after `a`. -/
inductive Part (F : Type) where
  | or
  | orMore (first : Expr F)
  | and
  | andMore (first : Expr F)
  | unary
  | compare
  | operand

/-- The scalar literals. -/
inductive Literal : Token F → Scalar F → Prop
  | lit (v : Scalar F) : Literal (.lit v) v
  | true : Literal (.kw .true) (.bool true)
  | false : Literal (.kw .false) (.bool false)
  | null : Literal (.kw .null) .null

/-- One or more literals, with commas between them. -/
inductive Elements : List (Token F) → List (Scalar F) → Prop
  | last {t : Token F} {v : Scalar F} (h : Literal t v) : Elements [t] [v]
  | more {t : Token F} {v : Scalar F} {ts : List (Token F)} {vs : List (Scalar F)}
      (h : Literal t v) (hrest : Elements ts vs) : Elements (t :: .punct .comma :: ts) (v :: vs)

/-- `"." NAME`; the name may be a keyword. -/
inductive Segment : Token F → Key → Prop
  | name (s : String) : Segment (.name s) (.name s)
  | keyword (k : Keyword) : Segment (.kw k) (.name k.text)

/-- `"[" (string | integer) "]"` -/
inductive Index : Token F → Key → Prop
  | str (s : String) : Index (.lit (.str s)) (.name s)
  | int (n : Int) : Index (.lit (.int n)) (.index n)

/-- A path after its first name. -/
inductive Segments : List (Token F) → List Key → Prop
  | done : Segments [] []
  | dot {t : Token F} {key : Key} {ts : List (Token F)} {keys : List Key} (h : Segment t key)
      (hrest : Segments ts keys) : Segments (.punct .dot :: t :: ts) (key :: keys)
  | index {t : Token F} {key : Key} {ts : List (Token F)} {keys : List Key} (h : Index t key)
      (hrest : Segments ts keys) :
      Segments (.punct .openBracket :: t :: .punct .closeBracket :: ts) (key :: keys)

/-- `OP` -/
inductive Operator : List (Token F) → Comparison → Prop
  | symbol (s : Symbol) : Operator [.op s] (.symbol s)
  | isIn : Operator [.kw .in] .isIn
  | notIn : Operator [.kw .not, .kw .in] .notIn

/-- The phrase generates the tokens, with this tree. -/
inductive Derives : Part F → List (Token F) → Expr F → Prop
  | or {us vs : List (Token F)} {a e : Expr F} (ha : Derives .and us a)
      (hmore : Derives (.orMore a) vs e) : Derives .or (us ++ vs) e
  | orEnd {a : Expr F} : Derives (.orMore a) [] a
  | orMore {us vs : List (Token F)} {a b e : Expr F} (hb : Derives .and us b)
      (hmore : Derives (.orMore (.or a b)) vs e) : Derives (.orMore a) (.kw .or :: (us ++ vs)) e
  | and {us vs : List (Token F)} {a e : Expr F} (ha : Derives .unary us a)
      (hmore : Derives (.andMore a) vs e) : Derives .and (us ++ vs) e
  | andEnd {a : Expr F} : Derives (.andMore a) [] a
  | andMore {us vs : List (Token F)} {a b e : Expr F} (hb : Derives .unary us b)
      (hmore : Derives (.andMore (.and a b)) vs e) :
      Derives (.andMore a) (.kw .and :: (us ++ vs)) e
  | not {us : List (Token F)} {a : Expr F} (ha : Derives .unary us a) :
      Derives .unary (.kw .not :: us) (.not a)
  | compared {us : List (Token F)} {a : Expr F} (ha : Derives .compare us a) :
      Derives .unary us a
  | cmp {us os vs : List (Token F)} {op : Comparison} {a b : Expr F} (ha : Derives .operand us a)
      (hop : Operator os op) (hb : Derives .operand vs b) :
      Derives .compare (us ++ (os ++ vs)) (.cmp op a b)
  | alone {us : List (Token F)} {a : Expr F} (ha : Derives .operand us a) : Derives .compare us a
  | scalar {t : Token F} {v : Scalar F} (h : Literal t v) : Derives .operand [t] (.scalar v)
  | empty : Derives .operand [.punct .openBracket, .punct .closeBracket] (.list [])
  | list {us : List (Token F)} {vs : List (Scalar F)} (h : Elements us vs) :
      Derives .operand (.punct .openBracket :: (us ++ [.punct .closeBracket])) (.list vs)
  | path {root : String} {us : List (Token F)} {keys : List Key} (h : Segments us keys) :
      Derives .operand (.name root :: us) (.path root keys)
  | group {us : List (Token F)} {a : Expr F} (ha : Derives .or us a) :
      Derives .operand (.punct .openParen :: (us ++ [.punct .closeParen])) a

/-! ## What follows a phrase -/

/-- How loosely a token binds that goes on with a phrase; 4 for one that goes on with none. -/
def looseness : Token F → Nat
  | .punct .dot | .punct .openBracket => 0
  | .op _ | .kw .in | .kw .not => 1
  | .kw .and => 2
  | .kw .or => 3
  | _ => 4

namespace Part

/-- The loosest token that goes on with the phrase. -/
def level : Part F → Nat
  | operand => 0
  | compare | unary => 1
  | and | andMore _ => 2
  | or | orMore _ => 3

/-- How deep the descent from the phrase goes to the next token, and no deeper. -/
def descent : Part F → Nat
  | operand | orMore _ | andMore _ => 1
  | compare => 2
  | unary => 3
  | and => 4
  | or => 5

/-- What follows does not go on with the phrase. -/
def EndsAt (part : Part F) (rest : List (Token F)) : Prop :=
  ∀ t ∈ rest.head?, part.level < looseness t

end Part

theorem endsAt_mono {part part' : Part F} {rest : List (Token F)} (h : part.EndsAt rest)
    (hlevel : part'.level ≤ part.level) : part'.EndsAt rest :=
  fun t ht => lt_of_le_of_lt hlevel (h t ht)

theorem endsAt_cons {part : Part F} {t : Token F} {rest : List (Token F)}
    (h : part.level < looseness t) : part.EndsAt (t :: rest) := by
  intro t' ht'
  cases Option.mem_some_iff.mp ht'
  exact h

theorem lt_looseness {part : Part F} {t : Token F} {rest : List (Token F)}
    (h : part.EndsAt (t :: rest)) : part.level < looseness t := h t rfl

/-! ## Literals, lists and paths -/

theorem scalar?_iff {t : Token F} {v : Scalar F} : scalar? t = some v ↔ Literal t v := by
  constructor
  · intro h
    unfold scalar? at h
    split at h
    · cases h; exact .lit _
    · cases h; exact .true
    · cases h; exact .false
    · cases h; exact .null
    · cases h
  · rintro (_ | _ | _ | _) <;> rfl

theorem segment?_iff {t : Token F} {key : Key} : segment? t = some key ↔ Segment t key := by
  constructor
  · intro h
    unfold segment? at h
    split at h
    · cases h; exact .name _
    · cases h; exact .keyword _
    · cases h
  · rintro (_ | _) <;> rfl

theorem index?_iff {t : Token F} {key : Key} : index? t = some key ↔ Index t key := by
  constructor
  · intro h
    unfold index? at h
    split at h
    · cases h; exact .str _
    · cases h; exact .int _
    · cases h
  · rintro (_ | _) <;> rfl

theorem bind_ok {α β : Type} {x : Except Exn α} {f : α → Except Exn β} {b : β}
    (h : (x >>= f) = .ok b) : ∃ a, x = .ok a ∧ f a = .ok b := by
  cases x with
  | error e => cases h
  | ok a => exact ⟨a, rfl, h⟩

theorem bind_error {α β : Type} {x : Except Exn α} {f : α → Except Exn β} {e : Exn}
    (h : (x >>= f) = .error e) : x = .error e ∨ ∃ a, x = .ok a ∧ f a = .error e := by
  cases x with
  | error e' => cases h; exact .inl rfl
  | ok a => exact .inr ⟨a, rfl, h⟩

theorem listItems_sound {ts rest : List (Token F)} {vs : List (Scalar F)}
    (h : listItems r ts = .ok (vs, rest)) :
    ∃ us, ts = us ++ .punct .closeBracket :: rest ∧ Elements us vs := by
  fun_induction listItems r ts generalizing vs rest with
  | case1 => cases h
  | case2 => cases h
  | case3 t v hv rest' =>
    cases h
    exact ⟨[t], rfl, .last (scalar?_iff.mp hv)⟩
  | case4 t v hv rest' ih =>
    obtain ⟨⟨vs', rest''⟩, hrest, h⟩ := bind_ok h
    cases h
    obtain ⟨us, rfl, helements⟩ := ih hrest
    exact ⟨_, rfl, .more (scalar?_iff.mp hv) helements⟩
  | case5 => cases h

theorem listItems_complete {us : List (Token F)} {vs : List (Scalar F)} (h : Elements us vs)
    (rest : List (Token F)) :
    listItems r (us ++ .punct .closeBracket :: rest) = .ok (vs, rest) := by
  induction h with
  | last h =>
    rw [List.singleton_append, listItems.eq_2, scalar?_iff.mpr h]
  | more h _ ih =>
    rw [List.cons_append, List.cons_append, listItems.eq_2, scalar?_iff.mpr h]
    show (listItems r _ >>= _) = _
    rw [ih]
    rfl

theorem listItems_error {ts : List (Token F)} {e : Exn} (h : listItems r ts = .error e) :
    ∃ message, e = .expression message := by
  fun_induction listItems r ts with
  | case1 => cases h; exact ⟨_, rfl⟩
  | case2 => cases h; exact ⟨_, rfl⟩
  | case3 => cases h
  | case4 t v hv rest' ih =>
    rcases bind_error h with h | ⟨_, -, h⟩
    · exact ih h
    · cases h
  | case5 => cases h; exact ⟨_, rfl⟩

theorem pathKeys_sound {ts rest : List (Token F)} {keys : List Key}
    (h : pathKeys r ts = .ok (keys, rest)) : ∃ us, ts = us ++ rest ∧ Segments us keys := by
  fun_induction pathKeys r ts generalizing keys rest with
  | case1 => cases h
  | case2 t rest' key hkey ih =>
    obtain ⟨⟨keys', rest''⟩, hrest, h⟩ := bind_ok h
    cases h
    obtain ⟨us, rfl, hsegments⟩ := ih hrest
    exact ⟨_, rfl, .dot (segment?_iff.mp hkey) hsegments⟩
  | case3 => cases h
  | case4 => cases h
  | case5 t key hkey rest' ih =>
    obtain ⟨⟨keys', rest''⟩, hrest, h⟩ := bind_ok h
    cases h
    obtain ⟨us, rfl, hsegments⟩ := ih hrest
    exact ⟨_, rfl, .index (index?_iff.mp hkey) hsegments⟩
  | case6 => cases h
  | case7 => cases h
  | case8 =>
    cases h
    exact ⟨[], rfl, .done⟩

/-- A path ends where neither a dot nor a bracket follows. -/
theorem pathKeys_end {rest : List (Token F)} (h : Part.operand.EndsAt rest) :
    pathKeys r rest = .ok ([], rest) := by
  cases rest with
  | nil => rfl
  | cons t rest =>
    have ht := lt_looseness h
    cases t with
    | punct p =>
      cases p with
      | dot => exact absurd ht (Nat.lt_irrefl 0)
      | openBracket => exact absurd ht (Nat.lt_irrefl 0)
      | _ => rfl
    | _ => rfl

theorem pathKeys_complete {us rest : List (Token F)} {keys : List Key} (h : Segments us keys)
    (hrest : Part.operand.EndsAt rest) : pathKeys r (us ++ rest) = .ok (keys, rest) := by
  induction h with
  | done => exact pathKeys_end hrest
  | dot h _ ih =>
    rw [List.cons_append, List.cons_append, pathKeys.eq_1, segment?_iff.mpr h]
    show (pathKeys r _ >>= _) = _
    rw [ih]
    rfl
  | index h _ ih =>
    rw [List.cons_append, List.cons_append, List.cons_append, pathKeys.eq_3, index?_iff.mpr h]
    show (pathKeys r _ >>= _) = _
    rw [ih]
    rfl

theorem pathKeys_error {ts : List (Token F)} {e : Exn} (h : pathKeys r ts = .error e) :
    ∃ message, e = .expression message := by
  fun_induction pathKeys r ts with
  | case1 => cases h; exact ⟨_, rfl⟩
  | case2 t rest' key hkey ih =>
    rcases bind_error h with h | ⟨_, -, h⟩
    · exact ih h
    · cases h
  | case3 => cases h; exact ⟨_, rfl⟩
  | case4 => cases h; exact ⟨_, rfl⟩
  | case5 t key hkey rest' ih =>
    rcases bind_error h with h | ⟨_, -, h⟩
    · exact ih h
    · cases h
  | case6 => cases h; exact ⟨_, rfl⟩
  | case7 => cases h; exact ⟨_, rfl⟩
  | case8 => cases h

/-! ## The descent -/

/-- The function that reads the phrase. -/
def run (r : Reader F) (depth : Nat) :
    Part F → List (Token F) → Except Exn (Expr F × List (Token F))
  | .or, ts => orExpr r depth ts
  | .orMore a, ts => orMore r depth a ts
  | .and, ts => andExpr r depth ts
  | .andMore a, ts => andMore r depth a ts
  | .unary, ts => unary r depth ts
  | .compare, ts => comparison r depth ts
  | .operand, ts => operand r depth ts

theorem run_zero (part : Part F) (ts : List (Token F)) : run r 0 part ts = .error tooDeep := by
  cases part <;> rfl

/-- What a function consumes is a derivation of its phrase. -/
def Sound (r : Reader F) (depth : Nat) : Prop :=
  ∀ (part : Part F) {ts rest : List (Token F)} {e : Expr F},
    run r depth part ts = .ok (e, rest) → ∃ us, ts = us ++ rest ∧ Derives part us e

theorem orMore_sound {depth : Nat} (hsound : Sound r depth) {a e : Expr F}
    {ts rest : List (Token F)} (h : orMore r (depth + 1) a ts = .ok (e, rest)) :
    ∃ us, ts = us ++ rest ∧ Derives (.orMore a) us e := by
  unfold orMore at h
  split at h
  · cases ‹_ = 0›
  · rename_i heq
    cases heq
    obtain ⟨⟨b, ts'⟩, hb, hmore⟩ := bind_ok h
    obtain ⟨us, rfl, hus⟩ := hsound .and hb
    obtain ⟨vs, rfl, hvs⟩ := hsound (.orMore _) hmore
    exact ⟨_, by rw [List.cons_append, List.append_assoc], .orMore hus hvs⟩
  · cases h
    exact ⟨[], rfl, .orEnd⟩

theorem andMore_sound {depth : Nat} (hsound : Sound r depth) {a e : Expr F}
    {ts rest : List (Token F)} (h : andMore r (depth + 1) a ts = .ok (e, rest)) :
    ∃ us, ts = us ++ rest ∧ Derives (.andMore a) us e := by
  unfold andMore at h
  split at h
  · cases ‹_ = 0›
  · rename_i heq
    cases heq
    obtain ⟨⟨b, ts'⟩, hb, hmore⟩ := bind_ok h
    obtain ⟨us, rfl, hus⟩ := hsound .unary hb
    obtain ⟨vs, rfl, hvs⟩ := hsound (.andMore _) hmore
    exact ⟨_, by rw [List.cons_append, List.append_assoc], .andMore hus hvs⟩
  · cases h
    exact ⟨[], rfl, .andEnd⟩

theorem unary_sound {depth : Nat} (hsound : Sound r depth) {e : Expr F}
    {ts rest : List (Token F)} (h : unary r (depth + 1) ts = .ok (e, rest)) :
    ∃ us, ts = us ++ rest ∧ Derives .unary us e := by
  unfold unary at h
  split at h
  · cases ‹_ = 0›
  · rename_i heq
    cases heq
    obtain ⟨⟨a, ts'⟩, ha, hmore⟩ := bind_ok h
    cases hmore
    obtain ⟨us, rfl, hus⟩ := hsound .unary ha
    exact ⟨_, rfl, .not hus⟩
  · rename_i heq _
    cases heq
    obtain ⟨us, rfl, hus⟩ := hsound .compare h
    exact ⟨us, rfl, .compared hus⟩

/-- The right side of a comparison, after its operator. -/
theorem right_sound {depth : Nat} (hsound : Sound r depth) {op : Comparison} {a e : Expr F}
    {us os ts rest : List (Token F)} (ha : Derives .operand us a) (hop : Operator os op)
    (h : (operand r depth ts >>= fun p => pure (Expr.cmp op a p.1, p.2)) = .ok (e, rest)) :
    ∃ vs, us ++ (os ++ ts) = vs ++ rest ∧ Derives .compare vs e := by
  obtain ⟨⟨b, ts'⟩, hb, hmore⟩ := bind_ok h
  cases hmore
  obtain ⟨vs, rfl, hvs⟩ := hsound .operand hb
  exact ⟨_, by simp only [List.append_assoc], .cmp ha hop hvs⟩

theorem comparison_sound {depth : Nat} (hsound : Sound r depth) {e : Expr F}
    {ts rest : List (Token F)} (h : comparison r (depth + 1) ts = .ok (e, rest)) :
    ∃ us, ts = us ++ rest ∧ Derives .compare us e := by
  unfold comparison at h
  obtain ⟨⟨a, ts'⟩, ha, hmore⟩ := bind_ok h
  obtain ⟨us, rfl, hus⟩ := hsound .operand ha
  dsimp only at hmore
  split at hmore
  · exact right_sound hsound hus (.symbol _) hmore
  · exact right_sound hsound hus .isIn hmore
  · exact right_sound hsound hus .notIn hmore
  · cases hmore
  · cases hmore
    exact ⟨us, rfl, .alone hus⟩

theorem operand_sound {depth : Nat} (hsound : Sound r depth) {e : Expr F}
    {ts rest : List (Token F)} (h : operand r (depth + 1) ts = .ok (e, rest)) :
    ∃ us, ts = us ++ rest ∧ Derives .operand us e := by
  cases ts with
  | nil => cases h
  | cons t ts =>
    unfold operand at h
    split at h
    · obtain ⟨⟨a, ts'⟩, ha, hmore⟩ := bind_ok h
      obtain ⟨us, rfl, hus⟩ := hsound .or ha
      dsimp only at hmore
      split at hmore
      · cases hmore
        exact ⟨_, by simp, .group hus⟩
      · cases hmore
    · split at h
      · cases h
        exact ⟨_, rfl, .empty⟩
      · obtain ⟨⟨vs, ts'⟩, hvs, hmore⟩ := bind_ok h
        cases hmore
        obtain ⟨us, rfl, hus⟩ := listItems_sound hvs
        exact ⟨_, by simp, .list hus⟩
    · obtain ⟨⟨keys, ts'⟩, hkeys, hmore⟩ := bind_ok h
      cases hmore
      obtain ⟨us, rfl, hus⟩ := pathKeys_sound hkeys
      exact ⟨_, rfl, .path hus⟩
    · split at h
      · rename_i v hv
        cases h
        exact ⟨[t], rfl, .scalar (scalar?_iff.mp hv)⟩
      · cases h

theorem run_sound (depth : Nat) : Sound r depth := by
  induction depth with
  | zero =>
    intro part ts rest e h
    rw [run_zero] at h
    cases h
  | succ depth ih =>
    intro part ts rest e h
    cases part with
    | or =>
      obtain ⟨⟨a, ts'⟩, ha, hmore⟩ := bind_ok h
      obtain ⟨us, rfl, hus⟩ := ih .and ha
      obtain ⟨vs, rfl, hvs⟩ := ih (.orMore a) hmore
      exact ⟨us ++ vs, by rw [List.append_assoc], .or hus hvs⟩
    | orMore a => exact orMore_sound ih h
    | and =>
      obtain ⟨⟨a, ts'⟩, ha, hmore⟩ := bind_ok h
      obtain ⟨us, rfl, hus⟩ := ih .unary ha
      obtain ⟨vs, rfl, hvs⟩ := ih (.andMore a) hmore
      exact ⟨us ++ vs, by rw [List.append_assoc], .and hus hvs⟩
    | andMore a => exact andMore_sound ih h
    | unary => exact unary_sound ih h
    | compare => exact comparison_sound ih h
    | operand => exact operand_sound ih h

/-! ## What the grammar generates is read -/

/-- An operand does not start with `not`. -/
theorem operand_start {us : List (Token F)} {e : Expr F} (h : Derives .operand us e) :
    ∃ t us', us = t :: us' ∧ t ≠ .kw .not := by
  cases h with
  | scalar h => exact ⟨_, _, rfl, by rintro rfl; cases h⟩
  | empty => exact ⟨_, _, rfl, by rintro ⟨⟩⟩
  | list => exact ⟨_, _, rfl, by rintro ⟨⟩⟩
  | path => exact ⟨_, _, rfl, by rintro ⟨⟩⟩
  | group => exact ⟨_, _, rfl, by rintro ⟨⟩⟩

theorem compare_start {us : List (Token F)} {e : Expr F} (h : Derives .compare us e) :
    ∃ t us', us = t :: us' ∧ t ≠ .kw .not := by
  cases h with
  | cmp ha =>
    obtain ⟨t, us', rfl, ht⟩ := operand_start ha
    exact ⟨t, _, rfl, ht⟩
  | alone ha => exact operand_start ha

theorem orMore_ends {a e : Expr F} {vs rest : List (Token F)} (h : Derives (.orMore a) vs e)
    (hrest : Part.or.EndsAt rest) : Part.and.EndsAt (vs ++ rest) := by
  cases h with
  | orEnd => exact endsAt_mono hrest (Nat.le_succ 2)
  | orMore => exact endsAt_cons (Nat.lt_succ_self 2)

theorem andMore_ends {a e : Expr F} {vs rest : List (Token F)} (h : Derives (.andMore a) vs e)
    (hrest : Part.and.EndsAt rest) : Part.unary.EndsAt (vs ++ rest) := by
  cases h with
  | andEnd => exact endsAt_mono hrest (Nat.le_succ 1)
  | andMore => exact endsAt_cons (Nat.lt_succ_self 1)

theorem orMore_end {depth : Nat} {a : Expr F} {rest : List (Token F)}
    (h : Part.or.EndsAt rest) : orMore r (depth + 1) a rest = .ok (a, rest) := by
  refine orMore.eq_3 _ _ _ _ fun ts heq => ?_
  subst heq
  exact absurd (lt_looseness h) (Nat.lt_irrefl 3)

theorem andMore_end {depth : Nat} {a : Expr F} {rest : List (Token F)}
    (h : Part.and.EndsAt rest) : andMore r (depth + 1) a rest = .ok (a, rest) := by
  refine andMore.eq_3 _ _ _ _ fun ts heq => ?_
  subst heq
  exact absurd (lt_looseness h) (Nat.lt_irrefl 2)

/-- An operand alone, where no operator follows. -/
theorem comparison_alone {depth : Nat} {a : Expr F} {ts rest : List (Token F)}
    (ha : operand r depth ts = .ok (a, rest)) (h : Part.compare.EndsAt rest) :
    comparison r (depth + 1) ts = .ok (a, rest) := by
  unfold comparison
  rw [ha]
  cases rest with
  | nil => rfl
  | cons t rest =>
    have ht := lt_looseness h
    cases t with
    | op s => exact absurd ht (Nat.lt_irrefl 1)
    | kw k =>
      cases k with
      | «in» => exact absurd ht (Nat.lt_irrefl 1)
      | not => exact absurd ht (Nat.lt_irrefl 1)
      | _ => rfl
    | _ => rfl

theorem comparison_operator {depth : Nat} {op : Comparison} {a b : Expr F}
    {ts os us rest : List (Token F)} (hop : Operator os op)
    (ha : operand r depth ts = .ok (a, os ++ us)) (hb : operand r depth us = .ok (b, rest)) :
    comparison r (depth + 1) ts = .ok (.cmp op a b, rest) := by
  unfold comparison
  rw [ha]
  cases hop with
  | symbol s =>
    show (operand r depth us >>= _) = _
    rw [hb]
    rfl
  | isIn =>
    show (operand r depth us >>= _) = _
    rw [hb]
    rfl
  | notIn =>
    show (operand r depth us >>= _) = _
    rw [hb]
    rfl

theorem operator_ends {op : Comparison} {os us : List (Token F)} (h : Operator os op) :
    Part.operand.EndsAt (os ++ us) := by
  cases h with
  | symbol s => exact endsAt_cons Nat.zero_lt_one
  | isIn => exact endsAt_cons Nat.zero_lt_one
  | notIn => exact endsAt_cons Nat.zero_lt_one

/-- There is a step to take. -/
theorem depth_succ {part : Part F} {n depth : Nat} (h : 6 * n + part.descent ≤ depth) :
    ∃ d, depth = d + 1 := by
  have hpos : 0 < part.descent := by cases part <;> exact Nat.succ_pos _
  exact Nat.exists_eq_succ_of_ne_zero (by omega)

/-- **What the grammar generates is read**, with its tree, where what follows does not go on
with it. -/
theorem run_complete {part : Part F} {us : List (Token F)} {e : Expr F} (h : Derives part us e)
    {rest : List (Token F)} (hrest : part.EndsAt rest) {depth : Nat}
    (hdepth : 6 * us.length + part.descent ≤ depth) :
    run r depth part (us ++ rest) = .ok (e, rest) := by
  induction h generalizing rest depth with
  | @or us vs a e ha hmore iha ihmore =>
    obtain ⟨depth, rfl⟩ := depth_succ hdepth
    have hdepth : 6 * (us.length + vs.length) + 5 ≤ depth + 1 := by
      rwa [List.length_append] at hdepth
    have hand : andExpr r depth (us ++ (vs ++ rest)) = .ok (a, vs ++ rest) :=
      iha (orMore_ends hmore hrest) (by show 6 * us.length + 4 ≤ depth; omega)
    show orExpr r (depth + 1) (us ++ vs ++ rest) = _
    rw [List.append_assoc, orExpr, hand]
    exact ihmore hrest (by show 6 * vs.length + 1 ≤ depth; omega)
  | orEnd =>
    obtain ⟨depth, rfl⟩ := depth_succ hdepth
    exact orMore_end hrest
  | @orMore us vs a b e hb hmore ihb ihmore =>
    obtain ⟨depth, rfl⟩ := depth_succ hdepth
    have hdepth : 6 * (us.length + vs.length + 1) + 1 ≤ depth + 1 := by
      rwa [List.length_cons, List.length_append] at hdepth
    have hand : andExpr r depth (us ++ (vs ++ rest)) = .ok (b, vs ++ rest) :=
      ihb (orMore_ends hmore hrest) (by show 6 * us.length + 4 ≤ depth; omega)
    show orMore r (depth + 1) a (.kw .or :: (us ++ vs ++ rest)) = _
    rw [List.append_assoc, orMore, hand]
    exact ihmore hrest (by show 6 * vs.length + 1 ≤ depth; omega)
  | @and us vs a e ha hmore iha ihmore =>
    obtain ⟨depth, rfl⟩ := depth_succ hdepth
    have hdepth : 6 * (us.length + vs.length) + 4 ≤ depth + 1 := by
      rwa [List.length_append] at hdepth
    have hunary : unary r depth (us ++ (vs ++ rest)) = .ok (a, vs ++ rest) :=
      iha (andMore_ends hmore hrest) (by show 6 * us.length + 3 ≤ depth; omega)
    show andExpr r (depth + 1) (us ++ vs ++ rest) = _
    rw [List.append_assoc, andExpr, hunary]
    exact ihmore hrest (by show 6 * vs.length + 1 ≤ depth; omega)
  | andEnd =>
    obtain ⟨depth, rfl⟩ := depth_succ hdepth
    exact andMore_end hrest
  | @andMore us vs a b e hb hmore ihb ihmore =>
    obtain ⟨depth, rfl⟩ := depth_succ hdepth
    have hdepth : 6 * (us.length + vs.length + 1) + 1 ≤ depth + 1 := by
      rwa [List.length_cons, List.length_append] at hdepth
    have hunary : unary r depth (us ++ (vs ++ rest)) = .ok (b, vs ++ rest) :=
      ihb (andMore_ends hmore hrest) (by show 6 * us.length + 3 ≤ depth; omega)
    show andMore r (depth + 1) a (.kw .and :: (us ++ vs ++ rest)) = _
    rw [List.append_assoc, andMore, hunary]
    exact ihmore hrest (by show 6 * vs.length + 1 ≤ depth; omega)
  | @not us a ha iha =>
    obtain ⟨depth, rfl⟩ := depth_succ hdepth
    have hdepth : 6 * (us.length + 1) + 3 ≤ depth + 1 := by rwa [List.length_cons] at hdepth
    have hunary : unary r depth (us ++ rest) = .ok (a, rest) :=
      iha hrest (by show 6 * us.length + 3 ≤ depth; omega)
    show unary r (depth + 1) (.kw .not :: (us ++ rest)) = _
    rw [unary, hunary]
    rfl
  | @compared us a ha iha =>
    obtain ⟨depth, rfl⟩ := depth_succ hdepth
    have hdepth : 6 * us.length + 3 ≤ depth + 1 := hdepth
    have hcompare : comparison r depth (us ++ rest) = .ok (a, rest) :=
      iha hrest (by show 6 * us.length + 2 ≤ depth; omega)
    obtain ⟨t, us', rfl, ht⟩ := compare_start ha
    show unary r (depth + 1) (t :: (us' ++ rest)) = _
    rw [unary.eq_3 _ _ _ (fun ts heq => ht (List.cons.inj heq).1)]
    exact hcompare
  | @cmp us os vs op a b ha hop hb iha ihb =>
    obtain ⟨depth, rfl⟩ := depth_succ hdepth
    have hdepth : 6 * (us.length + (os.length + vs.length)) + 2 ≤ depth + 1 := by
      rwa [List.length_append, List.length_append] at hdepth
    refine @comparison_operator _ _ _ _ _ _ _ _ (vs ++ rest) _ hop ?_ ?_
    · rw [List.append_assoc, List.append_assoc]
      exact iha (operator_ends hop) (by show 6 * us.length + 1 ≤ depth; omega)
    · exact ihb (endsAt_mono hrest (Nat.le_succ 0)) (by show 6 * vs.length + 1 ≤ depth; omega)
  | @alone us a ha iha =>
    obtain ⟨depth, rfl⟩ := depth_succ hdepth
    have hdepth : 6 * us.length + 2 ≤ depth + 1 := hdepth
    have hoperand : operand r depth (us ++ rest) = .ok (a, rest) :=
      iha (endsAt_mono hrest (Nat.le_succ 0)) (by show 6 * us.length + 1 ≤ depth; omega)
    exact comparison_alone hoperand hrest
  | scalar h =>
    obtain ⟨depth, rfl⟩ := depth_succ hdepth
    cases h <;> rfl
  | empty =>
    obtain ⟨depth, rfl⟩ := depth_succ hdepth
    rfl
  | @list us vs h =>
    obtain ⟨depth, rfl⟩ := depth_succ hdepth
    have hitems := listItems_complete (r := r) h rest
    show operand r (depth + 1) (.punct .openBracket :: (us ++ [.punct .closeBracket] ++ rest)) = _
    rw [List.append_assoc]
    cases h with
    | last h =>
      cases h <;> exact (congrArg (· >>= _) hitems)
    | more h hrest =>
      cases h <;> exact (congrArg (· >>= _) hitems)
  | @path root us keys h =>
    obtain ⟨depth, rfl⟩ := depth_succ hdepth
    have hkeys := pathKeys_complete (r := r) h hrest
    show (pathKeys r (us ++ rest) >>= _) = _
    rw [hkeys]
    rfl
  | @group us a ha iha =>
    obtain ⟨depth, rfl⟩ := depth_succ hdepth
    have hdepth : 6 * (us.length + 1 + 1) + 1 ≤ depth + 1 := by
      rwa [List.length_cons, List.length_append] at hdepth
    have hor : orExpr r depth (us ++ (.punct .closeParen :: rest)) =
        .ok (a, .punct .closeParen :: rest) :=
      iha (endsAt_cons (t := .punct .closeParen) (Nat.lt_succ_self 3))
        (by show 6 * us.length + 5 ≤ depth; omega)
    show operand r (depth + 1) (.punct .openParen :: (us ++ [.punct .closeParen] ++ rest)) = _
    rw [List.append_assoc]
    show (orExpr r depth (us ++ (.punct .closeParen :: rest)) >>= _) = _
    rw [hor]
    rfl

/-! ## What it raises -/

/-- With depth for the tokens, a function raises ExpressionError only. -/
def Raises (r : Reader F) (depth : Nat) : Prop :=
  ∀ (part : Part F) {ts : List (Token F)} {x : Exn}, 6 * ts.length + part.descent ≤ depth →
    run r depth part ts = .error x → ∃ message, x = .expression message

/-- Nothing is left that was not there. -/
theorem run_length {depth : Nat} (part : Part F) {ts rest : List (Token F)} {e : Expr F}
    (h : run r depth part ts = .ok (e, rest)) : rest.length ≤ ts.length := by
  obtain ⟨us, rfl, -⟩ := run_sound depth part h
  rw [List.length_append]
  omega

theorem orMore_raises {depth : Nat} (hraises : Raises r depth) {a : Expr F}
    {ts : List (Token F)} {x : Exn} (hdepth : 6 * ts.length + 1 ≤ depth + 1)
    (h : orMore r (depth + 1) a ts = .error x) : ∃ message, x = .expression message := by
  unfold orMore at h
  split at h
  · cases ‹_ = 0›
  · rename_i heq
    cases heq
    rw [List.length_cons] at hdepth
    rcases bind_error h with hb | ⟨⟨b, rest⟩, hb, hmore⟩
    · exact hraises .and (by show 6 * _ + 4 ≤ depth; omega) hb
    · have hlen := run_length .and hb
      exact hraises (.orMore _) (by show 6 * rest.length + 1 ≤ depth; omega) hmore
  · cases h

theorem andMore_raises {depth : Nat} (hraises : Raises r depth) {a : Expr F}
    {ts : List (Token F)} {x : Exn} (hdepth : 6 * ts.length + 1 ≤ depth + 1)
    (h : andMore r (depth + 1) a ts = .error x) : ∃ message, x = .expression message := by
  unfold andMore at h
  split at h
  · cases ‹_ = 0›
  · rename_i heq
    cases heq
    rw [List.length_cons] at hdepth
    rcases bind_error h with hb | ⟨⟨b, rest⟩, hb, hmore⟩
    · exact hraises .unary (by show 6 * _ + 3 ≤ depth; omega) hb
    · have hlen := run_length .unary hb
      exact hraises (.andMore _) (by show 6 * rest.length + 1 ≤ depth; omega) hmore
  · cases h

theorem unary_raises {depth : Nat} (hraises : Raises r depth) {ts : List (Token F)} {x : Exn}
    (hdepth : 6 * ts.length + 3 ≤ depth + 1) (h : unary r (depth + 1) ts = .error x) :
    ∃ message, x = .expression message := by
  unfold unary at h
  split at h
  · cases ‹_ = 0›
  · rename_i heq
    cases heq
    rw [List.length_cons] at hdepth
    rcases bind_error h with ha | ⟨_, -, hpure⟩
    · exact hraises .unary (by show 6 * _ + 3 ≤ depth; omega) ha
    · cases hpure
  · rename_i heq _
    cases heq
    exact hraises .compare (by show 6 * _ + 2 ≤ depth; omega) h

theorem right_raises {depth : Nat} (hraises : Raises r depth) {op : Comparison} {a : Expr F}
    {ts : List (Token F)} {x : Exn} (hdepth : 6 * ts.length + 1 ≤ depth)
    (h : (operand r depth ts >>= fun p => pure (Expr.cmp op a p.1, p.2)) = .error x) :
    ∃ message, x = .expression message := by
  rcases bind_error h with hb | ⟨_, -, hpure⟩
  · exact hraises .operand hdepth hb
  · cases hpure

theorem comparison_raises {depth : Nat} (hraises : Raises r depth) {ts : List (Token F)}
    {x : Exn} (hdepth : 6 * ts.length + 2 ≤ depth + 1)
    (h : comparison r (depth + 1) ts = .error x) : ∃ message, x = .expression message := by
  unfold comparison at h
  rcases bind_error h with ha | ⟨⟨a, rest⟩, ha, hmore⟩
  · exact hraises .operand (by show 6 * ts.length + 1 ≤ depth; omega) ha
  have hlen := run_length .operand ha
  dsimp only at hmore
  split at hmore
  · exact right_raises hraises (by rw [List.length_cons] at hlen; omega) hmore
  · exact right_raises hraises (by rw [List.length_cons] at hlen; omega) hmore
  · exact right_raises hraises (by rw [List.length_cons, List.length_cons] at hlen; omega) hmore
  · cases hmore
    exact ⟨_, rfl⟩
  · cases hmore

theorem operand_raises {depth : Nat} (hraises : Raises r depth) {ts : List (Token F)} {x : Exn}
    (hdepth : 6 * ts.length + 1 ≤ depth + 1) (h : operand r (depth + 1) ts = .error x) :
    ∃ message, x = .expression message := by
  cases ts with
  | nil =>
    cases h
    exact ⟨_, rfl⟩
  | cons t ts =>
    rw [List.length_cons] at hdepth
    unfold operand at h
    split at h
    · rcases bind_error h with ha | ⟨⟨a, rest⟩, ha, hmore⟩
      · exact hraises .or (by show 6 * ts.length + 5 ≤ depth; omega) ha
      · dsimp only at hmore
        split at hmore
        · cases hmore
        · cases hmore
          exact ⟨_, rfl⟩
    · split at h
      · cases h
      · rcases bind_error h with hitems | ⟨_, -, hpure⟩
        · exact listItems_error hitems
        · cases hpure
    · rcases bind_error h with hkeys | ⟨_, -, hpure⟩
      · exact pathKeys_error hkeys
      · cases hpure
    · split at h
      · cases h
      · cases h
        exact ⟨_, rfl⟩

theorem run_raises (depth : Nat) : Raises r depth := by
  induction depth with
  | zero =>
    intro part ts x hdepth
    obtain ⟨d, hd⟩ := depth_succ hdepth
    omega
  | succ depth ih =>
    intro part ts x hdepth h
    cases part with
    | or =>
      have hdepth : 6 * ts.length + 5 ≤ depth + 1 := hdepth
      rcases bind_error h with ha | ⟨⟨a, rest⟩, ha, hmore⟩
      · exact ih .and (by show 6 * ts.length + 4 ≤ depth; omega) ha
      · have hlen := run_length .and ha
        exact ih (.orMore a) (by show 6 * rest.length + 1 ≤ depth; omega) hmore
    | orMore a => exact orMore_raises ih hdepth h
    | and =>
      have hdepth : 6 * ts.length + 4 ≤ depth + 1 := hdepth
      rcases bind_error h with ha | ⟨⟨a, rest⟩, ha, hmore⟩
      · exact ih .unary (by show 6 * ts.length + 3 ≤ depth; omega) ha
      · have hlen := run_length .unary ha
        exact ih (.andMore a) (by show 6 * rest.length + 1 ≤ depth; omega) hmore
    | andMore a => exact andMore_raises ih hdepth h
    | unary => exact unary_raises ih hdepth h
    | compare => exact comparison_raises ih hdepth h
    | operand => exact operand_raises ih hdepth h

/-! ## The parser -/

/-- The tokens are accepted when and only when the grammar generates them. -/
theorem parseTokens_iff {ts : List (Token F)} {e : Expr F} :
    parseTokens r ts = .ok e ↔ Derives .or ts e := by
  constructor
  · intro h
    obtain ⟨⟨node, rest⟩, hnode, hend⟩ := bind_ok h
    obtain ⟨us, hts, hus⟩ := run_sound (r := r) (6 * ts.length + 5) .or hnode
    dsimp only at hend
    split at hend
    · cases hend
      rw [hts, List.append_nil]
      exact hus
    · cases hend
  · intro h
    have hrun : orExpr r (6 * ts.length + 5) (ts ++ []) = .ok (e, []) :=
      run_complete h (by rintro _ ⟨⟩) (le_refl _)
    rw [List.append_nil] at hrun
    unfold parseTokens
    rw [hrun]
    rfl

theorem parseTokens_error {ts : List (Token F)} {x : Exn} (h : parseTokens r ts = .error x) :
    ∃ message, x = .expression message := by
  rcases bind_error h with hrun | ⟨⟨node, rest⟩, -, hend⟩
  · exact run_raises _ .or (le_refl _) hrun
  · dsimp only at hend
    split at hend
    · cases hend
    · cases hend
      exact ⟨_, rfl⟩

/-- Tokens have one tree at most; the parser finds it. -/
theorem derives_unique (r : Reader F) {ts : List (Token F)} {e e' : Expr F}
    (h : Derives .or ts e) (h' : Derives .or ts e') : e = e' := by
  have hparse := (parseTokens_iff (r := r)).mpr h
  rw [(parseTokens_iff (r := r)).mpr h'] at hparse
  exact (Except.ok.inj hparse).symm

/-- No tree is made of nothing. -/
theorem derives_ne_nil (r : Reader F) {ts : List (Token F)} {e : Expr F}
    (h : Derives .or ts e) : ts ≠ [] := by
  rintro rfl
  have hparse := (parseTokens_iff (r := r)).mpr h
  cases hparse

theorem parse_iff {text : String} {e : Expr F} :
    parse r (.str text) = .ok e ↔ text.length ≤ maxExpressionLength ∧
      ∃ ts, Scans PyText.isSpace (Lexeme r) text.toList ts ∧ Derives .or ts e := by
  constructor
  · intro h
    obtain ⟨ts, hts, h⟩ := bind_ok h
    obtain ⟨hlength, -, hscan⟩ := tokenize_iff.mp hts
    exact ⟨hlength, ts, hscan, parseTokens_iff.mp h⟩
  · rintro ⟨hlength, ts, hscan, h⟩
    unfold parse
    rw [tokenize_iff.mpr ⟨hlength, derives_ne_nil r h, hscan⟩]
    exact parseTokens_iff.mpr h

theorem parse_error {text : Json} {x : Exn} (h : parse r text = .error x) :
    ∃ message, x = .expression message := by
  rcases bind_error h with hts | ⟨ts, -, h⟩
  · exact tokenize_error hts
  · exact parseTokens_error h

/-- **The parser accepts exactly its grammar.**  A text is accepted when and only when it is not
too long and is cut into tokens that the grammar generates, all of them, and the tree is that of
the derivation; there are no other tokens and there is no other tree; and where a text is not
accepted, an ExpressionError is raised and the depth has not been reached. -/
theorem parse_exact (r : Reader F) (text : String) :
    (∀ e, parse r (.str text) = .ok e ↔ text.length ≤ maxExpressionLength ∧
      ∃ ts, Scans PyText.isSpace (Lexeme r) text.toList ts ∧ Derives .or ts e) ∧
    (∀ ts us e e', Scans PyText.isSpace (Lexeme r) text.toList ts →
      Scans PyText.isSpace (Lexeme r) text.toList us → Derives .or ts e → Derives .or us e' →
        ts = us ∧ e = e') ∧
    (∀ x, parse r (.str text) = .error x → ∃ message, x = .expression message) := by
  refine ⟨fun e => parse_iff, fun ts us e e' hts hus he he' => ?_, fun x => parse_error⟩
  have htokens : ts = us := lexeme?_recognises.scans_unique hts hus
  subst htokens
  exact ⟨rfl, derives_unique r he he'⟩

end L1Agent.Expressions
