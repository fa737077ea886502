import L1Agent.Engine.Expressions
import L1Agent.Library.LongestMatch
import Mathlib.Data.Bool.AllAny

/-! # What the tokeniser reads

`Lexeme` spells the token expression out: which texts are a number, a quoted string, an operator,
a punctuation mark or a name, and of which token.  `_tokenize` cuts a text by the longest match of
it (`tokenize_iff`); a text that it cannot cut raises an ExpressionError (`tokenize_error`).

The matching function reads numbers, strings, operators and names each on its own; for each of them
it is shown that it takes the whole of a lexeme that stands there, and no more.
-/
namespace L1Agent.Expressions
open LongestMatch
variable {F : Type} {r : Reader F}

/-- `(?:[^q\\]|\\.)*` for the quotation mark `q`. -/
inductive Quoted (quote : Char) : List Char → Prop
  | nil : Quoted quote []
  | plain {c : Char} {body : List Char} (hquote : c ≠ quote) (hescape : c ≠ '\\')
      (hbody : Quoted quote body) : Quoted quote (c :: body)
  | escape {c : Char} {body : List Char} (hline : c ≠ '\n') (hbody : Quoted quote body) :
      Quoted quote ('\\' :: c :: body)

/-- The lexemes, and the token of each. -/
inductive Lexeme (r : Reader F) : List Char → Token F → Prop
  | int (negative : Bool) {digits : List Char} (hne : digits ≠ [])
      (hdigits : ∀ c ∈ digits, PyText.isDecimal c = true) :
      Lexeme r (signText negative ++ digits) (.lit (.int (whole negative digits)))
  | float (negative : Bool) {digits fraction : List Char} (hne : digits ≠ [])
      (hdigits : ∀ c ∈ digits, PyText.isDecimal c = true) (hfraction : fraction ≠ [])
      (hdigits' : ∀ c ∈ fraction, PyText.isDecimal c = true) :
      Lexeme r (signText negative ++ digits ++ '.' :: fraction)
        (.lit (.float (r.float (signText negative ++ digits ++ '.' :: fraction))))
  | str {quote : Char} {body : List Char} (hquote : isQuote quote = true)
      (hbody : Quoted quote body) :
      Lexeme r (quote :: (body ++ [quote])) (.lit (.str (String.ofList (unescape body))))
  | op (s : Symbol) : Lexeme r s.text.toList (.op s)
  | punct (p : Punct) : Lexeme r [p.char] (.punct p)
  | name {c : Char} {cs : List Char} (hstart : isNameStart c = true)
      (hrest : ∀ c ∈ cs, isNameChar c = true) :
      Lexeme r (c :: cs) (word (String.ofList (c :: cs)))

/-! ## What each part of the token expression reads -/

theorem mem_takeWhile {p : Char → Bool} {text : List Char} :
    ∀ c ∈ text.takeWhile p, p c = true := fun _ hc => List.mem_takeWhile_imp hc

theorem unsigned?_sound {negative : Bool} {text rest : List Char} {t : Token F}
    (h : unsigned? r negative text = some (t, rest)) :
    ∃ u, signText negative ++ text = u ++ rest ∧ Lexeme r u t := by
  unfold unsigned? at h
  by_cases hne : text.takeWhile PyText.isDecimal = []
  · rw [if_pos hne] at h
    cases h
  · rw [if_neg hne] at h
    have htext := (List.takeWhile_append_dropWhile (p := PyText.isDecimal) (l := text)).symm
    have hint := Lexeme.int (r := r) negative hne mem_takeWhile
    split at h
    · rename_i rest' hrest'
      rw [hrest'] at htext
      by_cases hfraction : rest'.takeWhile PyText.isDecimal = []
      · rw [if_pos hfraction] at h
        cases h
        refine ⟨_, ?_, hint⟩
        rw [List.append_assoc, ← htext]
      · rw [if_neg hfraction] at h
        cases h
        refine ⟨_, ?_, Lexeme.float negative hne mem_takeWhile hfraction mem_takeWhile⟩
        rw [List.append_assoc, List.append_assoc, List.cons_append,
          List.takeWhile_append_dropWhile, ← htext]
    · cases h
      refine ⟨_, ?_, hint⟩
      rw [List.append_assoc, ← htext]

theorem number?_sound {text rest : List Char} {t : Token F}
    (h : number? r text = some (t, rest)) : ∃ u, text = u ++ rest ∧ Lexeme r u t := by
  unfold number? at h
  split at h
  · exact unsigned?_sound h
  · exact unsigned?_sound h

theorem quoted?_sound {quote : Char} {text body rest : List Char}
    (h : quoted? quote text = some (body, rest)) :
    text = body ++ quote :: rest ∧ Quoted quote body := by
  fun_induction quoted? quote text generalizing body rest with
  | case1 => cases h
  | case2 => cases h
  | case3 c text hline ih =>
    obtain ⟨⟨body', rest'⟩, hread, heq⟩ := Option.map_eq_some_iff.mp h
    cases heq
    obtain ⟨rfl, hbody⟩ := ih hread
    exact ⟨rfl, .escape hline hbody⟩
  | case4 text =>
    cases h
    exact ⟨rfl, .nil⟩
  | case5 => cases h
  | case6 c text _ hquote hescape ih =>
    obtain ⟨⟨body', rest'⟩, hread, heq⟩ := Option.map_eq_some_iff.mp h
    cases heq
    obtain ⟨rfl, hbody⟩ := ih hread
    exact ⟨rfl, .plain hquote hescape hbody⟩

theorem string?_sound {text rest : List Char} {t : Token F} (h : string? text = some (t, rest)) :
    ∃ u, text = u ++ rest ∧ Lexeme r u t := by
  cases text with
  | nil => cases h
  | cons c text =>
    simp only [string?] at h
    by_cases hquote : isQuote c = true
    · rw [if_pos hquote] at h
      obtain ⟨⟨body, rest'⟩, hread, heq⟩ := Option.map_eq_some_iff.mp h
      cases heq
      obtain ⟨rfl, hbody⟩ := quoted?_sound hread
      refine ⟨_, ?_, Lexeme.str hquote hbody⟩
      rw [List.cons_append, List.append_assoc]
      rfl
    · rw [if_neg hquote] at h
      cases h

theorem symbol?_sound {text rest : List Char} {t : Token F} (h : symbol? text = some (t, rest)) :
    ∃ u, text = u ++ rest ∧ Lexeme r u t := by
  unfold symbol? at h
  split at h
  · cases h; exact ⟨_, rfl, Lexeme.op .eq⟩
  · cases h; exact ⟨_, rfl, Lexeme.op .ne⟩
  · cases h; exact ⟨_, rfl, Lexeme.op (.order .le)⟩
  · cases h; exact ⟨_, rfl, Lexeme.op (.order .ge)⟩
  · cases h; exact ⟨_, rfl, Lexeme.op (.order .lt)⟩
  · cases h; exact ⟨_, rfl, Lexeme.op (.order .gt)⟩
  · cases h

theorem punct?_sound {text rest : List Char} {t : Token F} (h : punct? text = some (t, rest)) :
    ∃ u, text = u ++ rest ∧ Lexeme r u t := by
  unfold punct? at h
  split at h
  · cases h; exact ⟨_, rfl, Lexeme.punct .openParen⟩
  · cases h; exact ⟨_, rfl, Lexeme.punct .closeParen⟩
  · cases h; exact ⟨_, rfl, Lexeme.punct .openBracket⟩
  · cases h; exact ⟨_, rfl, Lexeme.punct .closeBracket⟩
  · cases h; exact ⟨_, rfl, Lexeme.punct .dot⟩
  · cases h; exact ⟨_, rfl, Lexeme.punct .comma⟩
  · cases h

theorem name?_sound {text rest : List Char} {t : Token F} (h : name? text = some (t, rest)) :
    ∃ u, text = u ++ rest ∧ Lexeme r u t := by
  cases text with
  | nil => cases h
  | cons c text =>
    simp only [name?] at h
    by_cases hstart : isNameStart c = true
    · rw [if_pos hstart] at h
      cases h
      refine ⟨_, ?_, Lexeme.name hstart mem_takeWhile⟩
      rw [List.cons_append, List.takeWhile_append_dropWhile]
    · rw [if_neg hstart] at h
      cases h

theorem lexeme?_sound {text rest : List Char} {t : Token F}
    (h : lexeme? r text = some (t, rest)) : ∃ u, text = u ++ rest ∧ Lexeme r u t := by
  unfold lexeme? at h
  rcases Option.or_eq_some_iff.mp h with h | ⟨-, h⟩
  · exact number?_sound h
  rcases Option.or_eq_some_iff.mp h with h | ⟨-, h⟩
  · exact string?_sound h
  rcases Option.or_eq_some_iff.mp h with h | ⟨-, h⟩
  · exact symbol?_sound h
  rcases Option.or_eq_some_iff.mp h with h | ⟨-, h⟩
  · exact punct?_sound h
  · exact name?_sound h

/-! ## Where a lexeme stands, it is read -/

/-- What a scan leaves is all there was only if it took nothing. -/
theorem takeWhile_of_length {p : Char → Bool} {text : List Char}
    (h : (text.dropWhile p).length = text.length) : text.takeWhile p = [] := by
  have htext := congrArg List.length (List.takeWhile_append_dropWhile (p := p) (l := text))
  rw [List.length_append] at htext
  exact List.length_eq_zero_iff.mp (by omega)

theorem unsigned?_covers_int (negative : Bool) {digits : List Char} (hne : digits ≠ [])
    (hdigits : ∀ c ∈ digits, PyText.isDecimal c = true) :
    Covers (unsigned? r negative) digits (.lit (.int (whole negative digits))) := by
  intro rest
  have hle := List.length_dropWhile_le PyText.isDecimal rest
  have hsame : (rest.dropWhile PyText.isDecimal).length = rest.length →
      digits ++ rest.takeWhile PyText.isDecimal = digits := fun hlen => by
    rw [takeWhile_of_length hlen, List.append_nil]
  unfold unsigned?
  rw [List.takeWhile_append_of_pos hdigits, List.dropWhile_append_of_pos hdigits,
    if_neg (by rw [List.append_eq_nil_iff]; exact fun h => hne h.1)]
  split
  · rename_i rest' hrest'
    rw [hrest'] at hle hsame
    by_cases hfraction : rest'.takeWhile PyText.isDecimal = []
    · rw [if_pos hfraction]
      exact ⟨_, _, rfl, hle, fun hlen => by rw [hsame hlen]⟩
    · rw [if_neg hfraction]
      have hle' := List.length_dropWhile_le PyText.isDecimal rest'
      rw [List.length_cons] at hle
      exact ⟨_, _, rfl, by omega, fun hlen => by omega⟩
  · exact ⟨_, _, rfl, hle, fun hlen => by rw [hsame hlen]⟩

theorem unsigned?_covers_float (negative : Bool) {digits fraction : List Char}
    (hne : digits ≠ []) (hdigits : ∀ c ∈ digits, PyText.isDecimal c = true)
    (hfraction : fraction ≠ []) (hdigits' : ∀ c ∈ fraction, PyText.isDecimal c = true) :
    Covers (unsigned? r negative) (digits ++ '.' :: fraction)
      (.lit (.float (r.float (signText negative ++ digits ++ '.' :: fraction)))) := by
  intro rest
  have hpoint : PyText.isDecimal '.' = false := by decide
  unfold unsigned?
  rw [List.append_assoc, List.cons_append, List.takeWhile_append_of_pos hdigits,
    List.dropWhile_append_of_pos hdigits, List.takeWhile_cons_of_neg (by simp [hpoint]),
    List.dropWhile_cons_of_neg (by simp [hpoint]), List.append_nil, if_neg hne]
  show ∃ t' rest', (if (fraction ++ rest).takeWhile PyText.isDecimal = [] then _ else
    some (Token.lit (Scalar.float (r.float (signText negative ++ digits ++
      '.' :: (fraction ++ rest).takeWhile PyText.isDecimal))),
      (fraction ++ rest).dropWhile PyText.isDecimal)) = _ ∧ _
  rw [List.takeWhile_append_of_pos hdigits', List.dropWhile_append_of_pos hdigits',
    if_neg (by rw [List.append_eq_nil_iff]; exact fun h => hfraction h.1)]
  refine ⟨_, _, rfl, List.length_dropWhile_le PyText.isDecimal rest, fun hlen => ?_⟩
  rw [takeWhile_of_length hlen, List.append_nil]

theorem number?_digit {c : Char} {text : List Char} (h : c ≠ '-') :
    number? r (c :: text) = unsigned? r false (c :: text) := by
  unfold number?
  split
  · rename_i heq
    exact absurd (List.cons.inj heq).1 h
  · rfl

theorem number?_none {c : Char} {text : List Char} (hminus : c ≠ '-')
    (hdigit : PyText.isDecimal c = false) : number? r (c :: text) = none := by
  rw [number?_digit hminus]
  unfold unsigned?
  rw [List.takeWhile_cons_of_neg (by simp [hdigit]), if_pos rfl]

/-- With its sign, a number is read as without it. -/
theorem number?_covers {negative : Bool} {c : Char} {text : List Char} {t : Token F}
    (hdigit : PyText.isDecimal c = true) (h : Covers (unsigned? r negative) (c :: text) t) :
    Covers (number? r) (signText negative ++ c :: text) t := by
  intro rest
  have hminus : c ≠ '-' := by
    rintro rfl
    exact absurd hdigit (by decide)
  cases negative with
  | true => exact h rest
  | false =>
    show ∃ t' rest', number? r (c :: (text ++ rest)) = _ ∧ _
    rw [number?_digit hminus]
    exact h rest

theorem quoted?_covers {quote : Char} {body : List Char} (h : Quoted quote body)
    (hescape : quote ≠ '\\') (rest : List Char) :
    quoted? quote (body ++ quote :: rest) = some (body, rest) := by
  induction h with
  | nil =>
    rw [List.nil_append, quoted?.eq_3 _ _ _ (fun _ _ h _ => absurd h hescape), if_pos rfl]
  | plain hquote hne _ ih =>
    rw [List.cons_append, quoted?.eq_3 _ _ _ (fun _ _ h _ => absurd h hne), if_neg hquote,
      if_neg hne, ih]
    rfl
  | escape hline _ ih =>
    rw [List.cons_append, List.cons_append, quoted?.eq_2, if_neg hline, ih]
    rfl

theorem string?_covers {quote : Char} {body : List Char} (hquote : isQuote quote = true)
    (hbody : Quoted quote body) :
    Covers (string? (F := F)) (quote :: (body ++ [quote]))
      (.lit (.str (String.ofList (unescape body)))) := by
  refine .of_read fun rest => ?_
  have hescape : quote ≠ '\\' := by
    rintro rfl
    exact absurd hquote (by decide)
  rw [List.cons_append, List.append_assoc]
  show (if isQuote quote then (quoted? quote (body ++ quote :: rest)).map _ else none) = _
  rw [if_pos hquote, quoted?_covers hbody hescape]
  rfl

theorem symbol?_none {c : Char} {text : List Char} (h : c ∉ ['=', '!', '<', '>']) :
    symbol? (F := F) (c :: text) = none := by
  simp only [List.mem_cons, List.not_mem_nil, or_false, not_or] at h
  unfold symbol?
  split <;> rename_i heq <;> first | rfl | (rw [List.cons.injEq] at heq; simp [heq.1] at h)

theorem punct?_none {c : Char} {text : List Char} (h : c ∉ ['(', ')', '[', ']', '.', ',']) :
    punct? (F := F) (c :: text) = none := by
  simp only [List.mem_cons, List.not_mem_nil, or_false, not_or] at h
  unfold punct?
  split <;> rename_i heq <;> first | rfl | (rw [List.cons.injEq] at heq; simp [heq.1] at h)

theorem string?_none {c : Char} {text : List Char} (h : isQuote c = false) :
    string? (F := F) (c :: text) = none := by
  simp only [string?]
  rw [if_neg (by rw [h]; exact Bool.false_ne_true)]

theorem isAlpha_val {c : Char} (h : c.isAlpha = true) :
    (c.val ≥ 'A'.val ∧ c.val ≤ 'Z'.val) ∨ (c.val ≥ 'a'.val ∧ c.val ≤ 'z'.val) := by
  rcases (Bool.or_eq_true _ _).mp h with hupper | hlower
  · exact .inl (of_decide_eq_true hupper)
  · exact .inr ((Bool.and_eq_true _ _).mp hlower |>.imp of_decide_eq_true of_decide_eq_true)

/-- A name starts like nothing else. -/
theorem isNameStart_only {c : Char} (h : isNameStart c = true) :
    c ∉ ['-', '=', '!', '<', '>', '(', ')', '[', ']', '.', ','] ∧ isQuote c = false ∧
      PyText.isDecimal c = false := by
  refine ⟨fun hc => ?_, ?_, ?_⟩
  · have hnone : ∀ c ∈ ['-', '=', '!', '<', '>', '(', ')', '[', ']', '.', ','],
        isNameStart c = false :=
      List.all_iff_forall_prop.mp (by decide)
    rw [hnone c hc] at h
    cases h
  · refine Bool.eq_false_iff.mpr fun hquote => ?_
    simp only [isQuote, Bool.or_eq_true, beq_iff_eq] at hquote
    rcases hquote with rfl | rfl
    · exact absurd h (by decide)
    · exact absurd h (by decide)
  · have hrange : 65 ≤ c.toNat ∧ c.toNat ≤ 122 := by
      simp only [isNameStart, Bool.or_eq_true, beq_iff_eq] at h
      rcases h with h | rfl
      · have h := isAlpha_val h
        simp only [UInt32.le_iff_toNat_le] at h
        have hcode : c.val.toNat = c.toNat := rfl
        have hA : 'A'.val.toNat = 65 := rfl
        have hZ : 'Z'.val.toNat = 90 := rfl
        have ha : 'a'.val.toNat = 97 := rfl
        have hz : 'z'.val.toNat = 122 := rfl
        omega
      · decide
    exact PyText.not_isDecimal (by omega) (by omega)

theorem symbol?_covers (s : Symbol) : Covers (symbol? (F := F)) s.text.toList (.op s) := by
  -- `<` and `>` may go on with `=`
  have hshort : ∀ {c : Char} {o o' : Order},
      (∀ rest, symbol? (F := F) (c :: '=' :: rest) = some (.op (.order o'), rest)) →
      (∀ rest, (∀ rest', rest ≠ '=' :: rest') →
        symbol? (F := F) (c :: rest) = some (.op (.order o), rest)) →
      Covers (symbol? (F := F)) [c] (.op (.order o)) := by
    intro c o o' hlong hshort rest
    by_cases heq : ∃ rest', rest = '=' :: rest'
    · obtain ⟨rest', rfl⟩ := heq
      refine ⟨_, _, hlong rest', by simp, fun hlen => ?_⟩
      rw [List.length_cons] at hlen
      omega
    · exact ⟨_, _, hshort rest fun rest' h => heq ⟨rest', h⟩, le_refl _, fun _ => rfl⟩
  cases s with
  | eq => exact .of_read fun _ => rfl
  | ne => exact .of_read fun _ => rfl
  | order o =>
    cases o with
    | le => exact .of_read fun _ => rfl
    | ge => exact .of_read fun _ => rfl
    | lt => exact hshort (fun _ => rfl) fun rest h => symbol?.eq_5 rest h
    | gt => exact hshort (fun _ => rfl) fun rest h => symbol?.eq_6 rest h

theorem punct?_covers (p : Punct) : Covers (punct? (F := F)) [p.char] (.punct p) := by
  refine .of_read fun rest => ?_
  cases p <;> rfl

theorem name?_covers {c : Char} {cs : List Char} (hstart : isNameStart c = true)
    (hrest : ∀ c ∈ cs, isNameChar c = true) :
    Covers (name? (F := F)) (c :: cs) (word (String.ofList (c :: cs))) := by
  intro rest
  refine ⟨word (String.ofList (c :: (cs ++ rest.takeWhile isNameChar))), _, ?_,
    List.length_dropWhile_le isNameChar rest, fun hlen => ?_⟩
  · show (if isNameStart c then some (word (String.ofList (c :: (cs ++ rest).takeWhile isNameChar)),
      (cs ++ rest).dropWhile isNameChar) else none) = _
    rw [if_pos hstart, List.takeWhile_append_of_pos hrest, List.dropWhile_append_of_pos hrest]
  · rw [takeWhile_of_length hlen, List.append_nil]

theorem symbol_start (s : Symbol) : ∃ c v, s.text.toList = c :: v ∧ c ∈ ['=', '!', '<', '>'] := by
  cases s with
  | eq => exact ⟨_, _, rfl, by decide⟩
  | ne => exact ⟨_, _, rfl, by decide⟩
  | order o => cases o <;> exact ⟨_, _, rfl, by decide⟩

/-- Operators and punctuation marks start like neither a number nor a quoted text. -/
theorem mark_only {c : Char}
    (h : c ∈ ['=', '!', '<', '>', '(', ')', '[', ']', '.', ',']) :
    c ≠ '-' ∧ PyText.isDecimal c = false ∧ isQuote c = false := by
  have hall : ∀ c ∈ ['=', '!', '<', '>', '(', ')', '[', ']', '.', ','],
      c ≠ '-' ∧ PyText.isDecimal c = false ∧ isQuote c = false :=
    List.all_iff_forall_prop.mp (by decide)
  exact hall c h

theorem number_first {u : List Char} {t : Token F} (h : Covers (number? r) u t) :
    Covers (lexeme? r) u t := by
  refine h.of_covers fun rest p hp => ?_
  unfold lexeme?
  rw [hp, Option.some_or]

theorem lexeme?_covers {u : List Char} {t : Token F} (h : Lexeme r u t) :
    Covers (lexeme? r) u t := by
  cases h with
  | @int negative digits hne hdigits =>
    refine number_first ?_
    cases digits with
    | nil => exact absurd rfl hne
    | cons c digits =>
      exact number?_covers (hdigits c (List.mem_cons_self ..))
        (unsigned?_covers_int negative hne hdigits)
  | @float negative digits fraction hne hdigits hfraction hdigits' =>
    refine number_first ?_
    cases digits with
    | nil => exact absurd rfl hne
    | cons c digits =>
      rw [List.append_assoc, List.cons_append]
      have hread := unsigned?_covers_float (r := r) negative hne hdigits hfraction hdigits'
      rw [List.append_assoc, List.cons_append] at hread
      exact number?_covers (hdigits c (List.mem_cons_self ..)) hread
  | @str quote body hquote hbody =>
    refine (string?_covers hquote hbody).of_covers fun rest p hp => ?_
    have hstart : quote ≠ '-' ∧ PyText.isDecimal quote = false := by
      simp only [isQuote, Bool.or_eq_true, beq_iff_eq] at hquote
      rcases hquote with rfl | rfl <;> decide
    unfold lexeme?
    rw [List.cons_append, number?_none hstart.1 hstart.2, Option.none_or, ← List.cons_append, hp,
      Option.some_or]
  | op s =>
    refine (symbol?_covers s).of_covers fun rest p hp => ?_
    obtain ⟨c, v, htext, hc⟩ := symbol_start s
    have hmark := mark_only (List.mem_append_left ['(', ')', '[', ']', '.', ','] hc)
    unfold lexeme?
    rw [htext, List.cons_append, number?_none hmark.1 hmark.2.1, string?_none hmark.2.2,
      Option.none_or, Option.none_or, ← List.cons_append, ← htext, hp, Option.some_or]
  | punct p =>
    refine (punct?_covers p).of_covers fun rest q hq => ?_
    have hc : p.char ∈ ['(', ')', '[', ']', '.', ','] := by cases p <;> decide
    have hsymbol : p.char ∉ ['=', '!', '<', '>'] := by cases p <;> decide
    have hmark := mark_only (List.mem_append_right ['=', '!', '<', '>'] hc)
    unfold lexeme?
    rw [List.singleton_append, number?_none hmark.1 hmark.2.1, string?_none hmark.2.2,
      symbol?_none hsymbol, Option.none_or, Option.none_or, Option.none_or,
      ← List.singleton_append, hq, Option.some_or]
  | @name c cs hstart hrest =>
    refine (name?_covers hstart hrest).of_covers fun rest p hp => ?_
    obtain ⟨hmark, hquote, hdigit⟩ := isNameStart_only hstart
    unfold lexeme?
    rw [List.cons_append, number?_none (fun h => hmark (h ▸ List.mem_cons_self ..)) hdigit,
      string?_none hquote,
      symbol?_none fun h => hmark (List.mem_cons_of_mem _ (List.mem_append_left _ h)),
      punct?_none fun h => hmark
        (List.mem_cons_of_mem _ (List.mem_append_right ['=', '!', '<', '>'] h)),
      Option.none_or, Option.none_or, Option.none_or, Option.none_or, ← List.cons_append, hp]

/-- A lexeme starts with a character that is no white space. -/
theorem lexeme_solid {u : List Char} {t : Token F} (h : Lexeme r u t) :
    ∃ c v, u = c :: v ∧ PyText.isSpace c = false := by
  have hnumber : ∀ (negative : Bool) {digits : List Char} (more : List Char), digits ≠ [] →
      (∀ c ∈ digits, PyText.isDecimal c = true) →
      ∃ c v, signText negative ++ digits ++ more = c :: v ∧ PyText.isSpace c = false := by
    intro negative digits more hne hdigits
    cases negative with
    | true => exact ⟨_, _, rfl, by decide⟩
    | false =>
      cases digits with
      | nil => exact absurd rfl hne
      | cons c digits =>
        exact ⟨_, _, rfl, PyText.isSpace_decimal (hdigits c (List.mem_cons_self ..))⟩
  cases h with
  | int negative hne hdigits => simpa using hnumber negative [] hne hdigits
  | float negative hne hdigits => exact hnumber negative _ hne hdigits
  | str hquote =>
    refine ⟨_, _, rfl, ?_⟩
    simp only [isQuote, Bool.or_eq_true, beq_iff_eq] at hquote
    rcases hquote with rfl | rfl <;> decide
  | op s =>
    obtain ⟨c, v, htext, hc⟩ := symbol_start s
    have hall : ∀ c ∈ ['=', '!', '<', '>'], PyText.isSpace c = false :=
      List.all_iff_forall_prop.mp (by decide)
    exact ⟨c, v, htext, hall c hc⟩
  | punct p => exact ⟨_, _, rfl, by cases p <;> decide⟩
  | @name c cs hstart =>
    refine ⟨_, _, rfl, Bool.eq_false_iff.mpr fun hspace => ?_⟩
    simp only [isNameStart, Bool.or_eq_true, beq_iff_eq] at hstart
    rcases hstart with hstart | rfl
    · have hstart := isAlpha_val hstart
      simp only [UInt32.le_iff_toNat_le] at hstart
      simp only [PyText.isSpace, Bool.or_eq_true, Bool.and_eq_true, decide_eq_true_eq,
        beq_iff_eq] at hspace
      have hcode : c.val.toNat = c.toNat := rfl
      have hA : 'A'.val.toNat = 65 := rfl
      have hZ : 'Z'.val.toNat = 90 := rfl
      have ha : 'a'.val.toNat = 97 := rfl
      have hz : 'z'.val.toNat = 122 := rfl
      omega
    · exact absurd hspace (by decide)

theorem lexeme?_recognises : Recognises PyText.isSpace (Lexeme r) (lexeme? r) where
  sound := lexeme?_sound
  covers := lexeme?_covers
  solid := lexeme_solid

/-! ## The tokeniser -/

/-- The loop cuts the text by the longest match. -/
theorem tokensFrom_iff {total left : Nat} {text : List Char} {ts : List (Token F)}
    (hleft : text.length ≤ left) :
    tokensFrom r total left text = .ok ts ↔ Scans PyText.isSpace (Lexeme r) text ts := by
  have hscan := @(lexeme?_recognises (r := r)).scans_iff
  induction left generalizing text ts with
  | zero =>
    have hnil : text = [] := List.length_eq_zero_iff.mp (by omega)
    subst hnil
    have hnone := lexeme?_recognises (r := r).read_nil
    rw [hscan]
    constructor
    · intro h
      cases h
      exact .inl ⟨rfl, rfl⟩
    · rintro (⟨-, rfl⟩ | ⟨t, rest, ts', hread, -, -⟩)
      · rfl
      · rw [List.dropWhile_nil, hnone] at hread
        cases hread
  | succ left ih =>
    rw [hscan]
    simp only [tokensFrom, PyText.strip_eq_nil]
    by_cases hspace : text.dropWhile PyText.isSpace = []
    · rw [if_pos hspace, hspace, lexeme?_recognises (r := r).read_nil]
      constructor
      · intro h
        cases h
        exact .inl ⟨rfl, rfl⟩
      · rintro (⟨-, rfl⟩ | ⟨_, _, _, hread, -, -⟩)
        · rfl
        · cases hread
    · rw [if_neg hspace]
      cases hread : lexeme? r (text.dropWhile PyText.isSpace) with
      | none =>
        constructor
        · intro h
          cases h
        · rintro (⟨hnil, -⟩ | ⟨_, _, _, hsome, -, -⟩)
          · exact absurd hnil hspace
          · cases hsome
      | some p =>
        obtain ⟨t, rest⟩ := p
        have hshort : rest.length ≤ left := by
          have hread' := lexeme?_recognises (r := r).read_length hread
          have hdrop := List.length_dropWhile_le PyText.isSpace text
          omega
        show (tokensFrom r total left rest >>= fun ts => pure (t :: ts)) = _ ↔ _
        constructor
        · intro h
          cases hrest : tokensFrom r total left rest with
          | error e =>
            rw [hrest] at h
            cases h
          | ok ts' =>
            rw [hrest] at h
            cases h
            exact .inr ⟨t, rest, ts', rfl, rfl, (ih hshort).mp hrest⟩
        · rintro (⟨hnil, -⟩ | ⟨_, _, ts', hsome, rfl, hrest⟩)
          · exact absurd hnil hspace
          · cases hsome
            rw [(ih hshort).mpr hrest]
            rfl

theorem tokensFrom_error {total left : Nat} {text : List Char} {e : Exn}
    (h : tokensFrom r total left text = .error e) : ∃ message, e = .expression message := by
  induction left generalizing text with
  | zero => cases h
  | succ left ih =>
    simp only [tokensFrom] at h
    by_cases hspace : PyText.strip text = []
    · rw [if_pos hspace] at h
      cases h
    · rw [if_neg hspace] at h
      split at h
      · rename_i rest _
        cases hrest : tokensFrom r total left rest with
        | ok ts =>
          rw [hrest] at h
          cases h
        | error e' =>
          rw [hrest] at h
          cases h
          exact ih hrest
      · cases h
        exact ⟨_, rfl⟩

/-- **A text is cut into tokens by the longest match**, if it is neither blank nor too long. -/
theorem tokenize_iff {text : String} {ts : List (Token F)} :
    tokenize r (.str text) = .ok ts ↔
      text.length ≤ maxExpressionLength ∧ ts ≠ [] ∧
        Scans PyText.isSpace (Lexeme r) text.toList ts := by
  have hscan : Scans PyText.isSpace (Lexeme r) text.toList ts ↔ _ :=
    lexeme?_recognises (r := r).scans_iff
  simp only [tokenize, PyText.strip_eq_nil]
  by_cases hblank : text.toList.dropWhile PyText.isSpace = []
  · rw [if_pos hblank]
    constructor
    · intro h
      cases h
    · rintro ⟨-, hne, h⟩
      rw [hscan, hblank, lexeme?_recognises (r := r).read_nil] at h
      rcases h with ⟨-, hnil⟩ | ⟨_, _, _, hread, -, -⟩
      · exact absurd hnil hne
      · cases hread
  rw [if_neg hblank]
  by_cases hlong : maxExpressionLength < text.length
  · rw [if_pos hlong]
    constructor
    · intro h
      cases h
    · rintro ⟨hshort, -, -⟩
      omega
  rw [if_neg hlong, tokensFrom_iff (by rw [String.length_toList])]
  refine ⟨fun h => ⟨by omega, ?_, h⟩, fun h => h.2.2⟩
  rintro rfl
  rcases hscan.mp h with ⟨hnil, -⟩ | ⟨_, _, _, -, hnil, -⟩
  · exact hblank hnil
  · cases hnil

theorem tokenize_error {text : Json} {e : Exn} (h : tokenize r text = .error e) :
    ∃ message, e = .expression message := by
  unfold tokenize at h
  split at h
  · split at h
    · cases h
      exact ⟨_, rfl⟩
    · split at h
      · cases h
        exact ⟨_, rfl⟩
      · exact tokensFrom_error h
  · cases h
    exact ⟨_, rfl⟩

end L1Agent.Expressions
