import L1Agent.Ai.Redaction

/-! # No placeholder is forged

The placeholders of a redacted text are those that the redactor gave out: text that looks like one
is broken up first, and a pass puts a placeholder in the place of what it takes out, so no other
one can come to stand there (`Fences.Only.splice`).  Each has one kind and one value.

`redaction_unforged` says so after any texts and with any patterns: each kind and value has one name
and each name one kind and value, every placeholder in a text that was given out was made for a
value that a pass took out, and `restore` puts its value back for a personal kind, and nothing else.
Every text of a run is `Safe` (`safe_redactAll`), by one pass after the other, and a pass by one
match after the other.
-/
namespace L1Agent
namespace Redaction
open PyText Scanning Fenced

/-! ## Placeholders as texts -/

/-- The text is a placeholder: `\[\[([A-Z]+)_(\d+)\]\]`. -/
def Placeholder (u : List Char) (t : Marker) : Prop :=
  t.kind ≠ [] ∧ (∀ c ∈ t.kind, c.isUpper = true) ∧
    t.number ≠ [] ∧ (∀ c ∈ t.number, isDecimal c = true) ∧ u = t.text

theorem toNat_of_isUpper {c : Char} (h : c.isUpper = true) : 65 ≤ c.toNat ∧ c.toNat ≤ 90 := by
  have hcode : c.val ≥ 'A'.val ∧ c.val ≤ 'Z'.val := of_decide_eq_true h
  exact ⟨UInt32.le_iff_toNat_le.mp hcode.1, UInt32.le_iff_toNat_le.mp hcode.2⟩

theorem inner_of_isUpper {c : Char} (h : c.isUpper = true) : brackets.Inner c := by
  have hc := toNat_of_isUpper h
  refine ⟨?_, ?_, ?_⟩ <;> rintro rfl <;> revert hc <;> decide

theorem inner_of_isDecimal {c : Char} (h : isDecimal c = true) : brackets.Inner c := by
  have hne : ∀ d : Char, d.toNat < 0x30 ∨ 0x39 < d.toNat → d.toNat < 0x660 → c ≠ d := by
    intro d hout hshort heq
    rw [heq, not_isDecimal hout hshort] at h
    cases h
  exact ⟨hne '[' (by decide) (by decide), hne ']' (by decide) (by decide),
    hne ' ' (by decide) (by decide)⟩

/-- A placeholder is a name between brackets. -/
theorem Placeholder.name {u : List Char} {t : Marker} (h : Placeholder u t) :
    brackets.Name u := by
  obtain ⟨-, hkind, -, hnumber, rfl⟩ := h
  refine ⟨t.kind ++ '_' :: t.number, by simp, fun c hc => ?_, rfl⟩
  rcases List.mem_append.mp hc with hc | hc
  · exact inner_of_isUpper (hkind c hc)
  rcases List.mem_cons.mp hc with rfl | hc
  · exact ⟨by decide, by decide, by decide⟩
  · exact inner_of_isDecimal (hnumber c hc)

theorem Kind.isUpper_name (kind : Kind) : ∀ c ∈ kind.name, c.isUpper = true := by
  have hall : kind.name.all Char.isUpper = true := by cases kind <;> rfl
  exact List.all_eq_true.mp hall

theorem Kind.name_ne_nil (kind : Kind) : kind.name ≠ [] := by
  cases kind <;> decide

theorem Kind.name_injective : Function.Injective Kind.name := by
  intro kind kind' h
  revert h
  cases kind <;> cases kind' <;> decide

theorem isDecimal_toDigits (n : Nat) : ∀ c ∈ Nat.toDigits 10 n, isDecimal c = true := fun _ hc =>
  isDecimal_of (decimal?_digit (Nat.isDigit_of_mem_toDigits (by decide) (by decide) hc))

/-- What the redactor gives out is a placeholder. -/
theorem placeholder_nameOf (kind : Kind) (n : Nat) :
    Placeholder (nameOf kind.name (Nat.toDigits 10 n)) ⟨kind.name, Nat.toDigits 10 n⟩ :=
  ⟨kind.name_ne_nil, kind.isUpper_name, Nat.toDigits_ne_nil, isDecimal_toDigits n, rfl⟩

/-- A run of characters ends where the next one does not belong to it. -/
theorem run_span {p : Char → Bool} {word rest : List Char} {c : Char}
    (h : ∀ d ∈ word, p d = true) (hc : p c = false) :
    (word ++ c :: rest).takeWhile p = word ∧ (word ++ c :: rest).dropWhile p = c :: rest := by
  refine ⟨?_, ?_⟩
  · rw [List.takeWhile_append_of_pos h, List.takeWhile_cons_of_neg (by rw [hc]; decide),
      List.append_nil]
  · rw [List.dropWhile_append_of_pos h, List.dropWhile_cons_of_neg (by rw [hc]; decide)]

theorem nameOf_append (kind number rest : List Char) :
    nameOf kind number ++ rest = '[' :: '[' :: (kind ++ '_' :: (number ++ ']' :: ']' :: rest)) := by
  unfold nameOf Fences.enclose brackets
  simp only [List.cons_append, List.append_assoc, List.nil_append]

theorem nameOf_length (kind number : List Char) :
    (nameOf kind number).length = kind.length + number.length + 5 := by
  unfold nameOf Fences.enclose
  simp only [List.length_cons, List.length_append, List.length_nil]
  omega

/-- **The placeholder that a text begins with.** -/
theorem marker?_iff {text : List Char} {t : Marker} {n : Nat} :
    marker? text = some (t, n) ↔ ∃ u, Placeholder u t ∧ u.length = n ∧ u <+: text := by
  constructor
  · intro h
    unfold marker? at h
    split at h
    case h_2 => cases h
    rename_i rest
    split at h
    case h_2 => cases h
    rename_i k kind rest' hkind hbehind
    split at h
    case h_2 => cases h
    rename_i d number rest'' hnumber hend
    cases h
    have hrest : k :: kind ++ '_' :: rest' = rest := by
      rw [← hkind, ← hbehind, List.takeWhile_append_dropWhile]
    have hrest' : d :: number ++ ']' :: ']' :: rest'' = rest' := by
      rw [← hnumber, ← hend, List.takeWhile_append_dropWhile]
    refine ⟨_, ⟨List.cons_ne_nil _ _, fun c hc => ?_, List.cons_ne_nil _ _, fun c hc => ?_, rfl⟩,
      ?_, rest'', ?_⟩
    · exact List.mem_takeWhile_imp (hkind ▸ hc)
    · exact List.mem_takeWhile_imp (hnumber ▸ hc)
    · show (nameOf (k :: kind) (d :: number)).length = _
      rw [nameOf_length]
      simp only [List.length_cons]
      omega
    · show nameOf (k :: kind) (d :: number) ++ rest'' = _
      rw [nameOf_append, hrest', hrest]
  · rintro ⟨u, ⟨hkind, hupper, hnumber, hdecimal, rfl⟩, rfl, rest, rfl⟩
    obtain ⟨kind, number⟩ := t
    obtain ⟨k, kind, rfl⟩ := List.exists_cons_of_ne_nil hkind
    obtain ⟨d, number, rfl⟩ := List.exists_cons_of_ne_nil hnumber
    obtain ⟨htake, hdrop⟩ := @run_span Char.isUpper (k :: kind)
      (d :: number ++ ']' :: ']' :: rest) '_' hupper (by decide)
    obtain ⟨htake', hdrop'⟩ := @run_span isDecimal (d :: number) (']' :: rest) ']' hdecimal
      (by decide)
    show marker? (nameOf (k :: kind) (d :: number) ++ rest) = some (_, (nameOf _ _).length)
    rw [nameOf_append, marker?, htake, hdrop]
    simp only [htake', hdrop', nameOf_length, List.length_cons, Option.some.injEq,
      Prod.mk.injEq, true_and]
    omega

theorem recognises : Recognises Placeholder marker? where
  found := marker?_iff
  solid := by
    rintro u t ⟨-, -, -, -, rfl⟩
    exact List.cons_ne_nil _ _

/-- A placeholder can be read in one way. -/
theorem Placeholder.unique {u : List Char} {t t' : Marker} (h : Placeholder u t)
    (h' : Placeholder u t') : t = t' := by
  have hfirst : marker? (u ++ []) = some (t, u.length) := recognises.of_token h
  rw [recognises.of_token h'] at hfirst
  exact (congrArg Prod.fst (Option.some.inj hfirst)).symm

theorem nameOf_inj {kind kind' : Kind} {m n : Nat}
    (h : nameOf kind.name (Nat.toDigits 10 m) = nameOf kind'.name (Nat.toDigits 10 n)) :
    kind = kind' ∧ m = n := by
  have hsame := (placeholder_nameOf kind m).unique (h ▸ placeholder_nameOf kind' n)
  obtain ⟨hkind, hnumber⟩ := Marker.mk.inj hsame
  refine ⟨Kind.name_injective hkind, ?_⟩
  rw [← @Nat.ofDigitChars_toDigits 10 m (by decide) (by decide), hnumber,
    Nat.ofDigitChars_toDigits (by decide) (by decide)]

/-! ## What the redactor knows -/

/-- A pass of this kind takes the value out of the text. -/
def Pass.Takes (pass : Pass) (text : List Char) (kind : Kind) (value : List Char) : Prop :=
  pass.kind = kind ∧ ∃ m part, .token m ∈ pass.pattern.cut text ∧ pass.part m = some part ∧
    part.group = value

/-- The name is one that the redactor gave out. -/
def Redactor.Known (r : Redactor) (name : List Char) : Prop :=
  ∃ kind value, r.placeholders (kind, value) = some name

/-- Nothing that was given out is taken back. -/
def Redactor.Grows (r r' : Redactor) : Prop :=
  ∀ kind value name, r.placeholders (kind, value) = some name →
    r'.placeholders (kind, value) = some name

theorem Redactor.Grows.known {r r' : Redactor} (h : r.Grows r') {name : List Char}
    (hname : r.Known name) : r'.Known name := by
  obtain ⟨kind, value, hvalue⟩ := hname
  exact ⟨kind, value, h kind value name hvalue⟩

/-- **One to one.**  A kind and a value have one name and a name has one kind and one value: its
original. -/
structure Redactor.OneToOne (r : Redactor) : Prop where
  one : ∀ {kind value kind' value' name}, r.placeholders (kind, value) = some name →
    r.placeholders (kind', value') = some name → kind = kind' ∧ value = value'
  originals : ∀ {name value}, r.originals name = some value ↔
    ∃ kind, r.placeholders (kind, value) = some name

/-- What holds of a redactor.  `taken` tells the values that were taken out so far. -/
structure Redactor.Sound (taken : Kind → List Char → Prop) (r : Redactor) : Prop
    extends r.OneToOne where
  named : ∀ {kind value name}, r.placeholders (kind, value) = some name →
    ∃ n, n ≤ r.counts kind ∧ name = nameOf kind.name (Nat.toDigits 10 n)
  found : ∀ {kind value name}, r.placeholders (kind, value) = some name → taken kind value

namespace Redactor
variable {taken taken' : Kind → List Char → Prop} {r : Redactor}

theorem sound_new : Redactor.new.Sound taken where
  one h := nomatch h
  originals := ⟨fun h => (nomatch h), fun ⟨_, h⟩ => (nomatch h)⟩
  named h := nomatch h
  found h := nomatch h

/-- The next name of a kind is a new one. -/
theorem Sound.fresh (h : r.Sound taken) (kind : Kind) :
    ¬r.Known (nameOf kind.name (Nat.toDigits 10 (r.counts kind + 1))) := by
  rintro ⟨kind', value, hvalue⟩
  obtain ⟨n, hle, heq⟩ := h.named hvalue
  obtain ⟨rfl, hn⟩ := nameOf_inj heq
  omega

/-- The redactor after it gave a name to a value that had none. -/
def add (r : Redactor) (kind : Kind) (value name : List Char) : Redactor where
  counts := Function.update r.counts kind (r.counts kind + 1)
  placeholders := Function.update r.placeholders (kind, value) (some name)
  originals := Function.update r.originals name (some value)

theorem placeholder_of_some {kind : Kind} {value name : List Char}
    (h : r.placeholders (kind, value) = some name) : r.placeholder kind value = (name, r) := by
  unfold Redactor.placeholder
  rw [h]

theorem placeholder_of_none {kind : Kind} {value : List Char}
    (h : r.placeholders (kind, value) = none) :
    r.placeholder kind value =
      (nameOf kind.name (Nat.toDigits 10 (r.counts kind + 1)),
        r.add kind value (nameOf kind.name (Nat.toDigits 10 (r.counts kind + 1)))) := by
  unfold Redactor.placeholder
  rw [h]
  rfl

/-- What the redactor knows then. -/
theorem add_placeholders {kind : Kind} {value : List Char} (name : List Char)
    (hnone : r.placeholders (kind, value) = none) {kind' : Kind} {value' name' : List Char} :
    (r.add kind value name).placeholders (kind', value') = some name' ↔
      (kind' = kind ∧ value' = value ∧ name' = name) ∨
        r.placeholders (kind', value') = some name' := by
  show Function.update r.placeholders (kind, value) (some name) (kind', value') = some name' ↔ _
  by_cases hkey : (kind', value') = (kind, value)
  · obtain ⟨rfl, rfl⟩ := Prod.mk.inj hkey
    rw [Function.update_self, hnone]
    simp [eq_comm]
  · rw [Function.update_of_ne hkey]
    refine ⟨.inr, fun hor => hor.resolve_left ?_⟩
    rintro ⟨rfl, rfl, -⟩
    exact hkey rfl

/-- A new name keeps the names one to one. -/
theorem OneToOne.add (h : r.OneToOne) {kind : Kind} {value name : List Char}
    (hnone : r.placeholders (kind, value) = none) (hfresh : ¬r.Known name) :
    (r.add kind value name).OneToOne := by
  have hplace := @add_placeholders r kind value name hnone
  refine ⟨?_, ?_⟩
  · intro kind₁ value₁ kind₂ value₂ name' h₁ h₂
    rcases hplace.mp h₁ with ⟨rfl, rfl, rfl⟩ | hold₁
    · rcases hplace.mp h₂ with ⟨rfl, rfl, -⟩ | hold₂
      · exact ⟨rfl, rfl⟩
      · exact absurd ⟨_, _, hold₂⟩ hfresh
    · rcases hplace.mp h₂ with ⟨-, -, rfl⟩ | hold₂
      · exact absurd ⟨_, _, hold₁⟩ hfresh
      · exact h.one hold₁ hold₂
  · intro name' value'
    simp only [hplace]
    show Function.update r.originals name (some value) name' = some value' ↔ _
    by_cases hname : name' = name
    · subst hname
      rw [Function.update_self]
      constructor
      · intro heq
        exact ⟨kind, .inl ⟨rfl, (Option.some.inj heq).symm, rfl⟩⟩
      · rintro ⟨kind', ⟨-, rfl, -⟩ | hold⟩
        · rfl
        · exact absurd ⟨_, _, hold⟩ hfresh
    · rw [Function.update_of_ne hname, h.originals]
      constructor
      · rintro ⟨kind', hold⟩
        exact ⟨kind', .inr hold⟩
      · rintro ⟨kind', ⟨-, -, rfl⟩ | hold⟩
        · exact absurd rfl hname
        · exact ⟨kind', hold⟩

/-- **A value gets one name**: the one that it has, or a new one. -/
theorem Sound.placeholder (h : r.Sound taken) {kind : Kind} {value : List Char}
    (htaken : taken kind value) :
    (r.placeholder kind value).2.Sound taken ∧ r.Grows (r.placeholder kind value).2 ∧
      (r.placeholder kind value).2.Known (r.placeholder kind value).1 ∧
      brackets.Name (r.placeholder kind value).1 := by
  match hold : r.placeholders (kind, value) with
  | some name =>
    rw [placeholder_of_some hold]
    obtain ⟨n, -, hname⟩ := h.named hold
    exact ⟨h, fun _ _ _ hname => hname, ⟨kind, value, hold⟩,
      hname ▸ (placeholder_nameOf kind n).name⟩
  | none =>
    rw [placeholder_of_none hold]
    have hfresh := h.fresh kind
    have hplace := @add_placeholders r kind value
      (nameOf kind.name (Nat.toDigits 10 (r.counts kind + 1))) hold
    refine ⟨⟨h.toOneToOne.add hold hfresh, ?_, ?_⟩, ?_, ⟨kind, value, ?_⟩, ?_⟩
    · intro kind' value' name' hname'
      show ∃ n, n ≤ Function.update r.counts kind (r.counts kind + 1) kind' ∧ _
      rcases hplace.mp hname' with ⟨rfl, -, rfl⟩ | hold'
      · exact ⟨_, by rw [Function.update_self], rfl⟩
      · obtain ⟨n, hle, heq⟩ := h.named hold'
        refine ⟨n, ?_, heq⟩
        by_cases hkind : kind' = kind
        · subst hkind
          rw [Function.update_self]
          omega
        · rwa [Function.update_of_ne hkind]
    · intro kind' value' name' hname'
      rcases hplace.mp hname' with ⟨rfl, rfl, -⟩ | hold'
      · exact htaken
      · exact h.found hold'
    · exact fun kind' value' name' hold' => hplace.mpr (.inr hold')
    · exact hplace.mpr (.inl ⟨rfl, rfl, rfl⟩)
    · exact (placeholder_nameOf kind _).name

end Redactor

/-! ## Passes -/

/-- What a text that stands between two others is turned into: the redactor is sound still, and all
placeholders are its own. -/
structure Safe (taken : Kind → List Char → Prop) (r : Redactor) (left right : List Char)
    (out : List Char × Redactor) : Prop where
  sound : out.2.Sound taken
  grows : r.Grows out.2
  only : brackets.Only out.2.Known (left ++ out.1 ++ right)

namespace Pass
variable {taken : Kind → List Char → Prop} {r : Redactor} {pass : Pass}

/-- Of a match the part that is taken out gives way to its name. -/
theorem safe_replace (hr : r.Sound taken) {m : Match}
    (htaken : ∀ part, pass.part m = some part → taken pass.kind part.group)
    {left right : List Char} (htext : brackets.Only r.Known (left ++ m.text ++ right)) :
    Safe taken r left right (pass.replace m r) := by
  unfold replace
  match hpart : pass.part m with
  | none => exact ⟨hr, fun _ _ _ hname => hname, htext⟩
  | some part =>
    obtain ⟨hsound, hgrows, hknown, hname⟩ := hr.placeholder (htaken part hpart)
    have hold : brackets.Only (r.placeholder pass.kind part.group).2.Known
        ((left ++ part.before) ++ part.group ++ (part.after ++ right)) := by
      have hwhole : left ++ m.text ++ right =
          (left ++ part.before) ++ part.group ++ (part.after ++ right) := by
        rw [← pass.same hpart, Match.text]
        simp only [List.append_assoc]
      exact hwhole ▸ htext.mono fun _ => hgrows.known
    have hnew := hold.splice hname hknown
    refine ⟨hsound, hgrows, ?_⟩
    show brackets.Only _ (left ++ (part.before ++ _ ++ part.after) ++ right)
    simp only [List.append_assoc] at hnew ⊢
    exact hnew

/-- The pieces are gone through from the left: what is done stands before the rest. -/
theorem safe_sub {ps : List (Piece Char Match)} (hr : r.Sound taken)
    (htaken : ∀ m part, .token m ∈ ps → pass.part m = some part → taken pass.kind part.group)
    {left : List Char} (htext : brackets.Only r.Known (left ++ replaced Match.text ps)) :
    Safe taken r left [] (pass.sub ps r) := by
  induction ps generalizing r left with
  | nil => exact ⟨hr, fun _ _ _ hname => hname, by simpa [sub, replaced] using htext⟩
  | cons p ps ih =>
    have hrest := fun m part hm => htaken m part (List.mem_cons_of_mem p hm)
    cases p with
    | plain c =>
      have hsub := @ih r hr hrest (left ++ [c]) (by simpa [replaced] using htext)
      exact ⟨hsub.sound, hsub.grows, by simpa [sub] using hsub.only⟩
    | token m =>
      have hfirst : Safe taken r left (replaced Match.text ps) (pass.replace m r) := by
        refine safe_replace hr (fun part => htaken m part (List.mem_cons_self ..)) ?_
        rw [List.append_assoc]
        exact htext
      have hsub := ih hfirst.sound hrest hfirst.only
      refine ⟨hsub.sound, fun _ _ _ hname => hsub.grows _ _ _ (hfirst.grows _ _ _ hname), ?_⟩
      show brackets.Only _ (left ++ ((pass.replace m r).1 ++ (pass.sub ps _).1) ++ [])
      rw [← List.append_assoc left]
      exact hsub.only

theorem safe_run (hr : r.Sound taken) {text : List Char}
    (htaken : ∀ kind value, pass.Takes text kind value → taken kind value)
    (htext : brackets.Only r.Known text) : Safe taken r [] [] (pass.run text r) := by
  refine safe_sub hr (fun m part hm hpart => ?_) ?_
  · exact htaken _ _ ⟨rfl, m, part, hm, hpart, rfl⟩
  · rw [pass.pattern.whole]
    exact htext

end Pass

/-! ## Runs -/

/-- The passes of `runAll`, each with the text that it goes over. -/
def stages : List Pass → List Char → Redactor → List (Pass × List Char)
  | [], _, _ => []
  | pass :: passes, text, r =>
    (pass, text) :: stages passes (pass.run text r).1 (pass.run text r).2

/-- Each pass keeps the text safe. -/
theorem safe_runAll {taken : Kind → List Char → Prop} {passes : List Pass} {text : List Char}
    {r : Redactor} (hr : r.Sound taken)
    (htaken : ∀ s ∈ stages passes text r, ∀ kind value, s.1.Takes s.2 kind value →
      taken kind value)
    (htext : brackets.Only r.Known text) : Safe taken r [] [] (runAll passes text r) := by
  induction passes generalizing text r with
  | nil => exact ⟨hr, fun _ _ _ hname => hname, by simpa [runAll] using htext⟩
  | cons pass passes ih =>
    have hfirst := Pass.safe_run hr (htaken _ (List.mem_cons_self ..)) htext
    have hrest := ih hfirst.sound (fun s hs => htaken s (List.mem_cons_of_mem _ hs))
      (by simpa using hfirst.only)
    exact ⟨hrest.sound, fun _ _ _ hname => hrest.grows _ _ _ (hfirst.grows _ _ _ hname),
      hrest.only⟩

variable (patterns : Patterns) (known : List (Option (List Char)))

/-- What the passes over one text go over. -/
def stagesOf (text : Option (List Char)) (r : Redactor) : List (Pass × List Char) :=
  match text.getD [] with
  | [] => []
  | c :: rest => stages (passes patterns known) (escape (c :: rest)) r

/-- What all passes of a run go over. -/
def allStages : List (Option (List Char)) → Redactor → List (Pass × List Char)
  | [], _ => []
  | text :: texts, r =>
    stagesOf patterns known text r ++ allStages texts (redact patterns known text r).2

theorem safe_redact {taken : Kind → List Char → Prop} {text : Option (List Char)} {r : Redactor}
    (hr : r.Sound taken)
    (htaken : ∀ s ∈ stagesOf patterns known text r, ∀ kind value, s.1.Takes s.2 kind value →
      taken kind value) :
    Safe taken r [] [] (redact patterns known text r) := by
  unfold redact
  unfold stagesOf at htaken
  match htext : text.getD [] with
  | [] =>
    refine ⟨hr, fun _ _ _ hname => hname, ?_⟩
    exact Fences.only_broken (f := brackets) []
  | c :: rest =>
    rw [htext] at htaken
    exact safe_runAll hr htaken (Fences.only_broken _)

/-- **Every text of a run is safe.** -/
theorem safe_redactAll {taken : Kind → List Char → Prop} {texts : List (Option (List Char))}
    {r : Redactor} (hr : r.Sound taken)
    (htaken : ∀ s ∈ allStages patterns known texts r, ∀ kind value, s.1.Takes s.2 kind value →
      taken kind value) :
    (redactAll patterns known texts r).2.Sound taken ∧
      r.Grows (redactAll patterns known texts r).2 ∧
      ∀ out ∈ (redactAll patterns known texts r).1,
        brackets.Only (redactAll patterns known texts r).2.Known out := by
  induction texts generalizing r with
  | nil => exact ⟨hr, fun _ _ _ hname => hname, fun out hout => nomatch hout⟩
  | cons text texts ih =>
    have hfirst := safe_redact patterns known hr fun s hs =>
      htaken s (List.mem_append_left _ hs)
    obtain ⟨hsound, hgrows, honly⟩ := ih hfirst.sound fun s hs =>
      htaken s (List.mem_append_right _ hs)
    refine ⟨hsound, fun _ _ _ hname => hgrows _ _ _ (hfirst.grows _ _ _ hname), ?_⟩
    intro out hout
    rcases List.mem_cons.mp hout with rfl | hout
    · have hout := hfirst.only.mono fun _ => hgrows.known
      rw [List.nil_append, List.append_nil] at hout
      exact hout
    · exact honly out hout

/-! ## Restoring -/

/-- Where a value is put back, it is the one that has this placeholder. -/
theorem Redactor.Sound.shown {taken : Kind → List Char → Prop} {r : Redactor}
    (hr : r.Sound taken) {kinds : List Kind} {u : List Char} {t : Marker}
    (ht : Placeholder u t) :
    r.shown kinds t = t.text ∨
      ∃ kind ∈ kinds,
        kind.name = t.kind ∧ r.placeholders (kind, r.shown kinds t) = some t.text := by
  unfold Redactor.shown
  by_cases hkind : t.kind ∈ kinds.map Kind.name
  · rw [if_pos hkind]
    match horiginal : r.originals t.text with
    | none => exact .inl rfl
    | some value =>
      right
      obtain ⟨kind, hplace⟩ := hr.originals.mp horiginal
      obtain ⟨n, -, hname⟩ := hr.named hplace
      obtain ⟨hkindne, hupper, hnumberne, hdecimal, -⟩ := ht
      have ht : Placeholder t.text t := ⟨hkindne, hupper, hnumberne, hdecimal, rfl⟩
      have hsame := ht.unique (hname ▸ placeholder_nameOf kind n)
      have hkindname : kind.name = t.kind := by rw [hsame]
      obtain ⟨kind', hin, hname'⟩ := List.mem_map.mp hkind
      obtain rfl : kind' = kind := Kind.name_injective (hname'.trans hkindname.symm)
      exact ⟨kind', hin, hkindname, hplace⟩
  · rw [if_neg hkind]
    exact .inl rfl

/-- **Redaction is one to one and cannot be forged.**  After any texts each kind and value has one
name and each name one kind and value, its original; every placeholder in what was given out was
made for a value that a pass of this run took out of its text; and what `restore` puts into any
answer is the placeholder itself or the value of a personal kind that it stands for. -/
theorem redaction_unforged (texts : List (Option (List Char))) :
    (redactAll patterns known texts .new).2.OneToOne ∧
      (∀ out ∈ (redactAll patterns known texts .new).1, ∀ left u right t,
        out = left ++ u ++ right → Placeholder u t →
          ∃ kind value,
            (redactAll patterns known texts .new).2.placeholders (kind, value) = some u ∧
              ∃ s ∈ allStages patterns known texts .new, s.1.Takes s.2 kind value) ∧
      ∀ answer ps, Cut Placeholder answer ps →
        (redactAll patterns known texts .new).2.restore personal answer =
            replaced ((redactAll patterns known texts .new).2.shown personal) ps ∧
          ∀ t ∈ tokens ps,
            (redactAll patterns known texts .new).2.shown personal t = t.text ∨
              ∃ kind ∈ personal, kind.name = t.kind ∧
                (redactAll patterns known texts .new).2.placeholders
                  (kind, (redactAll patterns known texts .new).2.shown personal t) =
                    some t.text := by
  have hnew : Redactor.new.Sound fun kind value =>
      ∃ s ∈ allStages patterns known texts .new, s.1.Takes s.2 kind value := Redactor.sound_new
  obtain ⟨hsound, -, honly⟩ := safe_redactAll patterns known hnew
    fun s hs kind value htakes => ⟨s, hs, htakes⟩
  refine ⟨hsound.toOneToOne, ?_, ?_⟩
  · intro out hout left u right t htext ht
    obtain ⟨kind, value, hplace⟩ := honly out hout left u right ht.name htext
    exact ⟨kind, value, hplace, hsound.found hplace⟩
  · intro answer ps hcut
    refine ⟨?_, fun t ht => ?_⟩
    · unfold Redactor.restore
      rw [recognises.cut_iff.mp hcut]
    · obtain ⟨u, hu⟩ := hcut.exists_token ht
      exact hsound.shown hu

end Redaction
end L1Agent
