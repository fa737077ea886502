import Mathlib.Data.List.Basic
import Mathlib.Tactic.Common

/-! # A text between two marks

A mark is a character three times over.  What a text holds of a mark is told by the positions at
which it stands there, overlapping or not (`Occurs`).  Replacing a mark goes through the text once,
from the left, and does not look back at what it has written (`replace`): when the mark is replaced
by its characters with a space between them, a run of 5, 8, 11, … of them still leaves a mark, at
the end of what becomes of the run, and no other run does (`Spaces.occurs_iff`).

From it comes when a text that is put between two marks stands there alone (`enclosed_iff`): when
what becomes of it holds neither mark, and does not lengthen the ones around it.
-/
namespace Marks

variable {α : Type} [DecidableEq α]

/-- The mark stands in the text at this position. -/
def Occurs (mark text : List α) (i : Nat) : Prop := mark <+: text.drop i

instance (mark text : List α) (i : Nat) : Decidable (Occurs mark text i) :=
  inferInstanceAs (Decidable (mark <+: text.drop i))

/-- The text with every occurrence of `old` replaced, after `skip` characters of one that is
replaced already. -/
def replaceFrom (old new : List α) : Nat → List α → List α
  | _, [] => []
  | skip + 1, _ :: rest => replaceFrom old new skip rest
  | 0, c :: rest =>
    if old <+: c :: rest then new ++ replaceFrom old new (old.length - 1) rest
    else c :: replaceFrom old new 0 rest

/-- `text.replace(old, new)`, for an `old` that is not empty. -/
def replace (old new text : List α) : List α := replaceFrom old new 0 text

/-- The mark of a character. -/
def mark (c : α) : List α := [c, c, c]

/-- `text.replace("ccc", "c c c")` -/
def spaceOut (gap c : α) : List α → List α := replace (mark c) [c, gap, c, gap, c]

/-! ### Where a mark stands -/

omit [DecidableEq α] in
theorem occurs_mark {c : α} {text : List α} {i : Nat} :
    Occurs (mark c) text i ↔
      text[i]? = some c ∧ text[i + 1]? = some c ∧ text[i + 2]? = some c := by
  have hget : ∀ k, (text.drop i)[k]? = text[i + k]? := fun k => List.getElem?_drop ..
  have h0 := hget 0
  have h1 := hget 1
  have h2 := hget 2
  unfold Occurs mark
  rw [← h1, ← h2, ← Nat.add_zero i, ← h0, Nat.add_zero]
  rcases text.drop i with _ | ⟨a, _ | ⟨b, _ | ⟨d, rest⟩⟩⟩
  · simp
  · simp
  · simp
  · simp [List.cons_prefix_cons, eq_comm]

omit [DecidableEq α] in
/-- A mark in two texts after one another is in one of them, where they do not meet in its
character. -/
theorem occurs_append {c : α} {left right : List α}
    (h : left.getLast? ≠ some c ∨ right.head? ≠ some c) {i : Nat} :
    Occurs (mark c) (left ++ right) i ↔
      Occurs (mark c) left i ∨ ∃ j, i = left.length + j ∧ Occurs (mark c) right j := by
  simp only [occurs_mark]
  rw [List.getLast?_eq_getElem?, List.head?_eq_getElem?] at h
  have hleft : ∀ k, k < left.length → (left ++ right)[k]? = left[k]? :=
    fun k hk => List.getElem?_append_left hk
  have hright : ∀ k, (left ++ right)[left.length + k]? = right[k]? := fun k => by
    rw [List.getElem?_append_right (Nat.le_add_right ..), Nat.add_sub_cancel_left]
  by_cases hfar : left.length ≤ i
  · obtain ⟨j, rfl⟩ := Nat.exists_eq_add_of_le hfar
    rw [Nat.add_assoc, Nat.add_assoc, hright, hright, hright]
    constructor
    · intro hright
      exact .inr ⟨j, rfl, hright⟩
    · rintro (⟨hin, -, -⟩ | ⟨k, hk, hright⟩)
      · rw [List.getElem?_eq_none hfar] at hin
        cases hin
      · obtain rfl : j = k := by omega
        exact hright
  have hnear : (∃ j, i = left.length + j ∧
      right[j]? = some c ∧ right[j + 1]? = some c ∧ right[j + 2]? = some c) ↔ False := by
    refine iff_false_intro ?_
    rintro ⟨j, rfl, -⟩
    omega
  rw [hnear, or_false, hleft i (by omega)]
  by_cases hends : i + 2 < left.length
  · rw [hleft _ (by omega), hleft _ hends]
  -- The mark would lie across the border.
  have hnone : left[i + 2]? = none := List.getElem?_eq_none (by omega)
  rw [hnone]
  constructor
  · rintro ⟨hfirst, hsecond, hthird⟩
    exfalso
    by_cases hlast : i + 1 = left.length
    · rw [hlast, ← Nat.add_zero left.length, hright] at hsecond
      rw [← hlast, Nat.add_sub_cancel] at h
      rcases h with h | h
      · exact h hfirst
      · exact h hsecond
    · obtain hlast : i + 2 = left.length := by omega
      rw [hlast, ← Nat.add_zero left.length, hright] at hthird
      rw [hleft _ (by omega)] at hsecond
      rw [← hlast, show i + 2 - 1 = i + 1 by omega] at h
      rcases h with h | h
      · exact h hsecond
      · exact h hthird
  · rintro ⟨-, -, h⟩
    cases h

/-! ### Runs -/

/-- A run of this many characters leaves a mark when it is spaced out. -/
def LeavesMark (n : Nat) : Prop := 5 ≤ n ∧ n % 3 = 2

instance (n : Nat) : Decidable (LeavesMark n) := inferInstanceAs (Decidable (_ ∧ _))

/-- How many of this character the text ends in. -/
def trailing (c : α) (text : List α) : Nat := (text.reverse.takeWhile (· == c)).length

/-- A run of 5, 8, 11, … of this character ends at this position. -/
def OddRun (c : α) (text : List α) (i : Nat) : Prop :=
  i ≤ text.length ∧ text[i]? ≠ some c ∧ LeavesMark (trailing c (text.take i))

instance (c : α) (text : List α) (i : Nat) : Decidable (OddRun c text i) :=
  inferInstanceAs (Decidable (_ ∧ _))

theorem trailing_le (c : α) (text : List α) : trailing c text ≤ text.length := by
  rw [← List.length_reverse]
  exact (List.takeWhile_prefix _).length_le

theorem trailing_replicate (c : α) (n : Nat) : trailing c (List.replicate n c) = n := by
  unfold trailing
  rw [List.reverse_replicate, List.takeWhile_replicate_eq_filter, List.filter_replicate]
  simp

/-- What stands before a text that is not all one run does not matter to the run at its end. -/
theorem trailing_append {c : α} {left right : List α}
    (h : left.getLast? ≠ some c ∨ ∃ a rest, right = a :: rest ∧ a ≠ c) :
    trailing c (left ++ right) = trailing c right := by
  unfold trailing
  rw [List.reverse_append, List.takeWhile_append]
  split
  · rename_i hall
    rcases h with h | ⟨a, rest, rfl, ha⟩
    · have hnone : left.reverse.takeWhile (· == c) = [] := by
        rw [← List.head?_reverse] at h
        generalize left.reverse = back at h
        rcases back with _ | ⟨b, before⟩
        · rfl
        · have hb : ¬(b == c) = true := fun hb => h (by rw [eq_of_beq hb]; rfl)
          exact List.takeWhile_cons_of_neg hb
      rw [hnone, List.append_nil]
      exact hall.symm
    · exfalso
      have hmem : a ∈ (a :: rest).reverse := List.mem_reverse.mpr (List.mem_cons_self ..)
      have hsame : ((a :: rest).reverse.takeWhile (· == c)) = (a :: rest).reverse :=
        (List.takeWhile_prefix _).eq_of_length hall
      rw [← hsame] at hmem
      have hac : (a == c) = true := List.all_eq_true.mp List.all_takeWhile a hmem
      exact ha (eq_of_beq hac)
  · rfl

/-- The runs of a text are its first one and those of the rest. -/
theorem oddRun_append {c d : α} {n : Nat} {rest : List α} (hrest : rest.head? ≠ some c)
    (hn : n ≠ 0) {i : Nat} :
    OddRun d (List.replicate n c ++ rest) i ↔
      (c = d ∧ i = n ∧ LeavesMark n) ∨ ∃ j, i = n + j ∧ OddRun d rest j := by
  unfold OddRun
  rw [List.length_append, List.length_replicate]
  by_cases hfar : n ≤ i
  · obtain ⟨j, rfl⟩ := Nat.exists_eq_add_of_le hfar
    have hget : (List.replicate n c ++ rest)[n + j]? = rest[j]? := by
      rw [List.getElem?_append_right (by rw [List.length_replicate]; omega),
        List.length_replicate, Nat.add_sub_cancel_left]
    have htake : (List.replicate n c ++ rest).take (n + j) =
        List.replicate n c ++ rest.take j := by
      rw [List.take_append, List.length_replicate, Nat.add_sub_cancel_left,
        List.take_of_length_le (by rw [List.length_replicate]; omega)]
    have hcancel : (∃ k, n + j = n + k ∧ k ≤ rest.length ∧ rest[k]? ≠ some d ∧
        LeavesMark (trailing d (rest.take k))) ↔
        j ≤ rest.length ∧ rest[j]? ≠ some d ∧ LeavesMark (trailing d (rest.take j)) := by
      constructor
      · rintro ⟨k, hk, h⟩
        obtain rfl : j = k := by omega
        exact h
      · intro h
        exact ⟨j, rfl, h⟩
    rw [hget, htake, hcancel, Nat.add_le_add_iff_left]
    by_cases hfirst : c = d ∧ j = 0
    · obtain ⟨rfl, rfl⟩ := hfirst
      rw [List.head?_eq_getElem?] at hrest
      rw [List.take_zero, List.append_nil, trailing_replicate]
      constructor
      · intro h
        exact .inl ⟨rfl, rfl, h.2.2⟩
      · rintro (⟨-, -, h⟩ | ⟨-, -, h⟩)
        · exact ⟨Nat.zero_le _, hrest, h⟩
        · have := h.1
          simp [trailing] at this
    · have hnot : ¬(c = d ∧ n + j = n ∧ LeavesMark n) := by
        rintro ⟨hcd, hj, -⟩
        exact hfirst ⟨hcd, by omega⟩
      rw [or_iff_right hnot]
      refine and_congr_right fun hle => ?_
      rw [trailing_append]
      by_cases hcd : c = d
      · subst hcd
        right
        rcases rest with _ | ⟨a, rest⟩
        · rw [List.length_nil] at hle
          exact absurd ⟨rfl, Nat.le_zero.mp hle⟩ hfirst
        · rcases j with _ | j
          · exact absurd ⟨rfl, rfl⟩ hfirst
          · exact ⟨a, rest.take j, rfl, fun ha => hrest (by rw [ha]; rfl)⟩
      · left
        rw [List.getLast?_replicate, if_neg hn]
        intro h
        exact hcd (Option.some.inj h)
  · have hget : (List.replicate n c ++ rest)[i]? = some c := by
      rw [List.getElem?_append_left (by rw [List.length_replicate]; omega),
        List.getElem?_replicate_of_lt (by omega)]
    have htake : (List.replicate n c ++ rest).take i = List.replicate i c := by
      rw [List.take_append_of_le_length (by rw [List.length_replicate]; omega),
        List.take_replicate, Nat.min_eq_left (by omega)]
    rw [hget, htake]
    constructor
    · rintro ⟨-, hcd, h⟩
      have hnone : trailing d (List.replicate i c) = 0 := by
        unfold trailing
        rw [List.reverse_replicate, List.takeWhile_replicate_eq_filter, List.filter_replicate,
          if_neg (fun h => hcd (by rw [eq_of_beq h])), List.length_nil]
      rw [hnone] at h
      exact absurd h.1 (by omega)
    · rintro (⟨-, rfl, -⟩ | ⟨j, rfl, -⟩)
      · omega
      · omega

omit [DecidableEq α] in
/-- A text is empty, or a run and what follows it. -/
theorem exists_run [DecidableEq α] (c : α) (text : List α) :
    ∃ n rest, n ≠ 0 ∧ c :: text = List.replicate n c ++ rest ∧ rest.head? ≠ some c := by
  induction text with
  | nil => exact ⟨1, [], by omega, rfl, nofun⟩
  | cons a text ih =>
    by_cases hac : a = c
    · subst hac
      obtain ⟨n, rest, -, heq, hrest⟩ := ih
      exact ⟨n + 1, rest, by omega, by rw [List.replicate_succ, List.cons_append, heq], hrest⟩
    · exact ⟨1, a :: text, by omega, rfl, fun h => hac (Option.some.inj h)⟩

/-- What holds of no text and of a run before a text it holds of, holds of every text. -/
theorem runs_induction {P : List α → Prop} (nil : P [])
    (run : ∀ n a rest, n ≠ 0 → rest.head? ≠ some a → P rest → P (List.replicate n a ++ rest))
    (text : List α) : P text := by
  induction hlen : text.length using Nat.strongRecOn generalizing text with
  | ind len ih =>
    rcases text with _ | ⟨a, text⟩
    · exact nil
    · obtain ⟨n, rest, hn, heq, hrest⟩ := exists_run a text
      have hshort : rest.length < len := by
        rw [← hlen, heq, List.length_append, List.length_replicate]
        omega
      rw [heq]
      exact run n a rest hn hrest (ih _ hshort rest rfl)

/-! ### Spacing out a run -/

/-- What becomes of a run. -/
def spacedRun (gap c : α) : Nat → List α
  | 0 => []
  | 1 => [c]
  | 2 => [c, c]
  | n + 3 => c :: gap :: c :: gap :: c :: spacedRun gap c n

omit [DecidableEq α] in
theorem mem_spacedRun {gap c a : α} {n : Nat} (h : a ∈ spacedRun gap c n) : a = c ∨ a = gap := by
  induction n using spacedRun.induct with
  | case1 => cases h
  | case2 => simp_all [spacedRun]
  | case3 => simp_all [spacedRun]
  | case4 n ih =>
    simp only [spacedRun, List.mem_cons] at h
    rcases h with h | h | h | h | h | h
    · exact .inl h
    · exact .inr h
    · exact .inl h
    · exact .inr h
    · exact .inl h
    · exact ih h

omit [DecidableEq α] in
theorem getLast?_spacedRun (gap c : α) (n : Nat) :
    (spacedRun gap c n).getLast? = (List.replicate n c).getLast? := by
  induction n using spacedRun.induct with
  | case1 => rfl
  | case2 => rfl
  | case3 => rfl
  | case4 n ih =>
    have hends : spacedRun gap c (n + 3) = [c, gap, c, gap, c] ++ spacedRun gap c n := rfl
    rw [hends, List.getLast?_append, ih, List.getLast?_replicate, List.getLast?_replicate]
    by_cases hn : n = 0
    · rw [if_pos hn, if_neg (by omega)]
      rfl
    · rw [if_neg hn, if_neg (by omega)]
      rfl

omit [DecidableEq α] in
/-- **The mark that is left of a run stands at its end, and only when the run has 5, 8, 11, …
characters.** -/
theorem occurs_spacedRun {gap c : α} (hgap : gap ≠ c) {n i : Nat} :
    Occurs (mark c) (spacedRun gap c n) i ↔
      LeavesMark n ∧ (spacedRun gap c n).length = i + 3 := by
  have hne : some gap ≠ some c := fun h => hgap (Option.some.inj h)
  induction n using spacedRun.induct generalizing i with
  | case1 => simp [occurs_mark, LeavesMark, spacedRun]
  | case2 => simp [occurs_mark, LeavesMark, spacedRun]
  | case3 => simp [occurs_mark, LeavesMark, spacedRun]
  | case4 n ih =>
    have hcut : spacedRun gap c (n + 3) = [c, gap, c, gap] ++ c :: spacedRun gap c n := rfl
    have hhead : ∀ k, ¬Occurs (mark c) [c, gap, c, gap] k := fun k h => by
      rw [occurs_mark] at h
      rcases k with _ | _ | _ | k
      · exact hne h.2.1
      · exact hne h.1
      · cases h.2.2
      · cases h.2.2
    have hlast : ([c, gap, c, gap] : List α).getLast? ≠ some c := hne
    rw [hcut, occurs_append (.inl hlast), or_iff_right (hhead i)]
    constructor
    · rintro ⟨j, rfl, h⟩
      rcases j with _ | j
      · -- The last character of the spaced part and the two that are left.
        rw [occurs_mark] at h
        have hn : n = 2 := by
          rcases n with _ | _ | _ | n
          · cases h.2.1
          · cases h.2.2
          · rfl
          · exact absurd h.2.2 hne
        subst hn
        exact ⟨⟨by omega, rfl⟩, rfl⟩
      · have hrest := (@ih j).mp h
        obtain ⟨⟨hfive, hmod⟩, hlen⟩ := hrest
        refine ⟨⟨by omega, by omega⟩, ?_⟩
        rw [List.length_append]
        simp only [List.length_cons, List.length_nil]
        omega
    · rintro ⟨⟨hfive, hmod⟩, hlen⟩
      rw [List.length_append, List.length_cons] at hlen
      simp only [List.length_cons, List.length_nil] at hlen
      by_cases hn : n = 2
      · subst hn
        exact ⟨0, by simp only [spacedRun, List.length_cons, List.length_nil] at hlen ⊢; omega,
          occurs_mark.mpr ⟨rfl, rfl, rfl⟩⟩
      · have hrest : LeavesMark n := ⟨by omega, by omega⟩
        have hpos : 3 ≤ (spacedRun gap c n).length := by
          rcases n with _ | _ | _ | n
          · omega
          · omega
          · omega
          · simp only [spacedRun, List.length_cons]
            omega
        refine ⟨(spacedRun gap c n).length - 3 + 1, ?_, ?_⟩
        · simp only [List.length_cons, List.length_nil]
          omega
        · exact (@ih ((spacedRun gap c n).length - 3)).mpr ⟨hrest, by omega⟩

/-! ### Spacing out a text -/

theorem replaceFrom_cons_of_not {old new rest : List α} {c : α} (h : ¬old <+: c :: rest) :
    replaceFrom old new 0 (c :: rest) = c :: replaceFrom old new 0 rest := if_neg h

theorem spaceOut_three (gap c : α) (rest : List α) :
    spaceOut gap c (c :: c :: c :: rest) = c :: gap :: c :: gap :: c :: spaceOut gap c rest := by
  have hmark : mark c <+: c :: c :: c :: rest := ⟨rest, rfl⟩
  unfold spaceOut replace
  rw [replaceFrom, if_pos hmark]
  rfl

/-- Another character is kept. -/
theorem spaceOut_cons {gap c a : α} (hac : a ≠ c) (rest : List α) :
    spaceOut gap c (a :: rest) = a :: spaceOut gap c rest := by
  refine replaceFrom_cons_of_not fun h => hac ?_
  exact (List.cons_prefix_cons.mp h).1.symm

theorem spaceOut_of_none {gap c : α} {text : List α} (h : ∀ a ∈ text, a ≠ c) (rest : List α) :
    spaceOut gap c (text ++ rest) = text ++ spaceOut gap c rest := by
  induction text with
  | nil => rfl
  | cons a text ih =>
    rw [List.cons_append, spaceOut_cons (h a (List.mem_cons_self ..)),
      ih fun b hb => h b (List.mem_cons_of_mem _ hb)]
    rfl

/-- A run is spaced out by itself. -/
theorem spaceOut_run {gap c : α} {n : Nat} {rest : List α} (h : rest.head? ≠ some c) :
    spaceOut gap c (List.replicate n c ++ rest) = spacedRun gap c n ++ spaceOut gap c rest := by
  have hthird : ∀ {a b d : α} {text : List α},
      mark c <+: a :: b :: d :: text → b = c ∧ d = c := fun hm => by
    obtain ⟨-, hm⟩ := List.cons_prefix_cons.mp hm
    obtain ⟨hb, hm⟩ := List.cons_prefix_cons.mp hm
    exact ⟨hb.symm, (List.cons_prefix_cons.mp hm).1.symm⟩
  induction n using spacedRun.induct with
  | case1 => rfl
  | case2 =>
    refine replaceFrom_cons_of_not fun hm => ?_
    rcases rest with _ | ⟨a, _ | ⟨b, rest⟩⟩
    · exact absurd hm.length_le (by simp [mark])
    · exact absurd hm.length_le (by simp [mark])
    · exact h (by rw [← (hthird hm).1]; rfl)
  | case3 =>
    have hfirst : ¬mark c <+: c :: c :: rest := fun hm => by
      rcases rest with _ | ⟨a, rest⟩
      · exact absurd hm.length_le (by simp [mark])
      · exact h (by rw [← (hthird hm).2]; rfl)
    have hsecond : ¬mark c <+: c :: rest := fun hm => by
      rcases rest with _ | ⟨a, _ | ⟨b, rest⟩⟩
      · exact absurd hm.length_le (by simp [mark])
      · exact absurd hm.length_le (by simp [mark])
      · exact h (by rw [← (hthird hm).1]; rfl)
    show replaceFrom _ _ 0 (c :: c :: rest) = _
    rw [replaceFrom_cons_of_not hfirst, replaceFrom_cons_of_not hsecond]
    rfl
  | case4 n ih =>
    show spaceOut gap c (c :: c :: c :: (List.replicate n c ++ rest)) = _
    rw [spaceOut_three, ih]
    rfl

theorem head?_spaceOut (gap c : α) (text : List α) :
    (spaceOut gap c text).head? = text.head? := by
  rcases text with _ | ⟨a, text⟩
  · rfl
  · unfold spaceOut replace replaceFrom
    split
    · rename_i hmark
      rw [(List.cons_prefix_cons.mp hmark).1]
      rfl
    · rfl

/-- A text is not made shorter. -/
theorem length_le_spaceOut (gap c : α) (text : List α) :
    text.length ≤ (spaceOut gap c text).length := by
  have hfrom : ∀ skip, text.length ≤
      (replaceFrom (mark c) [c, gap, c, gap, c] skip text).length + skip := by
    induction text with
    | nil => exact fun _ => Nat.zero_le _
    | cons a text ih =>
      intro skip
      rcases skip with _ | skip
      · unfold replaceFrom
        split
        · have hrest := ih ((mark c).length - 1)
          have hmark : (mark c).length - 1 = 2 := rfl
          rw [hmark] at hrest ⊢
          rw [List.length_append, List.length_cons]
          simp only [List.length_cons, List.length_nil]
          omega
        · have hrest := ih 0
          rw [List.length_cons, List.length_cons]
          omega
      · have hrest := ih skip
        rw [replaceFrom, List.length_cons]
        omega
  exact hfrom 0

/-! ### Two marks spaced out -/

/-- Both marks are spaced out, one after the other. -/
def spaceBoth (gap c d : α) (text : List α) : List α := spaceOut gap d (spaceOut gap c text)

/-- What becomes of a run of any character. -/
def block (gap c d a : α) (n : Nat) : List α :=
  if a = c ∨ a = d then spacedRun gap a n else List.replicate n a

/-- There is room for a mark behind a run that leaves one. -/
theorem three_le_of_oddRun (gap c d : α) {m : α} {text : List α} {k : Nat}
    (h : OddRun m text k) : 3 ≤ (spaceBoth gap c d (text.take k)).length := by
  have hrun := Nat.le_trans h.2.2.1 (trailing_le _ _)
  have hleft := length_le_spaceOut gap c (text.take k)
  have hboth := length_le_spaceOut gap d (spaceOut gap c (text.take k))
  unfold spaceBoth
  omega

section
variable {gap c d : α} (hcd : c ≠ d) (hc : gap ≠ c) (hd : gap ≠ d)
include hcd hc hd

omit hc in
/-- **The marks are spaced out run by run.** -/
theorem spaceBoth_run {a : α} {n : Nat} {rest : List α} (h : rest.head? ≠ some a) :
    spaceBoth gap c d (List.replicate n a ++ rest) =
      block gap c d a n ++ spaceBoth gap c d rest := by
  unfold spaceBoth block
  by_cases hac : a = c
  · subst hac
    have hnone : ∀ b ∈ spacedRun gap a n, b ≠ d := fun b hb => by
      rcases mem_spacedRun hb with rfl | rfl
      · exact hcd
      · exact hd
    rw [spaceOut_run h, spaceOut_of_none hnone, if_pos (.inl rfl)]
  have hnone : ∀ b ∈ List.replicate n a, b ≠ c := fun b hb => by
    rw [List.eq_of_mem_replicate hb]
    exact hac
  rw [spaceOut_of_none hnone]
  by_cases had : a = d
  · subst had
    rw [spaceOut_run (by rwa [head?_spaceOut]), if_pos (.inr rfl)]
  · have hnone : ∀ b ∈ List.replicate n a, b ≠ d := fun b hb => by
      rw [List.eq_of_mem_replicate hb]
      exact had
    rw [spaceOut_of_none hnone, if_neg (by rintro (h | h); exacts [hac h, had h])]

omit hcd hc hd in
theorem block_of_mark {m : α} (hm : m = c ∨ m = d) (n : Nat) :
    block gap c d m n = spacedRun gap m n := if_pos hm

omit hc in
/-- A text ends in what it ended in. -/
theorem getLast?_spaceBoth (text : List α) :
    (spaceBoth gap c d text).getLast? = text.getLast? := by
  induction text using runs_induction with
  | nil => rfl
  | run n a rest hn hrest ih =>
    have hblock : (block gap c d a n).getLast? = (List.replicate n a).getLast? := by
      unfold block
      split
      · exact getLast?_spacedRun ..
      · rfl
    rw [spaceBoth_run hcd hd hrest, List.getLast?_append, List.getLast?_append, ih, hblock]

omit [DecidableEq α] hcd hc hd in
theorem mem_block [DecidableEq α] {a b : α} {n : Nat} (h : b ∈ block gap c d a n) :
    b = a ∨ b = gap := by
  unfold block at h
  split at h
  · exact mem_spacedRun h
  · exact .inl (List.eq_of_mem_replicate h)

/-- **Where a mark is left**: at the end of what becomes of a run of 5, 8, 11, … of its
characters, and nowhere else. -/
theorem occurs_spaceBoth {m : α} (hm : m = c ∨ m = d) (text : List α) {i : Nat} :
    Occurs (mark m) (spaceBoth gap c d text) i ↔
      ∃ k, OddRun m text k ∧ (spaceBoth gap c d (text.take k)).length = i + 3 := by
  have hgap : gap ≠ m := by
    rcases hm with rfl | rfl
    · exact hc
    · exact hd
  induction text using runs_induction generalizing i with
  | nil =>
    constructor
    · intro h
      cases (occurs_mark.mp h).1
    · rintro ⟨k, ⟨-, -, hfive, -⟩, -⟩
      rw [List.take_nil] at hfive
      exact absurd hfive (by simp [trailing])
  | run n a rest hn hrest ih =>
  -- What a position behind the run becomes.
  have htake : ∀ k, spaceBoth gap c d ((List.replicate n a ++ rest).take (n + k)) =
      block gap c d a n ++ spaceBoth gap c d (rest.take k) := fun k => by
    have hhead : (rest.take k).head? ≠ some a := fun h => by
      rcases rest with _ | ⟨b, rest⟩
      · rw [List.take_nil] at h
        cases h
      · rcases k with _ | k
        · cases h
        · exact hrest h
    rw [List.take_append, List.length_replicate, Nat.add_sub_cancel_left,
      List.take_of_length_le (by rw [List.length_replicate]; omega),
      spaceBoth_run hcd hd hhead]
  have happart : (block gap c d a n).getLast? ≠ some m ∨
      (spaceBoth gap c d rest).head? ≠ some m := by
    by_cases ham : a = m
    · right
      unfold spaceBoth
      rw [head?_spaceOut, head?_spaceOut, ← ham]
      exact hrest
    · left
      intro h
      rcases mem_block (List.mem_of_getLast? h) with h | h
      · exact ham h.symm
      · exact hgap h.symm
  rw [spaceBoth_run hcd hd hrest, occurs_append happart]
  constructor
  · rintro (h | ⟨j, rfl, h⟩)
    · have ham : a = m := by
        have hmem := List.mem_of_getElem? (occurs_mark.mp h).1
        rcases mem_block hmem with h | h
        · exact h.symm
        · exact absurd h.symm hgap
      subst ham
      rw [block_of_mark hm] at h
      obtain ⟨hleaves, hend⟩ := (occurs_spacedRun hgap).mp h
      refine ⟨n, (oddRun_append hrest hn).mpr (.inl ⟨rfl, rfl, hleaves⟩), ?_⟩
      have hall := htake 0
      rw [Nat.add_zero, List.take_zero, block_of_mark hm] at hall
      rw [hall, List.length_append, hend]
      rfl
    · obtain ⟨k, hodd, hend⟩ := ih.mp h
      refine ⟨n + k, (oddRun_append hrest hn).mpr (.inr ⟨k, rfl, hodd⟩), ?_⟩
      rw [htake, List.length_append, hend]
      omega
  · rintro ⟨k, hodd, hend⟩
    rcases (oddRun_append hrest hn).mp hodd with ⟨rfl, rfl, hleaves⟩ | ⟨j, rfl, hlater⟩
    · left
      have hall := htake 0
      rw [Nat.add_zero, List.take_zero, block_of_mark hm] at hall
      rw [hall, List.length_append] at hend
      rw [block_of_mark hm]
      exact (occurs_spacedRun hgap).mpr ⟨hleaves, hend⟩
    · right
      rw [htake, List.length_append] at hend
      have hback := three_le_of_oddRun gap c d hlater
      refine ⟨i - (block gap c d a n).length, by omega, ?_⟩
      exact ih.mpr ⟨j, hlater, by omega⟩

end

/-! ### A text between its marks -/

/-- What was built opens once, right after `lead`, and closes once, at its very end. -/
def Enclosed (opening closing lead out : List α) : Prop :=
  (∀ i, Occurs opening out i ↔ i = lead.length) ∧
    ∀ i, Occurs closing out i ↔ i + closing.length = out.length

/-- Neither mark is anywhere in the text. -/
def Clear (c d : α) (text : List α) : Prop :=
  ∀ i, ¬Occurs (mark c) text i ∧ ¬Occurs (mark d) text i

omit [DecidableEq α] in
/-- A mark and a text after it hold the mark once when the text holds none and does not begin
with its character. -/
theorem opens_once {c : α} {body : List α} :
    (∀ i, Occurs (mark c) (mark c ++ body) i ↔ i = 0) ↔
      (∀ i, ¬Occurs (mark c) body i) ∧ body.head? ≠ some c := by
  have hat : ∀ i, (mark c ++ body)[i + 3]? = body[i]? := fun i => rfl
  constructor
  · intro h
    constructor
    · intro i hin
      have hshift : Occurs (mark c) (mark c ++ body) (i + 3) := by
        rw [occurs_mark] at hin ⊢
        exact ⟨(hat i).trans hin.1, (hat (i + 1)).trans hin.2.1, (hat (i + 2)).trans hin.2.2⟩
      have := (h (i + 3)).mp hshift
      omega
    · intro hhead
      rw [List.head?_eq_getElem?] at hhead
      have hone : Occurs (mark c) (mark c ++ body) 1 :=
        occurs_mark.mpr ⟨rfl, rfl, (hat 0).trans hhead⟩
      have := (h 1).mp hone
      omega
  · rintro ⟨hnone, hhead⟩ i
    rw [List.head?_eq_getElem?] at hhead
    constructor
    · intro h
      rw [occurs_mark] at h
      rcases i with _ | _ | _ | i
      · rfl
      · exact absurd ((hat 0).symm.trans h.2.2) hhead
      · exact absurd ((hat 0).symm.trans h.2.1) hhead
      · refine absurd (occurs_mark.mpr ?_) (hnone i)
        exact ⟨(hat i).symm.trans h.1, (hat (i + 1)).symm.trans h.2.1,
          (hat (i + 2)).symm.trans h.2.2⟩
    · rintro rfl
      exact occurs_mark.mpr ⟨rfl, rfl, rfl⟩

omit [DecidableEq α] in
/-- A text and a mark after it hold the mark once when the text holds none and does not end in
its character. -/
theorem closes_once {d : α} {body : List α} :
    (∀ i, Occurs (mark d) (body ++ mark d) i ↔ i = body.length) ↔
      (∀ i, ¬Occurs (mark d) body i) ∧ body.getLast? ≠ some d := by
  have hin : ∀ i, i < body.length → (body ++ mark d)[i]? = body[i]? :=
    fun i hi => List.getElem?_append_left hi
  have hmark : ∀ i, i < 3 → (body ++ mark d)[body.length + i]? = some d := fun i hi => by
    rw [List.getElem?_append_right (Nat.le_add_right ..), Nat.add_sub_cancel_left]
    rcases i with _ | _ | _ | i
    · rfl
    · rfl
    · rfl
    · omega
  have hlen : (body ++ mark d).length = body.length + 3 := by
    rw [List.length_append]
    rfl
  rw [List.getLast?_eq_getElem?]
  constructor
  · intro h
    constructor
    · intro i hoccurs
      have hi : i + 2 < body.length :=
        (List.getElem?_eq_some_iff.mp (occurs_mark.mp hoccurs).2.2).1
      have hat : Occurs (mark d) (body ++ mark d) i := by
        rw [occurs_mark] at hoccurs ⊢
        rw [hin _ (by omega), hin _ (by omega), hin _ hi]
        exact hoccurs
      have := (h i).mp hat
      omega
    · intro hlast
      have hpos : body.length - 1 < body.length := (List.getElem?_eq_some_iff.mp hlast).1
      have hat : Occurs (mark d) (body ++ mark d) (body.length - 1) := by
        refine occurs_mark.mpr ⟨(hin _ hpos).trans hlast, ?_, ?_⟩
        · rw [show body.length - 1 + 1 = body.length + 0 by omega]
          exact hmark 0 (by omega)
        · rw [show body.length - 1 + 2 = body.length + 1 by omega]
          exact hmark 1 (by omega)
      have := (h (body.length - 1)).mp hat
      omega
  · rintro ⟨hnone, hlast⟩ i
    constructor
    · intro h
      rw [occurs_mark] at h
      have hend : i + 2 < body.length + 3 := by
        rw [← hlen]
        exact (List.getElem?_eq_some_iff.mp h.2.2).1
      by_cases hi : i + 2 < body.length
      · rw [hin _ (by omega), hin _ (by omega), hin _ hi] at h
        exact absurd (occurs_mark.mpr h) (hnone i)
      by_cases hat : i = body.length
      · exact hat
      -- The mark would take in the last character of the text.
      refine absurd ?_ hlast
      by_cases hone : i + 1 = body.length
      · rw [← hone, Nat.add_sub_cancel, ← hin i (by omega)]
        exact h.1
      · rw [show body.length - 1 = i + 1 by omega, ← hin (i + 1) (by omega)]
        exact h.2.1
    · rintro rfl
      exact occurs_mark.mpr ⟨hmark 0 (by omega), hmark 1 (by omega), hmark 2 (by omega)⟩

omit [DecidableEq α] in
theorem lt_of_occurs {c : α} {text : List α} {i : Nat} (h : Occurs (mark c) text i) :
    i < text.length :=
  (List.getElem?_eq_some_iff.mp (occurs_mark.mp h).1).1

/-- Something is at one place only, and that behind the first `L`. -/
theorem only_behind {P Q : Nat → Prop} {L k : Nat} (hP : ∀ i, P i → i < L) :
    (∀ i, (P i ∨ ∃ j, i = L + j ∧ Q j) ↔ i = L + k) ↔
      (∀ i, ¬P i) ∧ ∀ j, Q j ↔ j = k := by
  constructor
  · intro h
    constructor
    · intro i hi
      have hat := (h i).mp (.inl hi)
      have := hP i hi
      omega
    · intro j
      constructor
      · intro hj
        have := (h (L + j)).mp (.inr ⟨j, rfl, hj⟩)
        omega
      · rintro rfl
        rcases (h (L + j)).mpr rfl with hi | ⟨m, hm, hj⟩
        · have := hP _ hi
          omega
        · obtain rfl : j = m := by omega
          exact hj
  · rintro ⟨hnone, hQ⟩ i
    constructor
    · rintro (hi | ⟨j, rfl, hj⟩)
      · exact absurd hi (hnone i)
      · rw [(hQ j).mp hj]
    · rintro rfl
      exact .inr ⟨k, rfl, (hQ k).mpr rfl⟩

omit [DecidableEq α] in
/-- **A text stands between its marks alone**, when neither it nor what leads it holds a mark, and
it does not lengthen the one or the other. -/
theorem enclosed_iff {c d : α} (hcd : c ≠ d) {lead body : List α} (hlead : lead.getLast? ≠ some c) :
    Enclosed (mark c) (mark d) lead (lead ++ mark c ++ body ++ mark d) ↔
      Clear c d lead ∧ Clear c d body ∧ body.head? ≠ some c ∧ body.getLast? ≠ some d := by
  have hlast : (mark c).getLast? ≠ some d := fun h => hcd (Option.some.inj h)
  have hhead : (mark d).head? ≠ some c := fun h => hcd (Option.some.inj h).symm
  have hfirst : (mark c).head? ≠ some d := hlast
  have hnone : ∀ i, ¬Occurs (mark c) (mark d) i := fun i h => by
    rcases i with _ | _ | _ | i
    · exact hhead (occurs_mark.mp h).1
    · cases (occurs_mark.mp h).2.2
    · cases (occurs_mark.mp h).2.2
    · cases (occurs_mark.mp h).2.2
  have hnone' : ∀ i, ¬Occurs (mark d) (mark c) i := fun i h => by
    rcases i with _ | _ | _ | i
    · exact hlast (occurs_mark.mp h).1
    · cases (occurs_mark.mp h).2.2
    · cases (occurs_mark.mp h).2.2
    · cases (occurs_mark.mp h).2.2
  have hopens : ∀ i, Occurs (mark c) (lead ++ mark c ++ body ++ mark d) i ↔
      Occurs (mark c) lead i ∨ ∃ j, i = lead.length + j ∧ Occurs (mark c) (mark c ++ body) j := by
    intro i
    rw [occurs_append (.inr hhead), List.append_assoc, occurs_append (.inl hlead)]
    refine or_iff_left ?_
    rintro ⟨j, -, h⟩
    exact hnone j h
  have hcloses : ∀ i, Occurs (mark d) (lead ++ mark c ++ body ++ mark d) i ↔
      Occurs (mark d) lead i ∨
        ∃ j, i = lead.length + 3 + j ∧ Occurs (mark d) (body ++ mark d) j := by
    intro i
    have happart : (lead ++ mark c).getLast? ≠ some d := by
      rw [List.getLast?_append]
      exact hlast
    rw [List.append_assoc (lead ++ mark c), occurs_append (.inl happart),
      occurs_append (.inr hfirst), List.length_append]
    refine or_congr_left (or_iff_left ?_)
    rintro ⟨j, -, h⟩
    exact hnone' j h
  have hlen : (lead ++ mark c ++ body ++ mark d).length = lead.length + 3 + body.length + 3 := by
    simp only [List.length_append]
    rfl
  unfold Enclosed
  have hmark : (mark d).length = 3 := rfl
  have hopened := only_behind (fun i h => Nat.lt_of_lt_of_le (lt_of_occurs h) (Nat.le_refl _))
    (Q := Occurs (mark c) (mark c ++ body)) (P := Occurs (mark c) lead) (k := 0)
  have hclosed := only_behind (L := lead.length + 3)
    (fun i h => Nat.lt_add_right 3 (lt_of_occurs h))
    (Q := Occurs (mark d) (body ++ mark d)) (P := Occurs (mark d) lead) (k := body.length)
  rw [opens_once] at hopened
  rw [closes_once] at hclosed
  have hsum : ∀ i, i + 3 = lead.length + 3 + body.length + 3 ↔ i = lead.length + 3 + body.length :=
    fun i => by omega
  simp only [hlen, hmark, hopens, hcloses, hsum]
  rw [Nat.add_zero] at hopened
  rw [hopened, hclosed]
  constructor
  · rintro ⟨⟨hlead, hbody, hopen⟩, hlead', hbody', hclose⟩
    exact ⟨fun i => ⟨hlead i, hlead' i⟩, fun i => ⟨hbody i, hbody' i⟩, hopen, hclose⟩
  · rintro ⟨hlead, hbody, hopen, hclose⟩
    exact ⟨⟨fun i => (hlead i).1, fun i => (hbody i).1, hopen⟩,
      fun i => (hlead i).2, fun i => (hbody i).2, hclose⟩

end Marks
