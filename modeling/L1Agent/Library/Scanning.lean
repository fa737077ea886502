import Mathlib.Data.List.Basic

/-! # Scanning a text for tokens

A scan goes over a text from left to right.  Where a token stands it takes the token, whole, and
goes on behind it; where none stands it takes the one character.  `Cut` says so; `pieces` computes
it with a function that `Recognises` the tokens, and never looks at a character twice.

A text is cut in one way, and the scan finds it (`cut_iff`); so what is proved of a cut is proved of
the scan.
-/
namespace Scanning
variable {σ τ : Type}

/-- What a scan takes: a character that begins no token, or a token. -/
inductive Piece (σ τ : Type) where
  | plain (c : σ)
  | token (t : τ)
  deriving DecidableEq

/-- The tokens among the pieces. -/
def tokens : List (Piece σ τ) → List τ
  | [] => []
  | .plain _ :: ps => tokens ps
  | .token t :: ps => t :: tokens ps

/-- The text begins with a token. -/
def Begins (Token : List σ → τ → Prop) (text : List σ) : Prop :=
  ∃ u t, Token u t ∧ u <+: text

/-- The text is cut into the pieces. -/
inductive Cut (Token : List σ → τ → Prop) : List σ → List (Piece σ τ) → Prop
  | nil : Cut Token [] []
  | plain {c : σ} {rest : List σ} {ps : List (Piece σ τ)} (hnone : ¬Begins Token (c :: rest))
      (hrest : Cut Token rest ps) : Cut Token (c :: rest) (.plain c :: ps)
  | token {u rest : List σ} {t : τ} {ps : List (Piece σ τ)} (htoken : Token u t)
      (hrest : Cut Token rest ps) : Cut Token (u ++ rest) (.token t :: ps)

/-- The function finds the token that a text begins with, and how long it is. -/
structure Recognises (Token : List σ → τ → Prop) (token? : List σ → Option (τ × Nat)) : Prop where
  found : ∀ {text t n}, token? text = some (t, n) ↔ ∃ u, Token u t ∧ u.length = n ∧ u <+: text
  solid : ∀ {u t}, Token u t → u ≠ []

/-- The pieces of a text, after `skip` characters of a token. -/
def pieces (token? : List σ → Option (τ × Nat)) : Nat → List σ → List (Piece σ τ)
  | _, [] => []
  | skip + 1, _ :: rest => pieces token? skip rest
  | 0, c :: rest =>
    match token? (c :: rest) with
    | some (t, n) => .token t :: pieces token? (n - 1) rest
    | none => .plain c :: pieces token? 0 rest

section
variable {token? : List σ → Option (τ × Nat)}

/-- To skip is to scan what comes behind. -/
theorem pieces_skip (skip : Nat) (text : List σ) :
    pieces token? skip text = pieces token? 0 (text.drop skip) := by
  induction text generalizing skip with
  | nil => rw [List.drop_nil, pieces, pieces]
  | cons c rest ih =>
    match skip with
    | 0 => rfl
    | skip + 1 =>
      rw [pieces, List.drop_succ_cons]
      exact ih skip

theorem pieces_none {c : σ} {rest : List σ} (h : token? (c :: rest) = none) :
    pieces token? 0 (c :: rest) = .plain c :: pieces token? 0 rest := by
  rw [pieces, h]

theorem pieces_some {text : List σ} {t : τ} {n : Nat} (h : token? text = some (t, n))
    (hn : 0 < n) (htext : text ≠ []) :
    pieces token? 0 text = .token t :: pieces token? 0 (text.drop n) := by
  obtain ⟨c, rest, rfl⟩ := List.exists_cons_of_ne_nil htext
  rw [pieces, h]
  refine congrArg (Piece.token t :: ·) ?_
  rw [pieces_skip]
  obtain ⟨n, rfl⟩ : ∃ m, n = m + 1 := ⟨n - 1, by omega⟩
  rfl

end

namespace Recognises
variable {Token : List σ → τ → Prop} {token? : List σ → Option (τ × Nat)}
variable (h : Recognises Token token?)
include h

theorem of_token {u rest : List σ} {t : τ} (htoken : Token u t) :
    token? (u ++ rest) = some (t, u.length) :=
  h.found.mpr ⟨u, htoken, rfl, List.prefix_append ..⟩

theorem none_iff {text : List σ} : token? text = none ↔ ¬Begins Token text := by
  constructor
  · rintro hnone ⟨u, t, htoken, hu⟩
    have hfound := h.found.mpr ⟨u, htoken, rfl, hu⟩
    rw [hnone] at hfound
    cases hfound
  · intro hbegins
    match hfound : token? text with
    | none => rfl
    | some (t, n) =>
      obtain ⟨u, htoken, -, hu⟩ := h.found.mp hfound
      exact absurd ⟨u, t, htoken, hu⟩ hbegins

theorem pieces_token {u : List σ} {t : τ} (htoken : Token u t) (rest : List σ) :
    pieces token? 0 (u ++ rest) = .token t :: pieces token? 0 rest := by
  have hu : u ≠ [] := h.solid htoken
  have hpos : 0 < u.length := List.length_pos_iff.mpr hu
  rw [pieces_some (h.of_token htoken) hpos (by simp [hu]), List.drop_left]

/-- The scan cuts every text. -/
theorem cut_pieces : ∀ text : List σ, Cut Token text (pieces token? 0 text) := by
  intro text
  -- The induction is on the length: a token may take any number of characters.
  induction hn : text.length using Nat.strongRecOn generalizing text with
  | ind n ih =>
    match text with
    | [] => exact .nil
    | c :: rest =>
      by_cases hbegins : Begins Token (c :: rest)
      · obtain ⟨u, t, htoken, v, huv⟩ := hbegins
        have hpos : 0 < u.length := List.length_pos_iff.mpr (h.solid htoken)
        have hlen : u.length + v.length = n := by
          rw [← List.length_append, huv, hn]
        rw [← huv, h.pieces_token htoken]
        exact .token htoken (ih v.length (by omega) v rfl)
      · rw [pieces_none (h.none_iff.mpr hbegins)]
        refine .plain hbegins (ih rest.length ?_ rest rfl)
        rw [← hn, List.length_cons]
        omega

/-- **A text is cut in one way**, and the scan finds it. -/
theorem cut_iff {text : List σ} {ps : List (Piece σ τ)} :
    Cut Token text ps ↔ pieces token? 0 text = ps := by
  constructor
  · intro hcut
    induction hcut with
    | nil => rfl
    | plain hnone _ ih => rw [pieces_none (h.none_iff.mpr hnone), ih]
    | token htoken _ ih => rw [h.pieces_token htoken, ih]
  · rintro rfl
    exact h.cut_pieces text

end Recognises

/-- What the scan takes as a token is one. -/
theorem Cut.exists_token {Token : List σ → τ → Prop} {text : List σ} {ps : List (Piece σ τ)}
    (hcut : Cut Token text ps) {t : τ} (ht : t ∈ tokens ps) : ∃ u, Token u t := by
  induction hcut with
  | nil => cases ht
  | plain _ _ ih => exact ih ht
  | token htoken _ ih =>
    rcases List.mem_cons.mp ht with rfl | ht
    · exact ⟨_, htoken⟩
    · exact ih ht

/-- The pieces put together again, with what each token is replaced by. -/
def replaced (f : τ → List σ) : List (Piece σ τ) → List σ
  | [] => []
  | .plain c :: ps => c :: replaced f ps
  | .token t :: ps => f t ++ replaced f ps

end Scanning
