import Mathlib.Data.List.TakeWhile

/-! # Cutting a text into tokens by the longest match

A lexical grammar says which texts are lexemes, and of which token (`Lexeme`).  `Scans` says how a
text is cut by it: white space, then the longest lexeme that stands there, and so on to the end.
A function that reads one token `Recognises` the grammar when it finds a lexeme wherever one
stands, and none shorter; `scans_iff` then says how a scan with it goes on.

The rules are stated over any token type, with the white space and the lexemes as parameters: what
is needed of a grammar is that a lexeme that stands at a place is found (`Recognises`).
-/
namespace LongestMatch
variable {σ τ : Type} {space : σ → Bool} {Lexeme : List σ → τ → Prop}
  {read : List σ → Option (τ × List σ)}

/-- The text begins with a lexeme of the token, `rest` comes after it, and no lexeme that stands
there is longer. -/
structure Longest (Lexeme : List σ → τ → Prop) (text : List σ) (t : τ) (rest : List σ) :
    Prop where
  stands : ∃ u, text = u ++ rest ∧ Lexeme u t
  longest : ∀ u t' rest', text = u ++ rest' → Lexeme u t' → rest.length ≤ rest'.length

/-- The text is cut into the tokens. -/
inductive Scans (space : σ → Bool) (Lexeme : List σ → τ → Prop) : List σ → List τ → Prop
  | done {text : List σ} (hspace : ∀ c ∈ text, space c = true) : Scans space Lexeme text []
  | token {blank text rest : List σ} {t : τ} {ts : List τ}
      (hblank : ∀ c ∈ blank, space c = true) (hread : Longest Lexeme text t rest)
      (hrest : Scans space Lexeme rest ts) : Scans space Lexeme (blank ++ text) (t :: ts)

/-- The function finds the lexeme wherever it stands, or a longer one. -/
def Covers (read : List σ → Option (τ × List σ)) (u : List σ) (t : τ) : Prop :=
  ∀ rest, ∃ t' rest', read (u ++ rest) = some (t', rest') ∧ rest'.length ≤ rest.length ∧
    (rest'.length = rest.length → t' = t)

/-- The function reads the longest lexeme that stands at the beginning of a text. -/
structure Recognises (space : σ → Bool) (Lexeme : List σ → τ → Prop)
    (read : List σ → Option (τ × List σ)) : Prop where
  sound : ∀ {text t rest}, read text = some (t, rest) → ∃ u, text = u ++ rest ∧ Lexeme u t
  covers : ∀ {u t}, Lexeme u t → Covers read u t
  solid : ∀ {u t}, Lexeme u t → ∃ c v, u = c :: v ∧ space c = false

/-- The lexeme stands, whatever follows. -/
theorem Covers.of_read {u : List σ} {t : τ} (h : ∀ rest, read (u ++ rest) = some (t, rest)) :
    Covers read u t := fun rest => ⟨t, rest, h rest, le_refl _, fun _ => rfl⟩

/-- A function that answers as this one does, where this one finds something. -/
theorem Covers.of_covers {other : List σ → Option (τ × List σ)} {u : List σ} {t : τ}
    (h : Covers read u t)
    (hother : ∀ rest p, read (u ++ rest) = some p → other (u ++ rest) = some p) :
    Covers other u t := by
  intro rest
  obtain ⟨t', rest', hread, hrest⟩ := h rest
  exact ⟨t', rest', hother rest _ hread, hrest⟩

theorem dropWhile_blank {blank : List σ} (h : ∀ c ∈ blank, space c = true) (text : List σ) :
    (blank ++ text).dropWhile space = text.dropWhile space := by
  induction blank with
  | nil => rfl
  | cons c blank ih =>
    rw [List.cons_append, List.dropWhile_cons_of_pos (h c (List.mem_cons_self ..))]
    exact ih fun c' hc' => h c' (List.mem_cons_of_mem _ hc')

theorem dropWhile_eq_nil {text : List σ} :
    text.dropWhile space = [] ↔ ∀ c ∈ text, space c = true := by
  rw [List.dropWhile_eq_nil_iff]

namespace Recognises
variable (h : Recognises space Lexeme read)
include h

/-- What is read is the longest lexeme. -/
theorem read_iff {text rest : List σ} {t : τ} :
    read text = some (t, rest) ↔ Longest Lexeme text t rest := by
  constructor
  · intro hread
    refine ⟨h.sound hread, fun u t' rest' htext hlexeme => ?_⟩
    obtain ⟨t₂, rest₂, hread₂, hle, -⟩ := h.covers hlexeme rest'
    rw [← htext, hread] at hread₂
    cases hread₂
    exact hle
  · rintro ⟨⟨u, rfl, hlexeme⟩, hlongest⟩
    obtain ⟨t', rest', hread, hle, hsame⟩ := h.covers hlexeme rest
    obtain ⟨u', htext, hlexeme'⟩ := h.sound hread
    have hge := hlongest u' t' rest' htext hlexeme'
    have hlen : rest'.length = rest.length := by omega
    have hrest : rest = rest' := (List.append_inj' htext hlen.symm).2
    rw [hread, hsame hlen, hrest]

theorem read_nil : read [] = none := by
  cases hread : read [] with
  | none => rfl
  | some p =>
    obtain ⟨u, hu, hlexeme⟩ := h.sound hread
    obtain ⟨c, v, rfl, -⟩ := h.solid hlexeme
    cases hu

/-- Something has been read. -/
theorem read_length {text rest : List σ} {t : τ} (hread : read text = some (t, rest)) :
    rest.length < text.length := by
  obtain ⟨u, rfl, hlexeme⟩ := h.sound hread
  obtain ⟨c, v, rfl, -⟩ := h.solid hlexeme
  rw [List.length_append, List.length_cons]
  omega

/-- White space does not stand where a lexeme stands. -/
theorem dropWhile_of_longest {text rest : List σ} {t : τ} (hread : Longest Lexeme text t rest) :
    text.dropWhile space = text := by
  obtain ⟨u, rfl, hlexeme⟩ := hread.stands
  obtain ⟨c, v, rfl, hsolid⟩ := h.solid hlexeme
  exact List.dropWhile_cons_of_neg (by rw [hsolid]; exact Bool.false_ne_true)

/-- **How a scan goes on**, after the white space. -/
theorem scans_iff {text : List σ} {ts : List τ} :
    Scans space Lexeme text ts ↔
      text.dropWhile space = [] ∧ ts = [] ∨
        ∃ t rest ts', read (text.dropWhile space) = some (t, rest) ∧ ts = t :: ts' ∧
          Scans space Lexeme rest ts' := by
  constructor
  · intro hscan
    cases hscan with
    | done hspace => exact .inl ⟨dropWhile_eq_nil.mpr hspace, rfl⟩
    | token hblank hread hrest =>
      refine .inr ⟨_, _, _, ?_, rfl, hrest⟩
      rw [dropWhile_blank hblank, h.dropWhile_of_longest hread]
      exact h.read_iff.mpr hread
  · rintro (⟨hspace, rfl⟩ | ⟨t, rest, ts', hread, rfl, hrest⟩)
    · exact .done (dropWhile_eq_nil.mp hspace)
    · rw [← List.takeWhile_append_dropWhile (p := space) (l := text)]
      exact .token (fun c hc => List.mem_takeWhile_imp hc) (h.read_iff.mp hread) hrest

/-- A text is cut in one way only. -/
theorem scans_unique {text : List σ} {ts us : List τ} (hts : Scans space Lexeme text ts)
    (hus : Scans space Lexeme text us) : ts = us := by
  induction hts generalizing us with
  | @done text hspace =>
    rcases h.scans_iff.mp hus with ⟨-, rfl⟩ | ⟨t, rest, ts', hread, -, -⟩
    · rfl
    · rw [dropWhile_eq_nil.mpr hspace, h.read_nil] at hread
      cases hread
  | @token blank text rest t ts hblank hread hrest ih =>
    have htext : (blank ++ text).dropWhile space = text :=
      (dropWhile_blank hblank text).trans (h.dropWhile_of_longest hread)
    have hread' := h.read_iff.mpr hread
    rcases h.scans_iff.mp hus with ⟨hnil, -⟩ | ⟨t', rest', ts', hread₂, rfl, hrest'⟩
    · rw [htext] at hnil
      rw [hnil, h.read_nil] at hread'
      cases hread'
    · rw [htext, hread'] at hread₂
      cases hread₂
      rw [ih hrest']

end Recognises

end LongestMatch
