import Mathlib.Data.List.Sort
import L1Agent.Models.Incident
import L1Agent.Models.Sop

/-! # The SOP matcher (`engine/sop_matcher.py`)

`find` scores the SOPs one by one, sorts them by their scores and takes the first.  The score of
one SOP is a parameter: its signals are regular expressions and sets of words, weighed in floating
point.  What a run relies on is that it depends on the ticket and on this SOP alone, and that
no other SOP has a better one (`find_best`).  The resolution memory, which no deployment passes
in, and the alternatives, which nothing reads, are left out.

The signals themselves and how they are weighed are in `Engine/Scoring.lean`, where the score is no
parameter any more.
-/
namespace L1Agent

/-- `f"{value:.2f}"` of a value that is not negative. -/
def twoDecimals (value : Rat) : String :=
  let cents := value * 100
  let down := cents.floor.toNat
  let rest := cents - down
  -- Halves go to the even neighbour.
  let n := if rest < 1 / 2 ∨ (rest = 1 / 2 ∧ down % 2 = 0) then down else down + 1
  toString (n / 100) ++ "." ++ (if n % 100 < 10 then "0" else "") ++ toString (n % 100)

/-- `SOPMatcher` -/
structure SopMatcher where
  /-- The score of one SOP for the ticket, and its rationale. -/
  score : Incident → SOP → Rat × String
  threshold : Rat
  /-- `str(self._threshold)` -/
  shown : String

/-- One SOP with its score, by its place in the list. -/
structure Scored where
  place : Nat
  score : Rat
  rationale : String

namespace SopMatcher
variable (m : SopMatcher) (incident : Incident) (sops : List SOP)

/-- `scored` -/
def scored : List Scored :=
  sops.zipIdx.map fun p => ⟨p.2, (m.score incident p.1).1, (m.score incident p.1).2⟩

/-- `scored.sort(key=lambda x: x[1], reverse=True)`: of equal scores the first stays first. -/
def ranked : List Scored := (m.scored incident sops).mergeSort fun a b => b.score ≤ a.score

/-- `match`: the place of the best SOP, its score and why. -/
def find : Option Nat × Option Rat × String :=
  match m.ranked incident sops with
  | [] => (none, some 0, "No SOPs available in the knowledge base.")
  | best :: _ =>
    (some best.place, some best.score,
      if best.score < m.threshold then
        s!"Low confidence ({twoDecimals best.score} < {m.shown}). Best: {best.rationale}"
      else best.rationale)

variable {m incident sops}

theorem mem_scored {x : Scored} (h : x ∈ m.scored incident sops) :
    ∃ sop, sops[x.place]? = some sop ∧ x.score = (m.score incident sop).1 := by
  obtain ⟨⟨sop, i⟩, hmem, rfl⟩ := List.mem_map.mp h
  exact ⟨sop, List.mem_zipIdx_iff_getElem?.mp hmem, rfl⟩

theorem scored_of_mem {sop : SOP} (h : sop ∈ sops) :
    ∃ x ∈ m.scored incident sops, x.score = (m.score incident sop).1 := by
  obtain ⟨i, hi⟩ := List.mem_iff_getElem?.mp h
  have hmem : (sop, i) ∈ sops.zipIdx := List.mem_zipIdx_iff_getElem?.mpr hi
  exact ⟨⟨i, (m.score incident sop).1, (m.score incident sop).2⟩, List.mem_map.mpr ⟨_, hmem, rfl⟩,
    rfl⟩

/-- The first of the sorted list has the best score. -/
theorem ranked_best {best : Scored} {others : List Scored}
    (h : m.ranked incident sops = best :: others) :
    best ∈ m.scored incident sops ∧ ∀ x ∈ m.scored incident sops, x.score ≤ best.score := by
  have hperm := List.mergeSort_perm (m.scored incident sops) fun a b => b.score ≤ a.score
  have hmem : ∀ x, x ∈ best :: others ↔ x ∈ m.scored incident sops := by
    intro x
    rw [← h]
    exact hperm.mem_iff
  have hsorted : (best :: others).Pairwise fun a b => decide (b.score ≤ a.score) = true := by
    rw [← h]
    refine List.pairwise_mergeSort (fun a b c hab hbc => ?_) (fun a b => ?_) _
    · rw [decide_eq_true_eq] at hab hbc ⊢
      exact hbc.trans hab
    · rw [Bool.or_eq_true, decide_eq_true_eq, decide_eq_true_eq]
      exact le_total b.score a.score
  refine ⟨(hmem best).mp (List.mem_cons_self ..), fun x hx => ?_⟩
  rcases List.mem_cons.mp ((hmem x).mpr hx) with rfl | hx
  · exact le_refl _
  · exact of_decide_eq_true ((List.pairwise_cons.mp hsorted).1 x hx)

/-- **The SOP that is found has the best score of all.** -/
theorem find_best (hne : sops ≠ []) :
    ∃ i sop, (m.find incident sops).1 = some i ∧ sops[i]? = some sop ∧
      (m.find incident sops).2.1 = some (m.score incident sop).1 ∧
      ∀ other ∈ sops, (m.score incident other).1 ≤ (m.score incident sop).1 := by
  obtain ⟨first, hfirst⟩ := List.exists_mem_of_ne_nil sops hne
  unfold find
  cases hr : m.ranked incident sops with
  | nil =>
    obtain ⟨x, hx, -⟩ := @scored_of_mem m incident sops first hfirst
    have hperm := List.mergeSort_perm (m.scored incident sops) fun a b => b.score ≤ a.score
    have hx' : x ∈ m.ranked incident sops := hperm.mem_iff.mpr hx
    rw [hr] at hx'
    exact absurd hx' List.not_mem_nil
  | cons best others =>
    obtain ⟨hmem, hmax⟩ := ranked_best hr
    obtain ⟨sop, hsop, hscore⟩ := mem_scored hmem
    refine ⟨best.place, sop, rfl, hsop, by rw [← hscore], fun other hother => ?_⟩
    obtain ⟨x, hx, hxs⟩ := @scored_of_mem m incident sops other hother
    rw [← hxs, ← hscore]
    exact hmax x hx

/-- **An SOP alone gets its own score.** -/
theorem find_alone (sop : SOP) :
    (m.find incident [sop]).1 = some 0 ∧
      (m.find incident [sop]).2.1 = some (m.score incident sop).1 := by
  obtain ⟨i, found, hplace, hfound, hscore, -⟩ :=
    @find_best m incident [sop] (List.cons_ne_nil sop [])
  obtain ⟨hi, -⟩ := List.getElem?_eq_some_iff.mp hfound
  obtain rfl : i = 0 := by
    rw [List.length_singleton] at hi
    omega
  obtain rfl : sop = found := Option.some.inj hfound
  exact ⟨hplace, hscore⟩

end SopMatcher
end L1Agent
