import Mathlib.Data.List.Basic

/-! # Tables under concurrent transactions

The rows of a table with what the open transactions make of them (READ COMMITTED).  A
transaction sees the committed rows and its own work.  A unique index looks further: a row that
another transaction has inserted, deleted or changed, and may yet take back, makes an insertion
wait.

A slot is a row with the transaction that has inserted it and the one that writes it.  `commit` and
`rollback` end a transaction, each for the rows that it has touched; `mem_committed` and
`mem_insert` say what is then in the table.
-/
namespace Transactions

/-- A row, with its inserter and the transaction that has locked it, while these are open. -/
structure Slot (ρ : Type) where
  row : ρ
  owner : Option Nat := none
  /-- Who holds the lock, and what it leaves of the row. -/
  writer : Option (Nat × Option ρ) := none
  deriving DecidableEq, Repr

/-- What a unique index says of a row that a transaction would insert. -/
inductive Room where
  | free
  /-- However the other transactions end, there is a row with the key. -/
  | taken
  /-- That depends on how another transaction ends. -/
  | open
  deriving DecidableEq, Repr

variable {ρ : Type}

/-- What the transaction sees of the row. -/
def Slot.seenBy (t : Nat) (e : Slot ρ) : Option ρ :=
  if e.owner = none ∨ e.owner = some t then
    match e.writer with
    | some (u, row) => if u = t then row else some e.row
    | none => some e.row
  else none

/-- What the transaction may come to see of the row as the others end. -/
def Slot.outcomes (t : Nat) (e : Slot ρ) : List (Option ρ) :=
  if e.owner = none ∨ e.owner = some t then
    match e.writer with
    | some (u, row) => if u = t then [row] else [some e.row, row]
    | none => [some e.row]
  else [none, e.writer.elim (some e.row) (·.2)]

def committed (rows : List (Slot ρ)) : List ρ :=
  (rows.filter fun e => e.owner.isNone).map (·.row)

def seenBy (t : Nat) (rows : List (Slot ρ)) : List ρ := rows.filterMap (Slot.seenBy t)

def insert (t : Nat) (row : ρ) (rows : List (Slot ρ)) : List (Slot ρ) :=
  rows ++ [{ row, owner := some t }]

/-- Another transaction holds the lock of a row that `p` picks. -/
def held (t : Nat) (p : ρ → Bool) (rows : List (Slot ρ)) : Bool :=
  rows.any fun e => (e.seenBy t).any p && e.writer.any (·.1 != t)

/-- The rows that `p` picks are locked, and `f` is what is left of them. -/
def write (t : Nat) (p : ρ → Bool) (f : ρ → Option ρ) (rows : List (Slot ρ)) : List (Slot ρ) :=
  rows.map fun e => match e.seenBy t with
    | some row => if p row then { e with writer := some (t, f row) } else e
    | none => e

def Slot.commit (t : Nat) (e : Slot ρ) : Option (Slot ρ) :=
  if e.writer.map (·.1) = some t then (e.writer.bind (·.2)).map fun row => { row }
  else some (if e.owner = some t then { e with owner := none } else e)

def Slot.rollback (t : Nat) (e : Slot ρ) : Option (Slot ρ) :=
  if e.owner = some t then none
  else some (if e.writer.map (·.1) = some t then { e with writer := none } else e)

def commit (t : Nat) (rows : List (Slot ρ)) : List (Slot ρ) := rows.filterMap (Slot.commit t)

def rollback (t : Nat) (rows : List (Slot ρ)) : List (Slot ρ) :=
  rows.filterMap (Slot.rollback t)

/-- Whether a row may be inserted that conflicts with those `p` picks. -/
def room (t : Nat) (p : ρ → Bool) (rows : List (Slot ρ)) : Room :=
  if rows.any fun e => (e.outcomes t).all fun row => row.any p then .taken
  else if rows.any fun e => (e.outcomes t).any fun row => row.any p then .open
  else .free

section
variable {t : Nat} {p : ρ → Bool} {f : ρ → Option ρ} {rows : List (Slot ρ)} {row : ρ}
  {e : Slot ρ}

theorem mem_committed : row ∈ committed rows ↔ ∃ e ∈ rows, e.owner = none ∧ e.row = row := by
  simp only [committed, List.mem_map, List.mem_filter, Option.isNone_iff_eq_none, and_assoc]

/-- What a transaction sees of a row is the row, or what it has made of it itself. -/
theorem Slot.seenBy_some (h : e.seenBy t = some row) :
    (e.owner = none ∨ e.owner = some t) ∧ (row = e.row ∨ e.writer = some (t, some row)) := by
  obtain ⟨first, owner, writer⟩ := e
  unfold seenBy at h
  split at h
  · rename_i howner
    refine ⟨howner, ?_⟩
    rcases writer with _ | ⟨u, after⟩
    · exact .inl (Option.some.inj h).symm
    · dsimp only at h
      by_cases hu : u = t
      · rw [if_pos hu] at h
        exact .inr (by rw [hu, h])
      · rw [if_neg hu] at h
        exact .inl (Option.some.inj h).symm
  · cases h

theorem mem_seenBy (h : row ∈ seenBy t rows) : ∃ e ∈ rows, e.seenBy t = some row :=
  List.mem_filterMap.mp h

/-- What is seen now is one of the outcomes. -/
theorem Slot.seenBy_mem (t : Nat) (e : Slot ρ) : e.seenBy t ∈ e.outcomes t := by
  obtain ⟨first, owner, writer⟩ := e
  unfold seenBy outcomes
  split
  · rcases writer with _ | ⟨u, after⟩
    · exact List.mem_singleton_self _
    · dsimp only
      split
      · exact List.mem_singleton_self _
      · exact List.mem_cons_self
  · exact List.mem_cons_self

/-- A key that is taken is the key of a row that the transaction sees. -/
theorem room_taken (h : room t p rows = .taken) : ∃ row ∈ seenBy t rows, p row = true := by
  unfold room at h
  split at h
  · rename_i hany
    obtain ⟨e, he, hall⟩ := List.any_eq_true.mp hany
    have hseen := List.all_eq_true.mp hall _ (e.seenBy_mem t)
    cases hrow : e.seenBy t with
    | none =>
      rw [hrow] at hseen
      cases hseen
    | some row =>
      rw [hrow] at hseen
      exact ⟨row, List.mem_filterMap.mpr ⟨e, he, hrow⟩, hseen⟩
  · split at h
    · cases h
    · cases h

theorem mem_insert : e ∈ insert t row rows ↔ e ∈ rows ∨ e = { row, owner := some t } := by
  simp only [insert, List.mem_append, List.mem_singleton]

theorem mem_write (h : e ∈ write t p f rows) :
    ∃ e' ∈ rows, e.row = e'.row ∧ e.owner = e'.owner ∧ (e.writer = e'.writer ∨
      ∃ row, e'.seenBy t = some row ∧ e.writer = some (t, f row)) := by
  obtain ⟨e', he', rfl⟩ := List.mem_map.mp h
  refine ⟨e', he', ?_⟩
  split
  · rename_i row hrow
    split
    · exact ⟨rfl, rfl, .inr ⟨row, hrow, rfl⟩⟩
    · exact ⟨rfl, rfl, .inl rfl⟩
  · exact ⟨rfl, rfl, .inl rfl⟩

/-- After a commit the transaction has no work left: a row is what it made of it, or is one that
it has inserted or has not touched. -/
theorem mem_commit (h : e ∈ commit t rows) :
    ∃ e' ∈ rows, e.owner ≠ some t ∧ (e'.writer = some (t, some e.row) ∧ e.owner = none ∧
        e.writer = none ∨
      e.row = e'.row ∧ e.writer = e'.writer ∧
        (e.owner = e'.owner ∨ e'.owner = some t ∧ e.owner = none)) := by
  obtain ⟨e', he', hcommit⟩ := List.mem_filterMap.mp h
  refine ⟨e', he', ?_⟩
  unfold Slot.commit at hcommit
  split at hcommit
  · rename_i hwriter
    obtain ⟨⟨u, after⟩, hsome, rfl⟩ := Option.map_eq_some_iff.mp hwriter
    rw [hsome] at hcommit
    obtain ⟨row, hrow, rfl⟩ := Option.map_eq_some_iff.mp hcommit
    obtain rfl : after = some row := hrow
    refine ⟨?_, .inl ⟨hsome, rfl, rfl⟩⟩
    rintro ⟨⟩
  · obtain rfl := Option.some.inj hcommit
    by_cases hown : e'.owner = some t
    · rw [if_pos hown]
      refine ⟨?_, .inr ⟨rfl, rfl, .inr ⟨hown, rfl⟩⟩⟩
      rintro ⟨⟩
    · rw [if_neg hown]
      exact ⟨hown, .inr ⟨rfl, rfl, .inl rfl⟩⟩

theorem mem_rollback (h : e ∈ rollback t rows) :
    ∃ e' ∈ rows, e.row = e'.row ∧ e.owner = e'.owner ∧ e.owner ≠ some t ∧
      (e.writer = e'.writer ∨ e.writer = none) := by
  obtain ⟨e', he', hrollback⟩ := List.mem_filterMap.mp h
  refine ⟨e', he', ?_⟩
  unfold Slot.rollback at hrollback
  split at hrollback
  · cases hrollback
  · rename_i hown
    obtain rfl := Option.some.inj hrollback
    split
    · exact ⟨rfl, rfl, hown, .inr rfl⟩
    · exact ⟨rfl, rfl, hown, .inl rfl⟩

end

end Transactions
