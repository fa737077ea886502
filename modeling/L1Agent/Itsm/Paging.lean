import L1Agent.Library.Json
import L1Agent.Library.Program

/-! # Lists read a page at a time (`_get_all`, `connectors/itsm/servicenow.py`)

The instance cuts a page before it applies access rules, so a page can be short, or empty, while
readable rows remain further on.  The end of the list is taken from `X-Total-Count`; only where the
instance does not send it does a short page mean the end.

`paging_exact` says what is returned and which requests are made for it, for every size of the list,
of the page and of the ceiling; whatever the instance answers, no more pages are asked for than the
ceiling allows.  `eval_getAllFrom` is the run lemma, by the pages that are left.
-/
namespace L1Agent
namespace Paging
open Interleaving

/-- The settings of the connector that paging reads. -/
structure Settings where
  pageSize : Int := 100
  maxPages : Int := 10
  deriving DecidableEq

/-- `max(1, page_size)` -/
def Settings.size (s : Settings) : Nat := (max 1 s.pageSize).toNat

/-- `max(1, max_pages)` -/
def Settings.ceiling (s : Settings) : Nat := (max 1 s.maxPages).toNat

/-- A GET of one page: `sysparm_limit` and `sysparm_offset` stand over the list's own parameters. -/
structure Get where
  path : String
  params : List (String × String)
  limit : Nat
  offset : Nat
  deriving DecidableEq

/-- What `_get` returns, and the total that `_request` has noted of the answer. -/
structure Answer where
  body : Json
  total : Option Int
  deriving DecidableEq

/-- The requests; one that fails raises. -/
abbrev Gets (ε : Type) : Signature := ⟨Get, fun _ => Except ε Answer⟩

variable {ε : Type}

def get (o : Get) : Program (Gets ε) ε Answer := (Program.op o).bind Program.ofExcept

/-- The list ends with this page. -/
def ended (size page : Nat) (batch : List Json) : Option Int → Bool
  | some total => total ≤ ((page + 1) * size : Nat)
  | none => batch.length < size

/-- The rest of the loop, with the pages that are left and the rows so far. -/
def getAllFrom (o : Nat → Get) (size : Nat) : Nat → Nat → List Json → Program (Gets ε) ε (List Json)
  | 0, _, rows => pure rows
  | pages + 1, page, rows =>
    (get (o page)).bind fun answer =>
      match answer.body.getD "result" (.arr []) with
      | .arr batch =>
        if ended size page batch answer.total then pure (rows ++ batch)
        else getAllFrom o size pages (page + 1) (rows ++ batch)
      | _ => pure rows

/-- The request for a page. -/
def pageRequest (s : Settings) (path : String) (params : List (String × String)) (page : Nat) :
    Get :=
  ⟨path, params, s.size, page * s.size⟩

/-- `_get_all` -/
def getAll (s : Settings) (path : String) (params : List (String × String)) :
    Program (Gets ε) ε (List Json) :=
  getAllFrom (pageRequest s path params) s.size s.ceiling 0 []

/-! ## The instance -/

/-- The rows of these that the user may read. -/
def readable (rows : List (Json × Bool)) : List Json := (rows.filter (·.2)).map (·.1)

/-- An instance that holds the rows, each readable or hidden, and counts all of them. -/
def serve (rows : List (Json × Bool)) (o : Get) : Except ε Answer :=
  .ok ⟨.obj [("result", .arr (readable ((rows.drop o.offset).take o.limit)))], some rows.length⟩

theorem readable_append (a b : List (Json × Bool)) :
    readable (a ++ b) = readable a ++ readable b := by
  unfold readable
  rw [List.filter_append, List.map_append]

theorem Settings.size_pos (s : Settings) : 0 < s.size := by
  unfold Settings.size
  omega

/-- How many pages the rows take; a list without rows takes one request too. -/
def pagesOf (total size : Nat) : Nat := max 1 ((total + size - 1) / size)

/-- The page is the last one that has rows. -/
theorem pagesOf_le {total size page : Nat} (hsize : 0 < size) :
    pagesOf total size ≤ page + 1 ↔ total ≤ (page + 1) * size := by
  unfold pagesOf
  have hdiv : (total + size - 1) / size ≤ page + 1 ↔ total ≤ (page + 1) * size := by
    rw [Nat.div_le_iff_le_mul_add_pred hsize, Nat.mul_comm]
    omega
  rw [← hdiv]
  omega

section
variable {rows : List (Json × Bool)} {s : Settings} {path : String}
  {params : List (String × String)}

/-- The rows of a page that the user may read. -/
def batchOf (rows : List (Json × Bool)) (size page : Nat) : List Json :=
  readable ((rows.drop (page * size)).take size)

/-- The instance's count says whether the page is the last one. -/
theorem ended_serve (batch : List Json) (size page : Nat) :
    ended size page batch (some (rows.length : Int)) =
      decide (rows.length ≤ (page + 1) * size) := by
  unfold ended
  exact decide_eq_decide.mpr Int.ofNat_le

/-- One round against the instance: the loop stops at the last page, with its rows. -/
theorem eval_round {pages page : Nat} {acc : List Json} :
    (getAllFrom (pageRequest s path params) s.size (pages + 1) page acc :
        Program (Gets ε) ε (List Json)).eval (serve rows) =
      if rows.length ≤ (page + 1) * s.size then .ok (acc ++ batchOf rows s.size page)
      else (getAllFrom (pageRequest s path params) s.size pages (page + 1)
        (acc ++ batchOf rows s.size page)).eval (serve rows) := by
  show Program.eval (E := Gets ε) (serve rows)
    (if ended s.size page (batchOf rows s.size page) (some _) then _ else _) = _
  rw [ended_serve]
  by_cases hlast : rows.length ≤ (page + 1) * s.size
  · rw [if_pos (decide_eq_true hlast), if_pos hlast]
    rfl
  · rw [if_neg (by simpa using hlast), if_neg hlast]
    rfl

theorem ops_round {pages page : Nat} {acc : List Json} :
    (getAllFrom (pageRequest s path params) s.size (pages + 1) page acc :
        Program (Gets ε) ε (List Json)).ops (serve rows) =
      pageRequest s path params page ::
        if rows.length ≤ (page + 1) * s.size then []
        else (getAllFrom (pageRequest s path params) s.size pages (page + 1)
          (acc ++ batchOf rows s.size page) : Program (Gets ε) ε (List Json)).ops (serve rows) := by
  show pageRequest s path params page :: Program.ops (E := Gets ε) (serve rows)
    (if ended s.size page (batchOf rows s.size page) (some _) then _ else _) = _
  rw [ended_serve]
  by_cases hlast : rows.length ≤ (page + 1) * s.size
  · rw [if_pos (decide_eq_true hlast), if_pos hlast]
    rfl
  · rw [if_neg (by simpa using hlast), if_neg hlast]
    rfl

/-- **The run lemma**: the loop adds the readable rows of the pages that are left to it. -/
theorem eval_getAllFrom {pages page : Nat} {acc : List Json} :
    (getAllFrom (pageRequest s path params) s.size pages page acc :
        Program (Gets ε) ε (List Json)).eval (serve rows) =
      .ok (acc ++ readable ((rows.drop (page * s.size)).take (pages * s.size))) := by
  induction pages generalizing page acc with
  | zero =>
    rw [Nat.zero_mul, List.take_zero]
    exact congrArg Except.ok (List.append_nil acc).symm
  | succ pages ih =>
    have hnext : (page + 1) * s.size = page * s.size + s.size := by rw [Nat.succ_mul]
    have hsize : (pages + 1) * s.size = s.size + pages * s.size := by
      rw [Nat.succ_mul, Nat.add_comm]
    rw [eval_round, ih]
    by_cases hlast : rows.length ≤ (page + 1) * s.size
    · -- No rows stand behind the last page.
      have hrest : (rows.drop (page * s.size)).length ≤ s.size := by
        rw [List.length_drop]
        omega
      rw [if_pos hlast, batchOf, List.take_of_length_le hrest,
        List.take_of_length_le (by rw [hsize]; omega)]
    · rw [if_neg hlast, batchOf, List.append_assoc, ← readable_append, hsize, List.take_add,
        List.drop_drop, hnext]

/-- The requests that are made: a page each, up to the last page or the ceiling. -/
theorem ops_getAllFrom {pages page : Nat} {acc : List Json} :
    (getAllFrom (pageRequest s path params) s.size pages page acc :
        Program (Gets ε) ε (List Json)).ops (serve rows) =
      (List.range (min pages (max 1 (pagesOf rows.length s.size - page)))).map fun i =>
        pageRequest s path params (page + i) := by
  induction pages generalizing page acc with
  | zero => rw [Nat.zero_min]; rfl
  | succ pages ih =>
    have hend := @pagesOf_le rows.length s.size page s.size_pos
    rw [ops_round]
    by_cases hlast : rows.length ≤ (page + 1) * s.size
    · have hone : min (pages + 1) (max 1 (pagesOf rows.length s.size - page)) = 1 := by
        have := hend.mpr hlast
        omega
      rw [if_pos hlast, hone]
      rfl
    · have hmore : min (pages + 1) (max 1 (pagesOf rows.length s.size - page)) =
          min pages (max 1 (pagesOf rows.length s.size - (page + 1))) + 1 := by
        have := mt hend.mp hlast
        omega
      rw [if_neg hlast, ih, hmore, List.range_succ_eq_map, List.map_cons, List.map_map]
      refine congrArg (pageRequest s path params page :: ·) (List.map_congr_left fun i _ => ?_)
      show _ = pageRequest s path params (page + (i + 1))
      rw [Nat.add_assoc, Nat.add_comm 1 i]

end

/-- Whatever an instance answers, no more pages are asked for than the ceiling. -/
theorem ops_length (w : Get → Except ε Answer) (o : Nat → Get) (size : Nat) {pages page : Nat}
    {acc : List Json} :
    ((getAllFrom o size pages page acc : Program (Gets ε) ε (List Json)).ops w).length ≤ pages := by
  induction pages generalizing page acc with
  | zero => exact Nat.zero_le _
  | succ pages ih =>
    rw [getAllFrom, Program.ops_bind, List.length_append]
    have hone : ((get (o page) : Program (Gets ε) ε Answer).ops w).length = 1 := by
      rw [get, Program.ops_bind]
      show (o page :: Program.ops (E := Gets ε) w (Program.ofExcept (w (o page)))).length = 1
      rw [Program.ops_ofExcept]
      rfl
    rw [hone]
    cases (get (o page) : Program (Gets ε) ε Answer).eval w with
    | error e => exact Nat.le_add_left 1 pages
    | ok answer =>
      dsimp only
      split
      · split
        · exact Nat.le_add_left 1 pages
        · rename_i batch _ _
          have := @ih (page + 1) (acc ++ batch)
          omega
      · exact Nat.le_add_left 1 pages

/-- **Paging returns each readable row once.**  Of the rows that the instance holds, whichever of
them are hidden, `_get_all` returns the readable ones among the first `min(total, size * ceiling)`,
in order; it asks for the pages up to the last one or the ceiling, once each, and never for more
than the ceiling allows. -/
theorem paging_exact (s : Settings) (path : String) (params : List (String × String))
    (rows : List (Json × Bool)) :
    (getAll s path params : Program (Gets ε) ε (List Json)).eval (serve rows) =
        .ok (readable (rows.take (min rows.length (s.size * s.ceiling)))) ∧
      (getAll s path params : Program (Gets ε) ε (List Json)).ops (serve rows) =
        (List.range (min s.ceiling (pagesOf rows.length s.size))).map
          (pageRequest s path params) ∧
      ∀ w : Get → Except ε Answer,
        ((getAll s path params : Program (Gets ε) ε (List Json)).ops w).length ≤ s.ceiling := by
  refine ⟨?_, ?_, fun w => ops_length w _ _⟩
  · rw [getAll, eval_getAllFrom, Nat.zero_mul, List.drop_zero, Nat.mul_comm,
      Nat.min_comm, ← List.take_eq_take_min]
    rfl
  · have hpages : max 1 (pagesOf rows.length s.size - 0) = pagesOf rows.length s.size := by
      unfold pagesOf
      omega
    rw [getAll, ops_getAllFrom, hpages]
    exact List.map_congr_left fun i _ => congrArg _ (Nat.zero_add i)

/-- Two pages of two rows, of which the first has no readable row. -/
example : (getAll ⟨2, 10⟩ "" [] : Program (Gets Unit) Unit (List Json)).eval
    (serve [(.int 1, false), (.int 2, false), (.int 3, true), (.int 4, true)]) =
      .ok [.int 3, .int 4] := rfl

end Paging
end L1Agent
