import Mathlib.Data.List.Nodup

/-! # Rows that are found again by a key

A table is a list of rows.  `Carried R` relates a table to a later state of it: no row is lost, and
what has become of each is related to it by `R`.  Under a unique key, the row that is found later
is the one that was there before.

`Carried.found` is the use of it: what is found under a key is what has become of the row that
had it.
-/
namespace Rows
variable {α κ : Type} {R : α → α → Prop} {key : α → κ} {rows before after : List α}

/-- Every row is still there, as what `R` relates it to. -/
def Carried (R : α → α → Prop) (before after : List α) : Prop := ∀ x ∈ before, ∃ y ∈ after, R x y

theorem Carried.refl (hrefl : ∀ x, R x x) (rows : List α) : Carried R rows rows :=
  fun x hx => ⟨x, hx, hrefl x⟩

theorem Carried.trans (htrans : ∀ x y z, R x y → R y z → R x z) {later : List α}
    (h : Carried R before after) (hlater : Carried R after later) : Carried R before later := by
  intro x hx
  obtain ⟨y, hy, hxy⟩ := h x hx
  obtain ⟨z, hz, hyz⟩ := hlater y hy
  exact ⟨z, hz, htrans x y z hxy hyz⟩

theorem carried_map {f : α → α} (h : ∀ x ∈ rows, R x (f x)) : Carried R rows (rows.map f) :=
  fun x hx => ⟨f x, List.mem_map_of_mem hx, h x hx⟩

theorem carried_append (hrefl : ∀ x, R x x) (more : List α) : Carried R rows (rows ++ more) :=
  fun x hx => ⟨x, List.mem_append_left _ hx, hrefl x⟩

/-- **What is found under a key** is what has become of the row that had it. -/
theorem Carried.found (hkey : ∀ x y, R x y → key y = key x) (h : Carried R before after)
    (hunique : (after.map key).Nodup) {x y : α} (hx : x ∈ before) (hy : y ∈ after)
    (heq : key y = key x) : R x y := by
  obtain ⟨z, hz, hxz⟩ := h x hx
  obtain rfl : z = y := List.inj_on_of_nodup_map hunique hz hy ((hkey x z hxz).trans heq.symm)
  exact hxz

theorem nodup_update {f : α → α} (hf : ∀ x ∈ rows, key (f x) = key x)
    (h : (rows.map key).Nodup) : ((rows.map f).map key).Nodup := by
  have heq : (rows.map f).map key = rows.map key := by
    rw [List.map_map]
    exact List.map_congr_left hf
  rw [heq]
  exact h

theorem nodup_insert {x : α} (h : (rows.map key).Nodup) (hx : ∀ y ∈ rows, key y ≠ key x) :
    ((rows ++ [x]).map key).Nodup := by
  rw [List.map_append, List.map_singleton]
  refine List.nodup_append.mpr ⟨h, List.nodup_singleton _, ?_⟩
  intro k hk k' hk' heq
  obtain ⟨y, hy, rfl⟩ := List.mem_map.mp hk
  exact hx y hy (heq.trans (List.mem_singleton.mp hk'))

theorem nodup_filter {p : α → Bool} (h : (rows.map key).Nodup) : ((rows.filter p).map key).Nodup :=
  h.sublist ((List.filter_sublist).map key)

end Rows
