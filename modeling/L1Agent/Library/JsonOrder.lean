import L1Agent.Library.Json
import Mathlib.Data.List.Lookmap
import Mathlib.Data.List.Nodup
import Mathlib.Data.List.Perm.Subperm
import Mathlib.Data.String.Basic

/-! # The order of an object's keys

An object is a mapping: the order of its keys says nothing.  `Json.Same` is equality up to that
order, at every depth, and `Json.canonical` puts the keys in order.  Two values that a program can
hold have the same canonical form exactly when they are the same (`canonical_eq_iff`).

The two directions are `same_of_canonical` and `canonical_of_same`; besides, the canonical form is
its own (`canonical_canonical`), and a proper value stays one (`proper_canonical`).
-/
namespace Json

/-- A field put into its place among fields sorted by key. -/
def insertField (key : String) (value : Json) : List (String × Json) → List (String × Json)
  | [] => [(key, value)]
  | (k, v) :: fields =>
    if key ≤ k then (key, value) :: (k, v) :: fields
    else (k, v) :: insertField key value fields

mutual

/-- The value with the fields of every object sorted by key: two values have the same
canonical text exactly when they agree here. -/
def canonical : Json → Json
  | arr items => arr (canonicalItems items)
  | obj fields => obj (canonicalFields fields)
  | v => v

def canonicalItems : List Json → List Json
  | [] => []
  | v :: vs => canonical v :: canonicalItems vs

def canonicalFields : List (String × Json) → List (String × Json)
  | [] => []
  | (k, v) :: fields => insertField k (canonical v) (canonicalFields fields)

end

mutual

/-- **Equality up to the order of keys**, as mappings are compared: there are as many keys, and
each has the same value. -/
def Same : Json → Json → Prop
  | arr as, arr bs => SameItems as bs
  | obj fs, obj gs => fs.length = gs.length ∧ SameFields fs gs
  | a, b => a = b

def SameItems : List Json → List Json → Prop
  | [], [] => True
  | a :: as, b :: bs => Same a b ∧ SameItems as bs
  | _, _ => False

def SameFields : List (String × Json) → List (String × Json) → Prop
  | [], _ => True
  | (k, v) :: fs, gs => (∃ w, gs.lookup k = some w ∧ Same v w) ∧ SameFields fs gs

end

mutual

/-- **A value that a program can hold**: no object has a key twice, and its numbers are of these. -/
def Proper (number : Json → Prop) : Json → Prop
  | arr items => ProperItems number items
  | obj fields => (fields.map Prod.fst).Nodup ∧ ProperFields number fields
  | int n => number (int n)
  | float q => number (float q)
  | _ => True

def ProperItems (number : Json → Prop) : List Json → Prop
  | [] => True
  | v :: vs => Proper number v ∧ ProperItems number vs

def ProperFields (number : Json → Prop) : List (String × Json) → Prop
  | [] => True
  | (_, v) :: fields => Proper number v ∧ ProperFields number fields

end

variable {number : Json → Prop}

/-! ## Fields in order -/

/-- A field with its value in canonical form. -/
def canonicalField (f : String × Json) : String × Json := (f.1, canonical f.2)

theorem insertField_perm (key : String) (value : Json) (fields : List (String × Json)) :
    (insertField key value fields).Perm ((key, value) :: fields) := by
  induction fields with
  | nil => exact .refl _
  | cons f fields ih =>
    unfold insertField
    split
    · exact .refl _
    · exact (ih.cons f).trans (.swap ..)

theorem canonicalFields_perm (fields : List (String × Json)) :
    (canonicalFields fields).Perm (fields.map canonicalField) := by
  induction fields with
  | nil =>
    unfold canonicalFields
    exact .refl _
  | cons f fields ih =>
    unfold canonicalFields
    exact (insertField_perm ..).trans (ih.cons _)

/-- The keys are in order. -/
def Sorted (fields : List (String × Json)) : Prop := fields.Pairwise fun f g => f.1 ≤ g.1

theorem insertField_sorted {key : String} {value : Json} {fields : List (String × Json)}
    (h : Sorted fields) : Sorted (insertField key value fields) := by
  induction fields with
  | nil => exact List.pairwise_singleton _ _
  | cons f fields ih =>
    obtain ⟨hhead, htail⟩ := List.pairwise_cons.mp h
    unfold insertField
    split
    · rename_i hle
      refine List.pairwise_cons.mpr ⟨fun g hg => ?_, h⟩
      rcases List.mem_cons.mp hg with rfl | hg
      · exact hle
      · exact le_trans hle (hhead g hg)
    · rename_i hlt
      refine List.pairwise_cons.mpr ⟨fun g hg => ?_, ih htail⟩
      rcases List.mem_cons.mp ((insertField_perm ..).mem_iff.mp hg) with rfl | hg
      · exact (le_total _ _).resolve_left hlt
      · exact hhead g hg

theorem canonicalFields_sorted (fields : List (String × Json)) :
    Sorted (canonicalFields fields) := by
  induction fields with
  | nil =>
    unfold canonicalFields
    exact .nil
  | cons f fields ih =>
    unfold canonicalFields
    exact insertField_sorted ih

/-- A field that comes first is put first. -/
theorem insertField_first {key : String} {value : Json} {fields : List (String × Json)}
    (h : ∀ f ∈ fields, key ≤ f.1) : insertField key value fields = (key, value) :: fields := by
  cases fields with
  | nil => rfl
  | cons f fields =>
    unfold insertField
    rw [if_pos (h f (List.mem_cons_self ..))]

theorem canonicalFields_of_sorted {fields : List (String × Json)} (h : Sorted fields)
    (hvalues : ∀ f ∈ fields, canonical f.2 = f.2) : canonicalFields fields = fields := by
  induction fields with
  | nil => rw [canonicalFields]
  | cons f fields ih =>
    obtain ⟨hhead, htail⟩ := List.pairwise_cons.mp h
    rw [canonicalFields, hvalues f (List.mem_cons_self ..),
      ih htail fun g hg => hvalues g (List.mem_cons_of_mem _ hg)]
    exact insertField_first hhead

mutual

/-- **The canonical form is its own.** -/
theorem canonical_canonical : ∀ v : Json, v.canonical.canonical = v.canonical
  | arr items => by rw [canonical, canonical, canonicalItems_canonicalItems items]
  | obj fields => by
    rw [canonical, canonical, canonicalFields_of_sorted (canonicalFields_sorted fields)]
    intro f hf
    obtain ⟨g, hg, rfl⟩ := List.mem_map.mp ((canonicalFields_perm fields).mem_iff.mp hf)
    exact canonical_values fields g hg
  | null | bool _ | int _ | float _ | str _ => by simp [canonical]

theorem canonicalItems_canonicalItems :
    ∀ vs : List Json, canonicalItems (canonicalItems vs) = canonicalItems vs
  | [] => by simp [canonicalItems]
  | v :: vs => by
    simp only [canonicalItems, canonical_canonical v, canonicalItems_canonicalItems vs]

theorem canonical_values : ∀ fields : List (String × Json), ∀ f ∈ fields,
    canonical (canonicalField f).2 = (canonicalField f).2
  | [], _, h => nomatch h
  | (k, v) :: fields, f, h => by
    rcases List.mem_cons.mp h with rfl | h
    · exact canonical_canonical v
    · exact canonical_values fields f h

end

/-! ## Equality up to the order of keys -/

theorem mem_of_lookup {fields : List (String × Json)} {key : String} {value : Json}
    (h : fields.lookup key = some value) : (key, value) ∈ fields := by
  obtain ⟨before, after, rfl, -⟩ := List.lookup_eq_some_iff.mp h
  simp

/-- A key that occurs once is looked up. -/
theorem lookup_of_mem {fields : List (String × Json)} (hkeys : (fields.map Prod.fst).Nodup)
    {key : String} {value : Json} (h : (key, value) ∈ fields) :
    fields.lookup key = some value := by
  obtain ⟨before, after, rfl⟩ := List.append_of_mem h
  refine List.lookup_eq_some_iff.mpr ⟨before, after, rfl, fun f hf => ?_⟩
  rw [List.map_append, List.map_cons, List.nodup_append] at hkeys
  have hne : f.1 ≠ key := hkeys.2.2 f.1 (List.mem_map_of_mem hf) key (List.mem_cons_self ..)
  simpa using hne.symm

theorem lookup_setField (fields : List (String × Json)) (key : String) (value : Json) (k : String) :
    (setField fields key value).lookup k = if k = key then some value else fields.lookup k := by
  unfold setField
  by_cases hany : fields.any (·.1 == key) = true
  · rw [if_pos hany]
    induction fields with
    | nil => cases hany
    | cons f fields ih =>
      rw [List.map_cons]
      by_cases hf : f.1 = key
      · rw [if_pos (beq_iff_eq.mpr hf)]
        by_cases hk : k = key
        · rw [if_pos hk, List.lookup_cons, beq_iff_eq.mpr hk]
        · -- the field is another's, and so are those that are replaced
          have hrest : ∀ gs : List (String × Json), (gs.map fun f =>
              if f.1 == key then (key, value) else f).lookup k = gs.lookup k := by
            intro gs
            induction gs with
            | nil => rfl
            | cons g gs ihg =>
              rw [List.map_cons, List.lookup_cons, List.lookup_cons, ihg]
              by_cases hg : g.1 = key
              · rw [if_pos (beq_iff_eq.mpr hg), hg, beq_false_of_ne hk]
              · rw [if_neg (by simpa using hg)]
          rw [if_neg hk, List.lookup_cons, List.lookup_cons, hf, beq_false_of_ne hk, hrest]
      · have htail : fields.any (·.1 == key) = true := by
          simpa [hf] using hany
        rw [if_neg (by simpa using hf), List.lookup_cons, List.lookup_cons, ih htail]
        by_cases hk : k = key
        · have hkf : (k == f.1) = false := beq_false_of_ne (fun heq => hf (heq ▸ hk))
          rw [hkf, if_pos hk]
        · rw [if_neg hk, if_neg hk]
  · rw [if_neg hany]
    by_cases hk : k = key
    · have hnone : fields.lookup key = none := by
        refine List.lookup_eq_none_iff.mpr fun f hf => ?_
        have hne : ¬ (f.1 == key) = true := fun heq => hany (List.any_eq_true.mpr ⟨f, hf, heq⟩)
        have hne' : f.1 ≠ key := fun heq => hne (beq_iff_eq.mpr heq)
        simpa using hne'.symm
      rw [if_pos hk, hk, List.lookup_append, hnone, List.lookup_cons_self]
      rfl
    · rw [if_neg hk, List.lookup_append, List.lookup_cons, beq_false_of_ne hk]
      simp

/-- The value of a setting that has been made. -/
theorem get?_setField (fields : List (String × Json)) (key : String) (value : Json) (k : String) :
    (obj (setField fields key value)).get? k = if k = key then some value else (obj fields).get? k :=
  lookup_setField fields key value k

/-- Fields with the same keys in the same numbers. -/
theorem nodup_canonicalField {fields : List (String × Json)}
    (h : (fields.map Prod.fst).Nodup) : (fields.map canonicalField).Nodup := by
  refine List.Nodup.of_map Prod.fst ?_
  rw [List.map_map]
  exact h

/-- Sorted fields with the same distinct keys and values are equal. -/
theorem canonicalFields_congr {fs gs : List (String × Json)} (hkeys : (fs.map Prod.fst).Nodup)
    (h : (fs.map canonicalField).Perm (gs.map canonicalField)) :
    canonicalFields fs = canonicalFields gs := by
  have hperm : (canonicalFields fs).Perm (canonicalFields gs) :=
    (canonicalFields_perm fs).trans (h.trans (canonicalFields_perm gs).symm)
  refine hperm.eq_of_pairwise (fun f g hf hg hle hge => ?_) (canonicalFields_sorted fs)
    (canonicalFields_sorted gs)
  -- both fields are among those of `fs`, where each key occurs once
  have hf' := (canonicalFields_perm fs).mem_iff.mp hf
  have hg' := h.mem_iff.mpr ((canonicalFields_perm gs).mem_iff.mp hg)
  obtain ⟨a, ha, rfl⟩ := List.mem_map.mp hf'
  obtain ⟨b, hb, rfl⟩ := List.mem_map.mp hg'
  have hkey : a.1 = b.1 := le_antisymm hle hge
  exact congrArg canonicalField (List.inj_on_of_nodup_map hkeys ha hb hkey)

theorem properFields_mem {fields : List (String × Json)} (h : ProperFields number fields)
    {f : String × Json} (hf : f ∈ fields) : Proper number f.2 := by
  induction fields with
  | nil => cases hf
  | cons g fields ih =>
    rcases List.mem_cons.mp hf with rfl | hf
    · exact h.1
    · exact ih h.2 hf

mutual

/-- **Values with one canonical form are the same.** -/
theorem same_of_canonical : ∀ {a b : Json}, Proper number b → a.canonical = b.canonical → Same a b
  | arr as, b, hb, h => by
    cases b with
    | arr bs => exact sameItems_of_canonical hb (by simpa [canonical] using h)
    | _ => simp [canonical] at h
  | obj fs, b, hb, h => by
    cases b with
    | obj gs =>
      have hfields : canonicalFields fs = canonicalFields gs := by simpa [canonical] using h
      have hperm : (fs.map canonicalField).Perm (gs.map canonicalField) :=
        (canonicalFields_perm fs).symm.trans (hfields ▸ canonicalFields_perm gs)
      refine ⟨by simpa using hperm.length_eq, sameFields_of_canonical hb.1 hb.2 fun f hf => ?_⟩
      exact hperm.mem_iff.mp (List.mem_map_of_mem hf)
    | _ => simp [canonical] at h
  | null, b, _, h | bool _, b, _, h | int _, b, _, h | float _, b, _, h | str _, b, _, h => by
    cases b <;> simp_all [canonical, Same]

theorem sameItems_of_canonical : ∀ {as bs : List Json}, ProperItems number bs →
    canonicalItems as = canonicalItems bs → SameItems as bs
  | [], bs, _, h => by
    cases bs with
    | nil => exact trivial
    | cons b bs => simp [canonicalItems] at h
  | a :: as, bs, hbs, h => by
    cases bs with
    | nil => simp [canonicalItems] at h
    | cons b bs =>
      rw [canonicalItems, canonicalItems, List.cons_eq_cons] at h
      exact ⟨same_of_canonical hbs.1 h.1, sameItems_of_canonical hbs.2 h.2⟩

theorem sameFields_of_canonical : ∀ {fs gs : List (String × Json)}, (gs.map Prod.fst).Nodup →
    ProperFields number gs → (∀ f ∈ fs, canonicalField f ∈ gs.map canonicalField) →
    SameFields fs gs
  | [], _, _, _, _ => trivial
  | (k, v) :: fs, gs, hkeys, hgs, h => by
    obtain ⟨⟨l, w⟩, hw, heq⟩ := List.mem_map.mp (h (k, v) (List.mem_cons_self ..))
    obtain ⟨rfl, hvalue⟩ := Prod.mk.inj heq
    refine ⟨⟨w, lookup_of_mem hkeys hw, same_of_canonical (properFields_mem hgs hw) hvalue.symm⟩, ?_⟩
    exact sameFields_of_canonical hkeys hgs fun f hf => h f (List.mem_cons_of_mem _ hf)

end

mutual

/-- **Values that are the same have one canonical form.** -/
theorem canonical_of_same : ∀ {a b : Json}, Proper number a → Same a b → a.canonical = b.canonical
  | arr as, b, ha, h => by
    cases b with
    | arr bs => rw [canonical, canonical, canonicalItems_of_same ha h]
    | _ => cases h
  | obj fs, b, ha, h => by
    cases b with
    | obj gs =>
      obtain ⟨hlength, hfields⟩ := h
      rw [canonical, canonical, canonicalFields_congr ha.1]
      -- distinct fields, as many as there are
      refine (List.subperm_of_subset (nodup_canonicalField ha.1) fun f hf => ?_).perm_of_length_le
        (by simp [hlength])
      obtain ⟨g, hg, rfl⟩ := List.mem_map.mp hf
      exact mem_of_sameFields ha.2 hfields g hg
    | _ => cases h
  | null, b, _, h | bool _, b, _, h | int _, b, _, h | float _, b, _, h | str _, b, _, h => by
    cases b <;> simp_all [Same]

theorem canonicalItems_of_same : ∀ {as bs : List Json}, ProperItems number as →
    SameItems as bs → canonicalItems as = canonicalItems bs
  | [], bs, _, h => by
    cases bs with
    | nil => rfl
    | cons b bs => exact h.elim
  | a :: as, bs, has, h => by
    cases bs with
    | nil => exact h.elim
    | cons b bs =>
      rw [canonicalItems, canonicalItems, canonical_of_same has.1 h.1,
        canonicalItems_of_same has.2 h.2]

theorem mem_of_sameFields : ∀ {fs gs : List (String × Json)}, ProperFields number fs →
    SameFields fs gs → ∀ f ∈ fs, canonicalField f ∈ gs.map canonicalField
  | [], _, _, _, _, hf => nomatch hf
  | (k, v) :: fs, gs, hfs, h, f, hf => by
    rcases List.mem_cons.mp hf with rfl | hf
    · obtain ⟨⟨w, hw, hsame⟩, -⟩ := h
      refine List.mem_map.mpr ⟨(k, w), mem_of_lookup hw, ?_⟩
      unfold canonicalField
      rw [canonical_of_same hfs.1 hsame]
    · exact mem_of_sameFields hfs.2 h.2 f hf

end

/-- **The canonical form decides** whether two values are the same up to the order of keys. -/
theorem canonical_eq_iff {a b : Json} (ha : Proper number a) (hb : Proper number b) :
    a.canonical = b.canonical ↔ Same a b :=
  ⟨same_of_canonical hb, canonical_of_same ha⟩

theorem properFields_of_mem {fields : List (String × Json)}
    (h : ∀ f ∈ fields, Proper number f.2) : ProperFields number fields := by
  induction fields with
  | nil => exact trivial
  | cons f fields ih =>
    exact ⟨h f (List.mem_cons_self ..), ih fun g hg => h g (List.mem_cons_of_mem _ hg)⟩

mutual

theorem proper_canonical : ∀ {v : Json}, Proper number v → Proper number v.canonical
  | arr items, h => by
    rw [canonical]
    exact properItems_canonical h
  | obj fields, h => by
    rw [canonical]
    have hperm := canonicalFields_perm fields
    refine ⟨(hperm.map Prod.fst).nodup_iff.mpr ?_, properFields_of_mem fun f hf => ?_⟩
    · rw [List.map_map]
      exact h.1
    · obtain ⟨g, hg, rfl⟩ := List.mem_map.mp (hperm.mem_iff.mp hf)
      exact proper_values h.2 g hg
  | null, h | bool _, h | int _, h | float _, h | str _, h => h

theorem properItems_canonical : ∀ {vs : List Json}, ProperItems number vs →
    ProperItems number (canonicalItems vs)
  | [], _ => trivial
  | _ :: _, h => ⟨proper_canonical h.1, properItems_canonical h.2⟩

theorem proper_values : ∀ {fields : List (String × Json)}, ProperFields number fields →
    ∀ f ∈ fields, Proper number (canonicalField f).2
  | [], _, _, hf => nomatch hf
  | (k, v) :: fields, h, f, hf => by
    rcases List.mem_cons.mp hf with rfl | hf
    · exact proper_canonical h.1
    · exact proper_values h.2 f hf

end

/-! ## Reading a canonical form -/

theorem get?_canonical {v : Json} (hv : Proper number v) (key : String) :
    v.canonical.get? key = (v.get? key).map canonical := by
  cases v with
  | obj fields =>
    have hproper := proper_canonical hv
    rw [canonical] at hproper ⊢
    show (canonicalFields fields).lookup key = (fields.lookup key).map canonical
    cases hlookup : fields.lookup key with
    | some w =>
      refine lookup_of_mem hproper.1 ((canonicalFields_perm fields).mem_iff.mpr ?_)
      exact List.mem_map.mpr ⟨(key, w), mem_of_lookup hlookup, rfl⟩
    | none =>
      refine List.lookup_eq_none_iff.mpr fun f hf => ?_
      obtain ⟨g, hg, rfl⟩ := List.mem_map.mp ((canonicalFields_perm fields).mem_iff.mp hf)
      exact List.lookup_eq_none_iff.mp hlookup g hg
  | _ => rfl

theorem proper_get? {v w : Json} (hv : Proper number v) {key : String}
    (h : v.get? key = some w) : Proper number w := by
  cases v with
  | obj fields => exact properFields_mem hv.2 (mem_of_lookup h)
  | _ => cases h

theorem isObj_canonical (v : Json) : v.canonical.isObj = v.isObj := by
  cases v <;> rfl

theorem truthy_canonical (v : Json) : v.canonical.truthy = v.truthy := by
  cases v with
  | arr items =>
    cases items <;> rfl
  | obj fields =>
    rw [canonical]
    show (!(canonicalFields fields).isEmpty) = !fields.isEmpty
    have hlength := (canonicalFields_perm fields).length_eq
    rw [List.length_map] at hlength
    cases fields with
    | nil => rfl
    | cons f fields =>
      cases hcanonical : canonicalFields (f :: fields) with
      | nil =>
        rw [hcanonical] at hlength
        cases hlength
      | cons g gs => rfl
  | _ => rfl

theorem orElse_canonical (v w : Json) :
    (v.orElse w).canonical = v.canonical.orElse w.canonical := by
  unfold orElse
  rw [truthy_canonical]
  split <;> rfl

end Json
