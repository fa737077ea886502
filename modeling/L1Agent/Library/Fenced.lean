import L1Agent.Library.Marks

/-! # Names between fences

A fenced name stands between two opening and two closing marks, and holds neither mark, nor a gap.
Two fenced names in one text are apart from each other or the same.  So a text in which a span is
replaced by a fenced name has that name and what it had already (`Only.splice`).  A text whose
closing fences are broken up by gaps has none at all (`only_broken`).

That two names never overlap in part (`Name.apart_or_eq`) is what makes this work: a name in the new
text lies in what was there before, or it is the one that was put there.
-/
namespace Fenced
open Marks (replace replaceFrom)
variable {α : Type}

/-- What the names are written with. -/
structure Fences (α : Type) where
  opening : α
  closing : α
  gap : α
  apart : opening ≠ closing
  solid : closing ≠ gap

/-- A character that may stand in a name. -/
def Fences.Inner (f : Fences α) (c : α) : Prop := c ≠ f.opening ∧ c ≠ f.closing ∧ c ≠ f.gap

/-- The name between its fences. -/
def Fences.enclose (f : Fences α) (name : List α) : List α :=
  f.opening :: f.opening :: (name ++ [f.closing, f.closing])

/-- The text is a name between fences. -/
def Fences.Name (f : Fences α) (text : List α) : Prop :=
  ∃ name, name ≠ [] ∧ (∀ c ∈ name, f.Inner c) ∧ text = f.enclose name

/-- The fenced names that stand anywhere in the text are known. -/
def Fences.Only (f : Fences α) (known : List α → Prop) (text : List α) : Prop :=
  ∀ left name right, f.Name name → text = left ++ name ++ right → known name

namespace Fences
variable {f : Fences α}

/-! ### Two names in one text -/

/-- The opening mark stands at the first two places only. -/
theorem Name.lt_two {text : List α} (h : f.Name text) {i : Nat}
    (hi : text[i]? = some f.opening) : i < 2 := by
  obtain ⟨name, -, hinner, rfl⟩ := h
  by_contra hfar
  obtain ⟨j, rfl⟩ : ∃ j, i = j + 2 := ⟨i - 2, by omega⟩
  have hmem : f.opening ∈ name ++ [f.closing, f.closing] :=
    List.mem_of_getElem? (by simpa [enclose] using hi)
  rcases List.mem_append.mp hmem with hmem | hmem
  · exact (hinner _ hmem).1 rfl
  · exact f.apart (by simpa using hmem)

theorem Name.opens {text : List α} (h : f.Name text) :
    text[0]? = some f.opening ∧ text[1]? = some f.opening := by
  obtain ⟨name, -, -, rfl⟩ := h
  exact ⟨rfl, rfl⟩

theorem Name.length_gt {text : List α} (h : f.Name text) : 2 < text.length := by
  obtain ⟨name, -, -, rfl⟩ := h
  simp [enclose]

/-- The name is what comes before the first closing mark. -/
theorem takeWhile_name {name : List α} (h : ∀ c ∈ name, f.Inner c) (rest : List α) :
    (name ++ f.closing :: rest).takeWhile (fun c => open Classical in decide (c ≠ f.closing)) =
      name := by
  rw [List.takeWhile_append_of_pos fun c hc => by simpa using (h c hc).2.1]
  simp

/-- Of two names that begin at one place neither is longer. -/
theorem Name.eq_of_prefix {p w right after : List α} (hp : f.Name p) (hw : f.Name w)
    (h : p ++ right = w ++ after) : p = w := by
  obtain ⟨name, -, hname, rfl⟩ := hp
  obtain ⟨other, -, hother, rfl⟩ := hw
  simp only [enclose, List.cons_append, List.append_assoc, List.nil_append, List.cons.injEq,
    true_and] at h
  have hsame : name = other := by
    rw [← takeWhile_name hname, h, takeWhile_name hother]
  rw [hsame]

/-- **Two names in one text are apart, or they are one.** -/
theorem Name.apart_or_eq {a p b left w right : List α} (hp : f.Name p) (hw : f.Name w)
    (h : a ++ p ++ b = left ++ w ++ right) :
    (∃ mid, a = left ++ w ++ mid) ∨ (∃ mid, b = mid ++ w ++ right) ∨ w = p := by
  have hplen := hp.length_gt
  have hwlen := hw.length_gt
  have hinp : ∀ i : Nat, i < p.length → (left ++ w ++ right)[a.length + i]? = p[i]? := by
    intro i hi
    rw [← h, List.append_assoc, List.getElem?_append_right (by omega), Nat.add_sub_cancel_left,
      List.getElem?_append_left hi]
  have hinw : ∀ i : Nat, i < w.length → (left ++ w ++ right)[left.length + i]? = w[i]? := by
    intro i hi
    rw [List.append_assoc, List.getElem?_append_right (by omega), Nat.add_sub_cancel_left,
      List.getElem?_append_left hi]
  by_cases hbefore : left.length + w.length ≤ a.length
  · -- `w` ends before `p` begins.
    have hinit : left ++ w <+: a := by
      refine List.prefix_of_prefix_length_le ⟨right, h.symm⟩ ⟨p ++ b, ?_⟩ (by simpa using hbefore)
      rw [List.append_assoc]
    obtain ⟨mid, hmid⟩ := hinit
    exact .inl ⟨mid, hmid.symm⟩
  by_cases hbehind : a.length + p.length ≤ left.length
  · -- `w` begins behind `p`.
    have hinit : a ++ p <+: left := by
      refine List.prefix_of_prefix_length_le ⟨b, h⟩ ⟨w ++ right, ?_⟩ (by simpa using hbehind)
      rw [List.append_assoc]
    obtain ⟨mid, rfl⟩ := hinit
    rw [List.append_assoc _ mid, List.append_assoc _ (mid ++ w)] at h
    exact .inr (.inl ⟨mid, List.append_cancel_left h⟩)
  right
  right
  -- They overlap: an opening mark of the one is at the first or second place of the other.
  rcases Nat.lt_trichotomy left.length a.length with hlt | heq | hgt
  · have hfirst := (hinp 0 (by omega)).trans hp.opens.1
    have hsecond := (hinp 1 (by omega)).trans hp.opens.2
    rw [show a.length + 0 = left.length + (a.length - left.length) by omega,
      hinw _ (by omega)] at hfirst
    have hone := hw.lt_two hfirst
    rw [show a.length + 1 = left.length + 2 by omega, hinw _ hwlen] at hsecond
    exact absurd (hw.lt_two hsecond) (by omega)
  · rw [List.append_assoc, List.append_assoc] at h
    exact (hp.eq_of_prefix hw (List.append_inj h heq.symm).2).symm
  · have hfirst := (hinw 0 (by omega)).trans hw.opens.1
    have hsecond := (hinw 1 (by omega)).trans hw.opens.2
    rw [show left.length + 0 = a.length + (left.length - a.length) by omega,
      hinp _ (by omega)] at hfirst
    have hone := hp.lt_two hfirst
    rw [show left.length + 1 = a.length + 2 by omega, hinp _ hplen] at hsecond
    exact absurd (hp.lt_two hsecond) (by omega)

/-! ### Texts whose names are known -/

theorem Only.mono {known known' : List α → Prop} (hle : ∀ name, known name → known' name)
    {text : List α} (h : f.Only known text) : f.Only known' text :=
  fun left name right hname htext => hle name (h left name right hname htext)

/-- **A known name may stand for any part of the text.** -/
theorem Only.splice {known : List α → Prop} {a v b p : List α} (h : f.Only known (a ++ v ++ b))
    (hp : f.Name p) (hknown : known p) : f.Only known (a ++ p ++ b) := by
  intro left w right hw htext
  rcases hp.apart_or_eq hw htext with ⟨mid, rfl⟩ | ⟨mid, rfl⟩ | rfl
  · exact h left w (mid ++ v ++ b) hw (by simp only [List.append_assoc])
  · exact h (a ++ v ++ mid) w right hw (by simp only [List.append_assoc])
  · exact hknown

/-! ### Breaking up the fences -/

section
variable [DecidableEq α]

/-- The closing fences of the text, broken up. -/
def broken (f : Fences α) (text : List α) : List α :=
  replace [f.closing, f.closing] [f.closing, f.gap, f.closing] text

theorem broken_pair (rest : List α) :
    f.broken (f.closing :: f.closing :: rest) =
      f.closing :: f.gap :: f.closing :: f.broken rest := by
  unfold broken replace
  rw [replaceFrom, if_pos ⟨rest, rfl⟩]
  rfl

theorem broken_cons {c : α} {rest : List α} (h : ¬[f.closing, f.closing] <+: c :: rest) :
    f.broken (c :: rest) = c :: f.broken rest :=
  Marks.replaceFrom_cons_of_not h

/-- What is broken up begins as the text does. -/
theorem head?_broken (text : List α) : (f.broken text).head? = text.head? := by
  rcases text with _ | ⟨c, rest⟩
  · rfl
  by_cases hpair : [f.closing, f.closing] <+: c :: rest
  · obtain ⟨rest', hrest'⟩ := hpair
    rw [← hrest']
    show (f.broken (f.closing :: f.closing :: rest')).head? = _
    rw [broken_pair]
    rfl
  · rw [broken_cons hpair]
    rfl

/-- Two closing marks stand behind a gap only. -/
def Gapped (f : Fences α) (text : List α) : Prop :=
  ∀ left c right, text = left ++ c :: f.closing :: f.closing :: right → c = f.gap

omit [DecidableEq α] in
theorem Gapped.cons {c : α} {text : List α} (hbegins : ¬[f.closing, f.closing] <+: text)
    (h : f.Gapped text) : f.Gapped (c :: text) := by
  intro left x right htext
  rcases left with _ | ⟨y, left⟩
  · obtain ⟨rfl, rfl⟩ := List.cons.inj htext
    exact absurd ⟨right, rfl⟩ hbegins
  · exact h left x right (List.cons.inj htext).2

/-- Broken text does not begin with a fence, and has one behind a gap only: that of three closing
marks the last two were apart already. -/
theorem gapped_broken (text : List α) :
    ¬[f.closing, f.closing] <+: f.broken text ∧ f.Gapped (f.broken text) := by
  -- The replacing goes on behind the two marks that it took, so the induction is on the length.
  induction hn : text.length using Nat.strongRecOn generalizing text with
  | ind n ih =>
    rcases text with _ | ⟨c, rest⟩
    · exact ⟨by simp [broken, replace, replaceFrom], fun left x right h => by
        simp [broken, replace, replaceFrom] at h⟩
    by_cases hpair : [f.closing, f.closing] <+: c :: rest
    · obtain ⟨behind, hbehind⟩ := hpair
      obtain ⟨rfl, rfl⟩ : f.closing = c ∧ f.closing :: behind = rest := List.cons.inj hbehind
      have hshort : behind.length < n := by
        rw [List.length_cons, List.length_cons] at hn
        omega
      obtain ⟨hbegins, hgapped⟩ := ih behind.length hshort behind rfl
      rw [broken_pair]
      have hgap : ¬[f.closing, f.closing] <+: f.gap :: f.closing :: f.broken behind := fun h =>
        f.solid (List.cons_prefix_cons.mp h).1
      have hfirst : ¬[f.closing, f.closing] <+:
          f.closing :: f.gap :: f.closing :: f.broken behind := fun h =>
        f.solid (List.cons_prefix_cons.mp (List.cons_prefix_cons.mp h).2).1
      refine ⟨hfirst, Gapped.cons hgap ?_⟩
      intro left x right htext
      rcases left with _ | ⟨y, left⟩
      · exact (List.cons.inj htext).1.symm
      · exact Gapped.cons hbegins hgapped left x right (List.cons.inj htext).2
    · obtain ⟨hbegins, hgapped⟩ := ih rest.length (by rw [List.length_cons] at hn; omega) rest rfl
      rw [broken_cons hpair]
      refine ⟨fun h => hpair ?_, Gapped.cons hbegins hgapped⟩
      obtain ⟨rfl, hclosing⟩ := List.cons_prefix_cons.mp h
      obtain ⟨behind, hbehind⟩ := hclosing
      have hhead : rest.head? = some f.closing := by
        rw [← head?_broken, ← hbehind]
        rfl
      obtain ⟨rest', rfl⟩ := List.head?_eq_some_iff.mp hhead
      exact ⟨rest', rfl⟩

/-- **Broken text has no name between fences.** -/
theorem only_broken {known : List α → Prop} (text : List α) : f.Only known (f.broken text) := by
  rintro left w right ⟨name, hne, hinner, rfl⟩ htext
  obtain ⟨front, last, rfl⟩ : ∃ front last, name = front ++ [last] :=
    ⟨name.dropLast, name.getLast hne, (List.dropLast_append_getLast hne).symm⟩
  have hgap : last = f.gap := by
    refine (gapped_broken text).2 (left ++ f.opening :: f.opening :: front) last right ?_
    rw [htext, enclose]
    simp only [List.append_assoc, List.cons_append, List.nil_append]
  exact absurd hgap (hinner last (by simp)).2.2

end

end Fences
end Fenced
