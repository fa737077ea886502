import L1Agent.Library.History
import Mathlib.Data.List.Induction

/-! # What a thread has done before

Each operation of a program comes after others of the same program and the answers they were
given.  `Program.Follows` says what a program calls in terms of that past alone, whatever the
answers are and whatever other threads do.  `System.recorded_follows` carries this over to the
history of a run: an event's operation is one that the earlier events of its thread allow.

The rules of `Program.Follows` are those of programs: sequence, handlers, branches, and one
operation.  For recorded runs there is an induction along the history whose step may use what is
known of the whole of it (`System.recorded_induction`), and `System.recorded_between` relates what
one event leaves to what a later one finds.
-/
namespace Interleaving

/-- An operation with its answer. -/
structure Signature.Done (E : Signature) where
  op : E.Op
  answer : E.Ans op

namespace Program
variable {E : Signature} {ε α β : Type} {Ok : List E.Done → E.Op → Prop} {past : List E.Done}
  {K : List E.Done → Prop}

/-- **Whatever the answers are**, each operation is one that `Ok` allows after what the program
has done by then, and the program ends in a past and a result that satisfy `Q`. -/
def Follows (Ok : List E.Done → E.Op → Prop) :
    Program E ε α → List E.Done → (List E.Done → Except ε α → Prop) → Prop
  | ret a, past, Q => Q past (.ok a)
  | raise e, past, Q => Q past (.error e)
  | call o k, past, Q => Ok past o ∧ ∀ x, Follows Ok (k x) (past ++ [⟨o, x⟩]) Q

theorem Follows.mono {p : Program E ε α} {Q Q' : List E.Done → Except ε α → Prop}
    (h : p.Follows Ok past Q) (hQ : ∀ past r, Q past r → Q' past r) : p.Follows Ok past Q' := by
  induction p generalizing past with
  | ret a => exact hQ _ _ h
  | raise e => exact hQ _ _ h
  | call o k ih => exact ⟨h.1, fun x => ih x (h.2 x)⟩

theorem Follows.allows {Ok' : List E.Done → E.Op → Prop} {p : Program E ε α}
    {Q : List E.Done → Except ε α → Prop} (h : p.Follows Ok past Q)
    (hOk : ∀ past o, Ok past o → Ok' past o) : p.Follows Ok' past Q := by
  induction p generalizing past with
  | ret a => exact h
  | raise e => exact h
  | call o k ih => exact ⟨hOk _ _ h.1, fun x => ih x (h.2 x)⟩

/-- What has been done stays done. -/
theorem Follows.grow {p : Program E ε α} {Q : List E.Done → Except ε α → Prop}
    {before : List E.Done} (h : p.Follows Ok past Q) (hbefore : before <+: past) :
    p.Follows Ok past fun past' r => before <+: past' ∧ Q past' r := by
  induction p generalizing past with
  | ret a => exact ⟨hbefore, h⟩
  | raise e => exact ⟨hbefore, h⟩
  | call o k ih =>
    exact ⟨h.1, fun x => ih x (h.2 x) (hbefore.trans (List.prefix_append _ _))⟩

/-- What a program adds to the past is what it calls. -/
theorem Follows.adds {P : E.Op → Prop} {p : Program E ε α} {Q : List E.Done → Except ε α → Prop}
    (hp : p.Issues P) (h : p.Follows Ok past Q) :
    p.Follows Ok past fun past' r =>
      Q past' r ∧ ∃ after, past' = past ++ after ∧ ∀ d ∈ after, P d.op := by
  induction p generalizing past with
  | ret a => exact ⟨h, [], (List.append_nil _).symm, fun d hd => absurd hd List.not_mem_nil⟩
  | raise e => exact ⟨h, [], (List.append_nil _).symm, fun d hd => absurd hd List.not_mem_nil⟩
  | call o k ih =>
    refine ⟨h.1, fun x => (ih x (hp.2 x) (h.2 x)).mono ?_⟩
    rintro past' r ⟨hQ, after, rfl, hafter⟩
    refine ⟨hQ, ⟨o, x⟩ :: after, by simp, fun d hd => ?_⟩
    rcases List.mem_cons.mp hd with rfl | hd
    · exact hp.1
    · exact hafter d hd

/-- How a program ends, by its past and whatever is answered. -/
theorem Follows.always {p : Program E ε α} {Q : List E.Done → Except ε α → Prop}
    {R : Except ε α → Prop} (h : p.Follows Ok past Q) (hR : p.Always R) :
    p.Follows Ok past fun past' r => Q past' r ∧ R r := by
  induction p generalizing past with
  | ret a => exact ⟨h, hR⟩
  | raise e => exact ⟨h, hR⟩
  | call o k ih => exact ⟨h.1, fun x => ih x (h.2 x) (hR x)⟩

theorem Follows.op {o : E.Op} {Q : List E.Done → Except ε (E.Ans o) → Prop} (hok : Ok past o)
    (h : ∀ x, Q (past ++ [⟨o, x⟩]) (.ok x)) : (Program.op o).Follows Ok past Q := ⟨hok, h⟩

theorem Follows.bind {p : Program E ε α} {f : α → Program E ε β}
    {Q : List E.Done → Except ε β → Prop}
    (h : p.Follows Ok past fun past' r => match r with
      | .ok a => (f a).Follows Ok past' Q
      | .error e => Q past' (.error e)) : (p.bind f).Follows Ok past Q := by
  induction p generalizing past with
  | ret a => exact h
  | raise e => exact h
  | call o k ih => exact ⟨h.1, fun x => ih x (h.2 x)⟩

theorem Follows.ite {φ : Prop} [Decidable φ] {p q : Program E ε α}
    {Q : List E.Done → Except ε α → Prop} (hp : φ → p.Follows Ok past Q)
    (hq : ¬ φ → q.Follows Ok past Q) : (if φ then p else q).Follows Ok past Q := by
  by_cases h : φ
  · rw [if_pos h]
    exact hp h
  · rw [if_neg h]
    exact hq h

theorem Follows.tryCatch {p : Program E ε α} {f : ε → Program E ε α}
    {Q : List E.Done → Except ε α → Prop}
    (h : p.Follows Ok past fun past' r => match r with
      | .ok a => Q past' (.ok a)
      | .error e => (f e).Follows Ok past' Q) : (p.tryCatch f).Follows Ok past Q := by
  induction p generalizing past with
  | ret a => exact h
  | raise e => exact h
  | call o k ih => exact ⟨h.1, fun x => ih x (h.2 x)⟩

theorem Follows.attempt {ε' : Type} {p : Program E ε α}
    {Q : List E.Done → Except ε' (Except ε α) → Prop}
    (h : p.Follows Ok past fun past' r => Q past' (.ok r)) :
    (p.attempt : Program E ε' (Except ε α)).Follows Ok past Q := by
  induction p generalizing past with
  | ret a => exact h
  | raise e => exact h
  | call o k ih => exact ⟨h.1, fun x => ih x (h.2 x)⟩

/-- From a past that satisfies `K` the program calls what is allowed, and `K` still holds when
it ends. -/
def Abides (Ok : List E.Done → E.Op → Prop) (K : List E.Done → Prop) (p : Program E ε α) : Prop :=
  ∀ past, K past → p.Follows Ok past fun past' _ => K past'

theorem abides_compositional (Ok : List E.Done → E.Op → Prop) (K : List E.Done → Prop) :
    Compositional fun {_} (p : Program E ε _) => p.Abides Ok K where
  ret _ _ hpast := hpast
  raise _ _ hpast := hpast
  bind hp hf past hpast := by
    refine Follows.bind ((hp past hpast).mono fun past' r hpast' => ?_)
    cases r with
    | ok a => exact hf a past' hpast'
    | error e => exact hpast'
  attempt hp past hpast := Follows.attempt (hp past hpast)
  tryCatch hp hf past hpast := by
    refine Follows.tryCatch ((hp past hpast).mono fun past' r hpast' => ?_)
    cases r with
    | ok a => exact hpast'
    | error e => exact hf e past' hpast'

/-- The assertion stays true while the past grows. -/
def Growing (K : List E.Done → Prop) : Prop := ∀ past d, K past → K (past ++ [d])

theorem growing_mem (d : E.Done) : Growing fun past : List E.Done => d ∈ past :=
  fun _ _ h => List.mem_append_left _ h

/-- A program all of whose calls are allowed whenever `K` holds. -/
theorem Issues.abides {P : E.Op → Prop} (hK : Growing K)
    (hP : ∀ past o, K past → P o → Ok past o) {p : Program E ε α} (hp : p.Issues P) :
    p.Abides Ok K := by
  induction p with
  | ret a => exact fun _ hpast => hpast
  | raise e => exact fun _ hpast => hpast
  | call o k ih =>
    intro past hpast
    exact ⟨hP past o hpast hp.1, fun x => ih x (hp.2 x) _ (hK _ _ hpast)⟩

end Program

variable {E : Signature} {ε σ : Type} {sys : System E ε σ}

/-- Every event of the history satisfies `Q`, which may look at the events before it. -/
def System.Each (Q : List sys.Event → sys.Event → Prop) (tr : List sys.Event) : Prop :=
  ∀ pre ev post, tr = pre ++ ev :: post → Q pre ev

theorem System.Each.nil {Q : List sys.Event → sys.Event → Prop} : System.Each Q [] := by
  intro pre ev post h
  simp at h

theorem System.Each.snoc {Q : List sys.Event → sys.Event → Prop} {tr : List sys.Event}
    {ev : sys.Event} (h : System.Each Q tr) (hev : Q tr ev) : System.Each Q (tr ++ [ev]) := by
  intro pre ev' post heq
  rcases List.eq_nil_or_concat post with rfl | ⟨post', last, rfl⟩
  · obtain ⟨rfl, hlast⟩ := List.append_inj' heq rfl
    cases hlast
    exact hev
  · have hsplit : tr ++ [ev] = (pre ++ ev' :: post') ++ [last] := by simpa using heq
    exact h pre ev' post' (List.append_inj' hsplit rfl).1

theorem System.Each.mem {Q : List sys.Event → sys.Event → Prop} {tr : List sys.Event}
    (h : System.Each Q tr) {ev : sys.Event} (hev : ev ∈ tr) : ∃ pre, Q pre ev ∧ ∀ e ∈ pre, e ∈ tr := by
  obtain ⟨pre, post, rfl⟩ := List.append_of_mem hev
  exact ⟨pre, h pre ev post rfl, fun e he => List.mem_append_left _ he⟩

/-- What thread `t` has done. -/
def System.own (t : Nat) (tr : List sys.Event) : List E.Done :=
  (tr.filter fun ev => ev.thread == t).map fun ev => ⟨ev.op, ev.answer⟩

theorem System.own_snoc (tr : List sys.Event) (ev : sys.Event) :
    System.own ev.thread (tr ++ [ev]) = System.own ev.thread tr ++ [⟨ev.op, ev.answer⟩] := by
  simp [own]

theorem System.own_other {t : Nat} (tr : List sys.Event) {ev : sys.Event} (h : ev.thread ≠ t) :
    System.own t (tr ++ [ev]) = System.own t tr := by
  simp [own, h]

theorem System.mem_own_snoc {t : Nat} {tr : List sys.Event} {ev : sys.Event} {d : E.Done} :
    d ∈ System.own t (tr ++ [ev]) ↔
      d ∈ System.own t tr ∨ ev.thread = t ∧ d = ⟨ev.op, ev.answer⟩ := by
  by_cases ht : ev.thread = t
  · subst ht
    simp [System.own_snoc]
  · simp [System.own_other tr ht, ht]

theorem System.own_mem {tr : List sys.Event} {ev : sys.Event} (h : ev ∈ tr) :
    ⟨ev.op, ev.answer⟩ ∈ System.own ev.thread tr :=
  List.mem_map.mpr ⟨ev, List.mem_filter.mpr ⟨h, beq_self_eq_true _⟩, rfl⟩

theorem System.own_sublist {t : Nat} {tr tr' : List sys.Event} (h : tr.Sublist tr') :
    (System.own t tr).Sublist (System.own t tr') := (h.filter _).map _

/-- A thread's past, cut at one of its operations, cuts the history at that event. -/
theorem System.own_split {t : Nat} {tr : List sys.Event} {before after : List E.Done} {d : E.Done}
    (h : System.own t tr = before ++ d :: after) :
    ∃ pre ev post, tr = pre ++ ev :: post ∧ ev.thread = t ∧ d = ⟨ev.op, ev.answer⟩ ∧
      System.own t pre = before ∧ System.own t post = after := by
  induction tr generalizing before with
  | nil => simp [own] at h
  | cons ev tr ih =>
    by_cases ht : ev.thread = t
    · have hown : System.own t (ev :: tr) = ⟨ev.op, ev.answer⟩ :: System.own t tr := by
        simp [own, ht]
      rw [hown] at h
      cases before with
      | nil =>
        obtain ⟨rfl, rfl⟩ := List.cons.inj h
        exact ⟨[], ev, tr, rfl, ht, rfl, rfl, rfl⟩
      | cons first before =>
        rw [List.cons_append] at h
        obtain ⟨hfirst, hrest⟩ := List.cons.inj h
        obtain ⟨pre, ev', post, rfl, ht', hd, rfl, rfl⟩ := ih hrest
        exact ⟨ev :: pre, ev', post, rfl, ht', hd, by simp [own, ht, hfirst], rfl⟩
    · have hown : System.own t (ev :: tr) = System.own t tr := by simp [own, ht]
      rw [hown] at h
      obtain ⟨pre, ev', post, rfl, ht', hd, rfl, rfl⟩ := ih h
      exact ⟨ev :: pre, ev', post, rfl, ht', hd, by simp [own, ht], rfl⟩

/-- What a thread has done is an event of the history. -/
theorem System.mem_own {t : Nat} {tr : List sys.Event} {o : E.Op} {x : E.Ans o}
    (h : ⟨o, x⟩ ∈ System.own t tr) :
    ∃ ch before after, (⟨t, o, ch, before, x, after⟩ : sys.Event) ∈ tr := by
  obtain ⟨⟨u, o', ch, before, x', after⟩, hev, heq⟩ := List.mem_map.mp h
  cases heq
  obtain ⟨hmem, hthread⟩ := List.mem_filter.mp hev
  obtain rfl : u = t := by simpa using hthread
  exact ⟨ch, before, after, hmem⟩

/-- **Each event of a recorded run is one that its thread's own past allows.** -/
theorem System.recorded_follows {Ok : List E.Done → E.Op → Prop} {cond : sys.recorded.Cond}
    (hentry : ∀ p, sys.Entry p → p.Follows Ok [] fun _ _ => True) {s : σ}
    {d : Config E ε (σ × List sys.Event)}
    (hr : sys.recorded.Reaches cond (Config.idle (s, [])) d) :
    System.Each (fun pre ev => Ok (System.own ev.thread pre) ev.op) d.shared.2 := by
  suffices h : System.Each (fun pre ev => Ok (System.own ev.thread pre) ev.op) d.shared.2 ∧
      (∀ t p, d.pool t = some p → p.Follows Ok (System.own t d.shared.2) fun _ _ => True) ∧
      ∀ t, d.fresh ≤ t → d.pool t = none ∧ System.own t d.shared.2 = [] from h.1
  induction hr with
  | refl => exact ⟨.nil, fun _ _ h => (nomatch h), fun _ _ => ⟨rfl, rfl⟩⟩
  | @tail c _ _ hs ih =>
    obtain ⟨heach, hpool, hfresh⟩ := ih
    cases hs with
    | start p hp =>
      refine ⟨heach, fun t q hq => ?_, fun t ht => ?_⟩
      · by_cases hfresht : t = c.fresh
        · subst hfresht
          obtain rfl : p = q := by simpa [Config.start] using hq
          have hown : System.own c.fresh (c.start p).shared.2 = [] := (hfresh _ (Nat.le_refl _)).2
          rw [hown]
          exact hentry p hp
        · exact hpool t q (by simpa [Config.start, Function.update_of_ne hfresht] using hq)
      · have hlt : c.fresh + 1 ≤ t := ht
        have hne : t ≠ c.fresh := by omega
        obtain ⟨hnone, hown⟩ := hfresh t (by omega)
        exact ⟨by simpa [Config.start, Function.update_of_ne hne] using hnone, hown⟩
    | op u o k ch a s' hp hc hrun =>
      obtain ⟨s₁, tr₁⟩ := s'
      obtain ⟨-, htr⟩ := recorded_run hrun
      subst htr
      obtain ⟨hok, hnext⟩ := hpool u _ hp
      refine ⟨heach.snoc hok, fun t q hq => ?_, fun t ht => ?_⟩
      · by_cases htu : t = u
        · subst htu
          obtain rfl : k a = q := by simpa [Config.advance] using hq
          have hown := System.own_snoc c.shared.2 (⟨t, o, ch, c.shared.1, a, s₁⟩ : sys.Event)
          show (k a).Follows Ok (System.own t (c.shared.2 ++ [_])) _
          rw [hown]
          exact hnext a
        · have hne : (⟨u, o, ch, c.shared.1, a, s₁⟩ : sys.Event).thread ≠ t := fun h => htu h.symm
          show q.Follows Ok (System.own t (c.shared.2 ++ [_])) _
          rw [System.own_other c.shared.2 hne]
          exact hpool t q (by simpa [Config.advance, Function.update_of_ne htu] using hq)
      · obtain ⟨hnone, hown⟩ := hfresh t ht
        have htu : t ≠ u := by
          rintro rfl
          rw [hp] at hnone
          cases hnone
        refine ⟨by simpa [Config.advance, Function.update_of_ne htu] using hnone, ?_⟩
        exact (System.own_other c.shared.2 fun h => htu h.symm).trans hown
    | stop u =>
      refine ⟨heach, fun t q hq => ?_, fun t ht => ?_⟩
      · by_cases htu : t = u
        · subst htu
          simp [Config.stop] at hq
        · exact hpool t q (by simpa [Config.stop, Function.update_of_ne htu] using hq)
      · obtain ⟨hnone, hown⟩ := hfresh t ht
        refine ⟨?_, hown⟩
        by_cases htu : t = u
        · subst htu
          simp [Config.stop]
        · simpa [Config.stop, Function.update_of_ne htu] using hnone

/-- **Induction along the history** of a recorded run.  The step may use what is known of the
whole of it. -/
theorem System.recorded_induction {cond : sys.recorded.Cond} {I : σ → List sys.Event → Prop} {s : σ}
    {d : Config E ε (σ × List sys.Event)}
    (hr : sys.recorded.Reaches cond (Config.idle (s, [])) d) (hs : I s [])
    (h : ∀ pre ev post, d.shared.2 = pre ++ ev :: post → I ev.before pre →
      I ev.after (pre ++ [ev])) :
    I d.shared.1 d.shared.2 ∧ System.Each (fun pre ev => I ev.before pre) d.shared.2 := by
  induction hr with
  | refl => exact ⟨hs, .nil⟩
  | @tail c _ _ hstep ih =>
    cases hstep with
    | start p hp => exact ih h
    | stop t => exact ih h
    | op t o k ch a s' hp hc hrun =>
      obtain ⟨s₁, tr₁⟩ := s'
      obtain ⟨-, htr⟩ := recorded_run hrun
      subst htr
      obtain ⟨hI, heach⟩ := ih fun pre ev post hsplit => by
        refine h pre ev (post ++ [⟨t, o, ch, c.shared.1, a, s₁⟩]) ?_
        show c.shared.2 ++ [_] = _
        rw [hsplit, List.append_assoc, List.cons_append]
      exact ⟨h c.shared.2 ⟨t, o, ch, c.shared.1, a, s₁⟩ [] rfl hI, heach.snoc hI⟩

/-- Each event of a recorded run is the outcome of its operation, and meets the condition. -/
theorem System.recorded_each {cond : sys.recorded.Cond} {s : σ}
    {d : Config E ε (σ × List sys.Event)}
    (hr : sys.recorded.Reaches cond (Config.idle (s, [])) d) :
    System.Each (fun pre (ev : sys.Event) => cond ev.thread ev.op ev.choice (ev.before, pre) ∧
      sys.run ev.thread ev.op ev.choice ev.before = some (ev.answer, ev.after)) d.shared.2 := by
  induction hr with
  | refl => exact .nil
  | @tail c _ _ hstep ih =>
    cases hstep with
    | start p hp => exact ih
    | stop t => exact ih
    | op t o k ch a s' hp hc hrun =>
      obtain ⟨s₁, tr₁⟩ := s'
      obtain ⟨hown, htr⟩ := recorded_run hrun
      subst htr
      exact ih.snoc ⟨hc, hown⟩

/-- What holds between each event and the ones before it. -/
theorem System.Each.pairwise {R : sys.Event → sys.Event → Prop} {tr : List sys.Event}
    (h : System.Each (fun pre ev => ∀ e ∈ pre, R e ev) tr) : tr.Pairwise R := by
  induction tr using List.reverseRec with
  | nil => exact .nil
  | append_singleton tr ev ih =>
    refine List.pairwise_append.mpr ⟨ih ?_, List.pairwise_singleton _ _, fun e he ev' hev' => ?_⟩
    · intro pre ev' post hsplit
      exact h pre ev' (post ++ [ev]) (by simp [hsplit])
    · cases List.mem_singleton.mp hev'
      exact h tr ev [] rfl e he

/-- **What one event leaves and a later one finds** are related by every relation that the
operations keep to. -/
theorem System.recorded_between {cond : sys.recorded.Cond} {P : E.Op → Prop} {R : σ → σ → Prop}
    (hrefl : ∀ s, R s s) (htrans : ∀ a b c, R a b → R b c → R a c)
    (hentry : ∀ p, sys.Entry p → p.Issues P)
    (h : ∀ ev : sys.Event, P ev.op →
      sys.run ev.thread ev.op ev.choice ev.before = some (ev.answer, ev.after) → R ev.before ev.after)
    {s : σ} {d : Config E ε (σ × List sys.Event)}
    (hr : sys.recorded.Reaches cond (Config.idle (s, [])) d) :
    System.Each (fun pre ev => R s ev.before ∧ ∀ e ∈ pre, R e.after ev.before) d.shared.2 := by
  refine (System.recorded_keep (P := P)
    (I := fun s' tr => System.Each (fun pre ev => R s ev.before ∧ ∀ e ∈ pre, R e.after ev.before) tr ∧
      R s s' ∧ ∀ e ∈ tr, R e.after s') hentry ?_ hr ⟨.nil, hrefl s, by simp⟩).1
  rintro ev tr hP - hrun ⟨heach, hstart, hpast⟩
  have hstep := h ev hP hrun
  refine ⟨heach.snoc ⟨hstart, hpast⟩, htrans _ _ _ hstart hstep, fun e he => ?_⟩
  rcases List.mem_append.mp he with he | he
  · exact htrans _ _ _ (hpast e he) hstep
  · cases List.mem_singleton.mp he
    exact hrefl _

end Interleaving
