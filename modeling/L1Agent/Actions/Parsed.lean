import L1Agent.Actions.Parsing
import Mathlib.Data.Bool.AllAny

/-! # What is read from a policy document

Each part is read without a problem exactly when it is as the document may have it, and what is
read is within its bounds, with a problem or without.  The whole document follows
(`parseRules_cases`): rules, a list of problems, or the one exception that a level can raise.

There is one lemma for each part of the document, each an equivalence with what the part may be, and
one for what is read of it.  Of the levels it says that a list or an object raises a TypeError, and
nothing else does.
-/
namespace L1Agent
namespace Parsing

/-! ## Lists -/

theorem gather_nil {α : Type} {found : List (Except String α)} :
    (gather found).1 = [] ↔ ∀ x ∈ found, ∃ a, x = .ok a := by
  induction found with
  | nil => simp [gather]
  | cons x rest ih =>
    cases x with
    | error problem =>
      simp only [gather, List.mem_cons, forall_eq_or_imp]
      constructor
      · intro h
        cases h
      · rintro ⟨⟨a, ha⟩, -⟩
        cases ha
    | ok a =>
      simp only [gather, List.mem_cons, forall_eq_or_imp, ih]
      exact ⟨fun h => ⟨⟨a, rfl⟩, h⟩, fun h => h.2⟩

theorem mem_gather {α : Type} {found : List (Except String α)} {a : α} :
    a ∈ (gather found).2 ↔ .ok a ∈ found := by
  induction found with
  | nil => simp [gather]
  | cons x rest ih =>
    cases x with
    | error problem => simp [gather, ih]
    | ok b => simp [gather, ih]

theorem length_gather {α : Type} (found : List (Except String α)) :
    (gather found).2.length ≤ found.length := by
  induction found with
  | nil => exact Nat.le_refl _
  | cons x rest ih =>
    cases x with
    | error problem =>
      simp only [gather, List.length_cons]
      omega
    | ok b =>
      simp only [gather, List.length_cons]
      omega

/-- A list all of whose members read is the list of what they read as, written again. -/
theorem mapM_eq_some {α β : Type} {f : α → Option β} {g : β → α} {P : β → Prop}
    (hf : ∀ a b, f a = some b ↔ a = g b ∧ P b) {as : List α} {bs : List β} :
    as.mapM f = some bs ↔ as = bs.map g ∧ ∀ b ∈ bs, P b := by
  induction as generalizing bs with
  | nil =>
    simp only [List.mapM_nil, Option.pure_def, Option.some.injEq]
    constructor
    · rintro rfl
      exact ⟨rfl, fun b hb => by cases hb⟩
    · rintro ⟨hnil, -⟩
      exact (List.map_eq_nil_iff.mp hnil.symm).symm
  | cons a rest ih =>
    simp only [List.mapM_cons, Option.bind_eq_bind, Option.pure_def, Option.bind_eq_some_iff,
      Option.some.injEq]
    constructor
    · rintro ⟨b, hb, others, hothers, rfl⟩
      obtain ⟨rfl, hP⟩ := (hf a b).mp hb
      obtain ⟨rfl, hrest⟩ := ih.mp hothers
      exact ⟨rfl, List.forall_mem_cons.mpr ⟨hP, hrest⟩⟩
    · rintro ⟨heq, hP⟩
      cases bs with
      | nil => cases heq
      | cons b others =>
        obtain ⟨rfl, rfl⟩ := List.cons.inj heq
        obtain ⟨hb, hothers⟩ := List.forall_mem_cons.mp hP
        exact ⟨b, (hf _ b).mpr ⟨rfl, hb⟩, others, ih.mpr ⟨rfl, hothers⟩, rfl⟩

section Items
variable {α : Type} {problem : String} {read : Nat → Json → Except String α} {value : Json}

theorem readItems_nil {Fits : Json → Prop}
    (hread : ∀ i item, (∃ a, read i item = .ok a) ↔ Fits item) :
    (readItems problem read value).1 = [] ↔ ListFits value Fits := by
  cases value with
  | arr items =>
    simp only [readItems]
    by_cases hlength : items.length ≤ maxRules
    · rw [if_pos hlength, gather_nil]
      constructor
      · intro h
        refine ⟨items, rfl, hlength, fun item hitem => ?_⟩
        obtain ⟨i, hi, rfl⟩ := List.mem_iff_getElem.mp hitem
        refine (hread i _).mp (h _ (List.mem_map.mpr ⟨(items[i], i), ?_, rfl⟩))
        exact List.mem_zipIdx_iff_getElem?.mpr (List.getElem?_eq_getElem hi)
      · rintro ⟨items', heq, -, h⟩ x hx
        cases heq
        obtain ⟨⟨item, i⟩, hmem, rfl⟩ := List.mem_map.mp hx
        exact (hread i item).mpr (h item (List.fst_mem_of_mem_zipIdx hmem))
    · rw [if_neg hlength]
      constructor
      · intro h
        cases h
      · rintro ⟨items', heq, hle, -⟩
        cases heq
        exact absurd hle hlength
  | null | bool | int | float | str | obj => simp [readItems, ListFits]

theorem length_readItems : (readItems problem read value).2.length ≤ maxRules := by
  cases value with
  | arr items =>
    simp only [readItems]
    by_cases hlength : items.length ≤ maxRules
    · rw [if_pos hlength]
      have hle := length_gather (items.zipIdx.map fun item => read item.2 item.1)
      rw [List.length_map, List.length_zipIdx] at hle
      omega
    · rw [if_neg hlength]
      exact Nat.zero_le _
  | null | bool | int | float | str | obj => exact Nat.zero_le _

theorem mem_readItems {a : α} (h : a ∈ (readItems problem read value).2) :
    ∃ i item, read i item = .ok a := by
  cases value with
  | arr items =>
    simp only [readItems] at h
    by_cases hlength : items.length ≤ maxRules
    · rw [if_pos hlength, mem_gather] at h
      obtain ⟨⟨item, i⟩, -, hitem⟩ := List.mem_map.mp h
      exact ⟨i, item, hitem⟩
    · rw [if_neg hlength] at h
      cases h
  | null | bool | int | float | str | obj => cases h

end Items

/-! ## The parts -/

theorem nameOf_eq_some (item : Json) (name : String) :
    nameOf item = some name ↔ item = .str name ∧ name ≠ "" ∧ name.length ≤ 200 := by
  cases item with
  | str s =>
    simp only [nameOf]
    by_cases hs : s ≠ "" ∧ s.length ≤ 200
    · rw [if_pos hs]
      constructor
      · intro h
        cases h
        exact ⟨rfl, hs⟩
      · rintro ⟨h, -⟩
        cases h
        rfl
    · rw [if_neg hs]
      constructor
      · intro h
        cases h
      · rintro ⟨h, hname⟩
        cases h
        exact absurd hname hs
  | null | bool | int | float | arr | obj => simp [nameOf]

theorem strings_eq_some {value : Option Json} {names : List String} :
    strings value = some names ↔ value = some (.arr (names.map .str)) ∧ names ≠ [] ∧
      ∀ name ∈ names, name ≠ "" ∧ name.length ≤ 200 := by
  have hnames : ∀ items : List Json, items.mapM nameOf = some names ↔
      items = names.map .str ∧ ∀ name ∈ names, name ≠ "" ∧ name.length ≤ 200 :=
    fun items => mapM_eq_some nameOf_eq_some
  match value with
  | some (.arr []) =>
    constructor
    · intro h
      cases h
    · rintro ⟨h, hne, -⟩
      cases names with
      | nil => exact absurd rfl hne
      | cons => cases h
  | some (.arr (item :: items)) =>
    show (item :: items).mapM nameOf = some names ↔ _
    rw [hnames]
    constructor
    · rintro ⟨heq, hall⟩
      refine ⟨by rw [heq], ?_, hall⟩
      rintro rfl
      cases heq
    · rintro ⟨heq, -, hall⟩
      exact ⟨by injection heq with heq; injection heq, hall⟩
  | none | some .null | some (.bool _) | some (.int _) | some (.float _) | some (.str _)
  | some (.obj _) => simp [strings]

/-- What a rule about targets says. -/
theorem targetRule_ok {label : String} {withSop : Bool} {item : Json} {rule : TargetRule} :
    targetRule label withSop item = .ok rule ↔
      holdsOnly (["capability", "targets"] ++ if withSop then ["sop_id"] else []) item = true ∧
      (item.get? "capability" = some (.str rule.capability) ∧ rule.capability ≠ "") ∧
      strings (item.get? "targets") = some rule.targets ∧
      if withSop then item.getD "sop_id" (.str "") = .str rule.sopId ∧ rule.sopId ≠ ""
      else rule.sopId = "" := by
  obtain ⟨capability, targets, sopId⟩ := rule
  simp only [targetRule]
  by_cases hkeys : holdsOnly (["capability", "targets"] ++ if withSop then ["sop_id"] else [])
    item = true
  · rw [hkeys, Bool.not_true, if_neg Bool.false_ne_true]
    simp only [true_and]
    cases hcap : item.get? "capability" with
    | none => simp
    | some value =>
      cases value with
      | str name =>
        dsimp only
        by_cases hname : name = ""
        · rw [if_pos hname]
          constructor
          · intro h
            cases h
          · rintro ⟨⟨heq, hne⟩, -⟩
            cases heq
            exact absurd hname hne
        · rw [if_neg hname]
          cases htargets : strings (item.get? "targets") with
          | none => simp
          | some names =>
            cases withSop with
            | false =>
              simp only [Except.ok.injEq, TargetRule.mk.injEq, Option.some.injEq, Json.str.injEq,
                Bool.false_eq_true, if_false]
              constructor
              · rintro ⟨rfl, rfl, rfl⟩
                exact ⟨⟨rfl, hname⟩, rfl, rfl⟩
              · rintro ⟨⟨rfl, -⟩, rfl, rfl⟩
                exact ⟨rfl, rfl, rfl⟩
            | true =>
              cases hsop : item.getD "sop_id" (.str "") with
              | str s =>
                dsimp only
                by_cases hs : s = ""
                · rw [if_pos hs]
                  constructor
                  · intro h
                    cases h
                  · rintro ⟨-, -, heq, hne⟩
                    cases heq
                    exact absurd hs hne
                · rw [if_neg hs]
                  simp only [Except.ok.injEq, TargetRule.mk.injEq, Option.some.injEq,
                    Json.str.injEq, if_true]
                  constructor
                  · rintro ⟨rfl, rfl, rfl⟩
                    exact ⟨⟨rfl, hname⟩, rfl, rfl, hs⟩
                  · rintro ⟨⟨rfl, -⟩, rfl, rfl, -⟩
                    exact ⟨rfl, rfl, rfl⟩
              | null | bool | int | float | arr | obj => simp
      | null | bool | int | float | arr | obj => simp
  · rw [Bool.eq_false_iff.mpr hkeys, Bool.not_false, if_pos rfl]
    simp

theorem targetRule_fits (label : String) (withSop : Bool) (item : Json) :
    (∃ rule, targetRule label withSop item = .ok rule) ↔ TargetFits withSop item := by
  constructor
  · rintro ⟨rule, h⟩
    obtain ⟨hkeys, hcap, htargets, hsop⟩ := targetRule_ok.mp h
    refine ⟨hkeys, ⟨_, hcap⟩, ⟨_, strings_eq_some.mp htargets⟩, ?_⟩
    rintro rfl
    rw [if_pos rfl] at hsop
    refine ⟨rule.sopId, ?_, hsop.2⟩
    cases hget : item.get? "sop_id" with
    | none =>
      rw [Json.getD, hget] at hsop
      injection hsop.1 with hempty
      exact absurd hempty.symm hsop.2
    | some value =>
      rw [Json.getD, hget] at hsop
      exact congrArg some hsop.1
  · rintro ⟨hkeys, ⟨name, hcap⟩, ⟨names, htargets⟩, hsop⟩
    cases withSop with
    | false =>
      exact ⟨⟨name, names, ""⟩, targetRule_ok.mpr ⟨hkeys, hcap, strings_eq_some.mpr htargets, rfl⟩⟩
    | true =>
      obtain ⟨sopId, hget, hne⟩ := hsop rfl
      refine ⟨⟨name, names, sopId⟩,
        targetRule_ok.mpr ⟨hkeys, hcap, strings_eq_some.mpr htargets, ?_, hne⟩⟩
      rw [Json.getD, hget]
      rfl

theorem targetRules_nil {name : String} {value : Json} {withSop : Bool} :
    (targetRules name value withSop).1 = [] ↔ ListFits value (TargetFits withSop) :=
  readItems_nil fun i => targetRule_fits s!"{name}[{i}]" withSop

theorem targetRules_bounds {name : String} {value : Json} {withSop : Bool} {rule : TargetRule}
    (h : rule ∈ (targetRules name value withSop).2) : TargetBounds withSop rule := by
  obtain ⟨i, item, hitem⟩ := mem_readItems h
  obtain ⟨-, hcap, htargets, hsop⟩ := targetRule_ok.mp hitem
  refine ⟨hcap.2, (strings_eq_some.mp htargets).2, ?_⟩
  rintro rfl
  exact hsop.2

theorem freezeWindow_ok {reader : Reader} {label : String} {item : Json} {window : Freeze} :
    freezeWindow reader label item = .ok window ↔
      holdsOnly ["start", "end", "reason"] item = true ∧
      when reader (item.get? "start") = some window.start ∧
      when reader (item.get? "end") = some window.stop ∧ window.start < window.stop ∧
      window.reason =
        String.ofList ((reader.builtins.str (item.getD "reason" (.str ""))).toList.take 200) := by
  obtain ⟨start, stop, reason⟩ := window
  simp only [freezeWindow]
  by_cases hkeys : holdsOnly ["start", "end", "reason"] item = true
  · rw [if_pos hkeys, if_pos hkeys]
    simp only [hkeys, true_and]
    cases hstart : when reader (item.get? "start") with
    | none => simp
    | some first =>
      cases hstop : when reader (item.get? "end") with
      | none => simp
      | some last =>
        dsimp only
        by_cases hlt : first < last
        · rw [if_pos hlt]
          simp only [Except.ok.injEq, Freeze.mk.injEq, Option.some.injEq]
          constructor
          · rintro ⟨rfl, rfl, rfl⟩
            exact ⟨rfl, rfl, hlt, rfl⟩
          · rintro ⟨rfl, rfl, -, rfl⟩
            exact ⟨rfl, rfl, rfl⟩
        · rw [if_neg hlt]
          constructor
          · intro h
            cases h
          · rintro ⟨hfirst, hlast, hlt', -⟩
            cases hfirst
            cases hlast
            exact absurd hlt' hlt
  · rw [if_neg hkeys, if_neg hkeys]
    simp [hkeys]

theorem freezeWindow_fits (reader : Reader) (label : String) (item : Json) :
    (∃ window, freezeWindow reader label item = .ok window) ↔ WindowFits reader item := by
  constructor
  · rintro ⟨window, h⟩
    obtain ⟨hkeys, hstart, hstop, hlt, -⟩ := freezeWindow_ok.mp h
    exact ⟨hkeys, _, _, hstart, hstop, hlt⟩
  · rintro ⟨hkeys, start, stop, hstart, hstop, hlt⟩
    exact ⟨⟨start, stop, _⟩, freezeWindow_ok.mpr ⟨hkeys, hstart, hstop, hlt, rfl⟩⟩

theorem freeze_nil {reader : Reader} {data : Json} :
    (freeze reader data).1 = [] ↔ ListFits (data.getD "freeze" (.arr [])) (WindowFits reader) :=
  readItems_nil fun i => freezeWindow_fits reader s!"freeze[{i}]"

theorem freeze_bounds {reader : Reader} {data : Json} {w : Freeze}
    (h : w ∈ (freeze reader data).2) : w.start < w.stop ∧ w.reason.length ≤ 200 := by
  obtain ⟨i, item, hitem⟩ := mem_readItems h
  obtain ⟨-, -, -, hlt, hreason⟩ := freezeWindow_ok.mp hitem
  refine ⟨hlt, ?_⟩
  rw [hreason, String.length_ofList, List.length_take]
  omega

theorem hourOf_lt {a b : Char} {n : Nat} (h : hourOf a b = some n) : n < 24 := by
  unfold hourOf at h
  split at h
  · rename_i hchars
    obtain ⟨first, hfirst, second, hsecond, rfl⟩ : ∃ first, PyText.decimal? a = some first ∧
        ∃ second, PyText.decimal? b = some second ∧ 10 * first + second = n := by
      simpa [Option.bind_eq_some_iff] using h
    rcases hchars with ha | ⟨rfl, hb⟩
    · have hall : ∀ a ∈ ['0', '1'], ∀ t ∈ PyText.decimal? a, t ≤ 1 :=
        List.all_iff_forall_prop.mp (by decide)
      have hle := hall a ha first hfirst
      have hlt := PyText.decimal?_lt hsecond
      omega
    · have hall : ∀ b ∈ ['0', '1', '2', '3'], ∀ t ∈ PyText.decimal? b, t ≤ 3 :=
        List.all_iff_forall_prop.mp (by decide)
      have hle := hall b hb second hsecond
      have htwo : ∀ t ∈ PyText.decimal? '2', t ≤ 2 := by decide +kernel
      have hle' := htwo first hfirst
      omega
  · cases h

theorem minuteOf_lt {c d : Char} {n : Nat} (h : minuteOf c d = some n) : n < 60 := by
  unfold minuteOf at h
  split at h
  · rename_i hc
    obtain ⟨tens, htens, ones, hones, rfl⟩ : ∃ tens, PyText.decimal? c = some tens ∧
        ∃ ones, PyText.decimal? d = some ones ∧ 10 * tens + ones = n := by
      simpa [Option.bind_eq_some_iff] using h
    have hall : ∀ c ∈ ['0', '1', '2', '3', '4', '5'], ∀ t ∈ PyText.decimal? c, t ≤ 5 :=
      List.all_iff_forall_prop.mp (by decide)
    have hle := hall c hc tens htens
    have hlt := PyText.decimal?_lt hones
    omega
  · cases h

/-- A time of the day is before midnight. -/
theorem clock_lt {cs : List Char} {n : Nat} (h : clock cs = some n) : n < 24 * 60 := by
  unfold clock at h
  split at h
  · rename_i a b c d
    obtain ⟨hours, hhours, minutes, hminutes, rfl⟩ : ∃ hours, hourOf a b = some hours ∧
        ∃ minutes, minuteOf c d = some minutes ∧ hours * 60 + minutes = n := by
      simpa [Option.bind_eq_some_iff] using h
    have hlt := hourOf_lt hhours
    have hlt' := minuteOf_lt hminutes
    omega
  · cases h

theorem minutesOf_lt {value : Option Json} {n : Nat} (h : minutesOf value = some n) :
    n < 24 * 60 := by
  match value with
  | some (.str text) => exact clock_lt h
  | none | some .null | some (.bool _) | some (.int _) | some (.float _) | some (.arr _)
  | some (.obj _) => cases h

theorem dayOf_eq_some (day : Json) (d : Nat) : dayOf day = some d ↔ day = .int d ∧ d ≤ 6 := by
  cases day with
  | int n =>
    simp only [dayOf]
    by_cases hn : 0 ≤ n ∧ n ≤ 6
    · rw [if_pos hn]
      constructor
      · intro h
        cases h
        refine ⟨congrArg Json.int (Int.toNat_of_nonneg hn.1).symm, ?_⟩
        omega
      · rintro ⟨h, -⟩
        cases h
        rfl
    · rw [if_neg hn]
      constructor
      · intro h
        cases h
      · rintro ⟨h, hd⟩
        cases h
        omega
  | null | bool | float | str | arr | obj => simp [dayOf]

theorem daysOf_eq_some {value : Json} {days : List Nat} :
    daysOf value = some days ↔ value = .arr (days.map fun d : Nat => .int d) ∧ days ≠ [] ∧
      ∀ d ∈ days, d ≤ 6 := by
  have hdays : ∀ items : List Json, items.mapM dayOf = some days ↔
      items = days.map (fun d : Nat => .int d) ∧ ∀ d ∈ days, d ≤ 6 :=
    fun items => mapM_eq_some dayOf_eq_some
  match value with
  | .arr [] =>
    constructor
    · intro h
      cases h
    · rintro ⟨h, hne, -⟩
      cases days with
      | nil => exact absurd rfl hne
      | cons => cases h
  | .arr (item :: items) =>
    show (item :: items).mapM dayOf = some days ↔ _
    rw [hdays]
    constructor
    · rintro ⟨heq, hall⟩
      refine ⟨by rw [heq], ?_, hall⟩
      rintro rfl
      cases heq
    · rintro ⟨heq, -, hall⟩
      exact ⟨by injection heq, hall⟩
  | .null | .bool _ | .int _ | .float _ | .str _ | .obj _ => simp [daysOf]

/-- What the hours say, once they are there. -/
theorem hours_cases {data item : Json} (hitem : data.get? "hours" = some item) :
    (HoursFit item ∧ (hours data).1 = [] ∧ ∃ h, (hours data).2 = some h ∧ h.days ≠ [] ∧
      (∀ d ∈ h.days, d ≤ 6) ∧ h.start < 24 * 60 ∧ h.stop < 24 * 60 ∧ h.start ≠ h.stop) ∨
    (¬ HoursFit item ∧ hours data = ([hoursProblem], none)) := by
  unfold hours
  rw [hitem]
  dsimp only
  by_cases hkeys : holdsOnly ["days", "start", "end"] item = true
  · rw [if_pos hkeys, if_pos hkeys, if_pos hkeys]
    cases hdays : daysOf (item.getD "days" (.arr ((List.range 7).map fun d : Nat => .int d))) with
    | none =>
      refine .inr ⟨?_, rfl⟩
      rintro ⟨-, ⟨days, hfit⟩, -⟩
      rw [daysOf_eq_some.mpr hfit] at hdays
      cases hdays
    | some days =>
      cases hstart : minutesOf (item.get? "start") with
      | none =>
        refine .inr ⟨?_, rfl⟩
        rintro ⟨-, -, start, -, hfit, -⟩
        rw [hfit] at hstart
        cases hstart
      | some start =>
        cases hstop : minutesOf (item.get? "end") with
        | none =>
          refine .inr ⟨?_, rfl⟩
          rintro ⟨-, -, -, stop, -, hfit, -⟩
          rw [hfit] at hstop
          cases hstop
        | some stop =>
          dsimp only
          by_cases heq : start = stop
          · rw [if_pos heq]
            refine .inr ⟨?_, rfl⟩
            rintro ⟨-, -, start', stop', hstart', hstop', hne⟩
            rw [hstart] at hstart'
            rw [hstop] at hstop'
            cases hstart'
            cases hstop'
            exact hne heq
          · rw [if_neg heq]
            obtain ⟨hvalue, hnil, hle⟩ := daysOf_eq_some.mp hdays
            have hmem : ∀ d, d ∈ days.dedup.insertionSort (· ≤ ·) ↔ d ∈ days := by
              intro d
              rw [List.mem_insertionSort, List.mem_dedup]
            refine .inl ⟨⟨hkeys, ⟨days, hvalue, hnil, hle⟩, start, stop, hstart, hstop, heq⟩, rfl,
              _, rfl, ?_, fun d hd => hle d ((hmem d).mp hd), minutesOf_lt hstart,
              minutesOf_lt hstop, heq⟩
            obtain ⟨d, hd⟩ := List.exists_mem_of_ne_nil days hnil
            exact List.ne_nil_of_mem ((hmem d).mpr hd)
  · rw [if_neg hkeys, if_neg hkeys, if_neg hkeys]
    exact .inr ⟨fun h => hkeys h.keys, rfl⟩

theorem hours_nil {data : Json} :
    (hours data).1 = [] ↔ ∀ item, data.get? "hours" = some item → HoursFit item := by
  cases hget : data.get? "hours" with
  | none => simp [hours, hget]
  | some item =>
    rcases hours_cases hget with ⟨hfit, hnil, -⟩ | ⟨hfit, heq⟩
    · refine ⟨fun _ item' heq => ?_, fun _ => hnil⟩
      cases heq
      exact hfit
    · rw [heq]
      refine ⟨fun h => (by cases h), fun h => absurd (h item rfl) hfit⟩

theorem hours_bounds {data : Json} {h : Hours} (hh : (hours data).2 = some h) :
    h.days ≠ [] ∧ (∀ d ∈ h.days, d ≤ 6) ∧ h.start < 24 * 60 ∧ h.stop < 24 * 60 ∧
      h.start ≠ h.stop := by
  cases hget : data.get? "hours" with
  | none =>
    rw [hours, hget] at hh
    cases hh
  | some item =>
    rcases hours_cases hget with ⟨-, -, h', heq, hbounds⟩ | ⟨-, heq⟩
    · rw [heq] at hh
      cases hh
      exact hbounds
    · rw [heq] at hh
      cases hh

theorem whole_nil {part : Json} {key : String} {default low high : Nat} :
    (whole part key default low high).1 = [] ↔ WholeFits part key default low high := by
  unfold whole WholeFits
  cases part.getD key (.int default) with
  | int n =>
    dsimp only
    by_cases hn : (low : Int) ≤ n ∧ n ≤ high
    · rw [if_pos hn]
      refine ⟨fun _ => ⟨n.toNat, ?_, ?_, ?_⟩, fun _ => rfl⟩
      · rw [Int.toNat_of_nonneg (by omega)]
      · omega
      · omega
    · rw [if_neg hn]
      constructor
      · intro h
        cases h
      · rintro ⟨m, heq, hlow, hhigh⟩
        cases heq
        omega
  | null | bool | float | str | arr | obj => simp

theorem whole_bounds {part : Json} {key : String} {default low high : Nat} (hlow : low ≤ default)
    (hhigh : default ≤ high) :
    low ≤ (whole part key default low high).2 ∧ (whole part key default low high).2 ≤ high := by
  unfold whole
  cases part.getD key (.int default) with
  | int n =>
    dsimp only
    by_cases hn : (low : Int) ≤ n ∧ n ≤ high
    · rw [if_pos hn]
      dsimp only
      omega
    · rw [if_neg hn]
      exact ⟨hlow, hhigh⟩
  | null | bool | float | str | arr | obj => exact ⟨hlow, hhigh⟩

theorem openPart_nil {data : Json} {name : String} {known : List String} {problem : String} :
    (openPart data name known problem).1 = [] ↔
      holdsOnly known (data.getD name (.obj [])) = true := by
  unfold openPart
  dsimp only
  by_cases h : holdsOnly known (data.getD name (.obj [])) = true
  · rw [if_pos h]
    exact ⟨fun _ => h, fun _ => rfl⟩
  · rw [if_neg h]
    exact ⟨fun h' => (by cases h'), fun h' => absurd h' h⟩

/-- A part with known keys is read as it is. -/
theorem openPart_value {data : Json} {name : String} {known : List String} {problem : String}
    (h : holdsOnly known (data.getD name (.obj [])) = true) :
    (openPart data name known problem).2 = data.getD name (.obj []) := by
  unfold openPart
  dsimp only
  rw [if_pos h]

theorem channelOf_eq_some (item : Json) (name : String) :
    channelOf item = some name ↔ item = .str name ∧ name ∈ knownChannels := by
  cases item with
  | str s =>
    simp only [channelOf]
    by_cases hs : s ∈ knownChannels
    · rw [if_pos hs]
      constructor
      · intro h
        cases h
        exact ⟨rfl, hs⟩
      · rintro ⟨h, -⟩
        cases h
        rfl
    · rw [if_neg hs]
      constructor
      · intro h
        cases h
      · rintro ⟨h, hname⟩
        cases h
        exact absurd hname hs
  | null | bool | int | float | arr | obj => simp [channelOf]

/-- Either the channels are a list of known ones, or they are a problem and read as the default. -/
theorem channels_cases (part : Json) :
    (∃ names : List String, part.getD "channels" (.arr [.str channelUi]) = .arr (names.map .str) ∧
      names ≠ [] ∧ (∀ name ∈ names, name ∈ knownChannels) ∧ names.Nodup ∧
      channels part = ([], names)) ∨
    ((¬ ∃ names : List String, part.getD "channels" (.arr [.str channelUi]) =
        .arr (names.map .str) ∧ names ≠ [] ∧ (∀ name ∈ names, name ∈ knownChannels) ∧
        names.Nodup) ∧ (channels part).1 ≠ [] ∧ (channels part).2 = [channelUi]) := by
  unfold channels
  generalize part.getD "channels" (.arr [.str channelUi]) = value
  match value with
  | .arr [] =>
    refine .inr ⟨?_, by simp, rfl⟩
    rintro ⟨names, heq, hne, -⟩
    injection heq with heq
    exact hne (List.map_eq_nil_iff.mp heq.symm)
  | .arr (item :: items) =>
    dsimp only
    have hread : ∀ names, (item :: items).mapM channelOf = some names ↔
        item :: items = names.map .str ∧ ∀ name ∈ names, name ∈ knownChannels :=
      fun names => mapM_eq_some channelOf_eq_some
    cases hfound : (item :: items).mapM channelOf with
    | none =>
      refine .inr ⟨?_, by simp, rfl⟩
      rintro ⟨names, heq, -, hknown, -⟩
      injection heq with heq
      rw [(hread names).mpr ⟨heq, hknown⟩] at hfound
      cases hfound
    | some names =>
      obtain ⟨heq, hknown⟩ := (hread names).mp hfound
      dsimp only
      by_cases hnodup : names.Nodup
      · rw [if_pos hnodup]
        refine .inl ⟨names, by rw [heq], ?_, hknown, hnodup, rfl⟩
        rintro rfl
        cases heq
      · rw [if_neg hnodup]
        refine .inr ⟨?_, by simp, rfl⟩
        rintro ⟨names', heq', -, hknown', hnodup'⟩
        injection heq' with heq'
        rw [(hread names').mpr ⟨heq', hknown'⟩] at hfound
        cases hfound
        exact hnodup hnodup'
  | .null | .bool _ | .int _ | .float _ | .str _ | .obj _ =>
    refine .inr ⟨?_, by simp, rfl⟩
    rintro ⟨names, heq, -⟩
    cases heq

/-- Either the group is a text of known characters, or it is a problem and read as empty. -/
theorem servicenowGroup_cases (part : Json) :
    (∃ group, part.getD "servicenow_group" (.str "") = .str group ∧ group.length ≤ 100 ∧
      group.toList.all groupChar = true ∧ servicenowGroup part = ([], group)) ∨
    ((¬ ∃ group, part.getD "servicenow_group" (.str "") = .str group ∧ group.length ≤ 100 ∧
      group.toList.all groupChar = true) ∧ (servicenowGroup part).1 ≠ [] ∧
      (servicenowGroup part).2 = "") := by
  unfold servicenowGroup
  cases part.getD "servicenow_group" (.str "") with
  | str group =>
    dsimp only
    by_cases h : group.length ≤ 100 ∧ group.toList.all groupChar = true
    · rw [if_pos h]
      exact .inl ⟨group, rfl, h.1, h.2, rfl⟩
    · rw [if_neg h]
      refine .inr ⟨?_, by simp, rfl⟩
      rintro ⟨group', heq, hlength, hchars⟩
      cases heq
      exact h ⟨hlength, hchars⟩
  | null | bool | int | float | arr | obj =>
    refine .inr ⟨?_, by simp, rfl⟩
    rintro ⟨group, heq, -⟩
    cases heq

theorem approval_nil {part : Json} :
    ((channels part).1 = [] ∧ (servicenowGroup part).1 = [] ∧ groupProblems part = []) ↔
      (∃ names : List String, part.getD "channels" (.arr [.str channelUi]) =
          .arr (names.map .str) ∧ names ≠ [] ∧ (∀ name ∈ names, name ∈ knownChannels) ∧
          names.Nodup ∧
          (channelServicenow ∈ names → part.getD "servicenow_group" (.str "") ≠ .str "")) ∧
      ∃ group, part.getD "servicenow_group" (.str "") = .str group ∧ group.length ≤ 100 ∧
        group.toList.all groupChar = true := by
  unfold groupProblems
  rcases channels_cases part with ⟨names, hnames, hne, hknown, hnodup, hchannels⟩ |
    ⟨hnot, hproblem, -⟩
  · rcases servicenowGroup_cases part with ⟨group, hgroup, hlength, hchars, hread⟩ |
      ⟨hnot, hproblem, -⟩
    · rw [hchannels, hread]
      dsimp only
      constructor
      · rintro ⟨-, -, hneeded⟩
        refine ⟨⟨names, hnames, hne, hknown, hnodup, fun hmem hempty => ?_⟩, group, hgroup, hlength,
          hchars⟩
        rw [hgroup] at hempty
        injection hempty with hempty
        rw [if_pos ⟨hmem, hempty⟩] at hneeded
        cases hneeded
      · rintro ⟨⟨names', heq, -, -, -, hneeded⟩, -⟩
        have hsame : names' = names := by
          rw [hnames] at heq
          injection heq with heq
          exact (List.map_injective_iff.mpr (fun _ _ h => by injection h) heq).symm
        refine ⟨rfl, rfl, if_neg ?_⟩
        rintro ⟨hmem, hempty⟩
        exact hneeded (hsame ▸ hmem) (by rw [hgroup, hempty])
    · exact ⟨fun h => absurd h.2.1 hproblem, fun h => absurd h.2 hnot⟩
  · refine ⟨fun h => absurd h.1 hproblem, fun h => absurd ?_ hnot⟩
    obtain ⟨⟨names, hnames, hne, hknown, hnodup, -⟩, -⟩ := h
    exact ⟨names, hnames, hne, hknown, hnodup⟩

/-- The channels that are read are known ones. -/
theorem channels_bounds (part : Json) :
    (channels part).2 ≠ [] ∧ (∀ c ∈ (channels part).2, c ∈ knownChannels) ∧
      (channels part).2.Nodup := by
  rcases channels_cases part with ⟨names, -, hne, hknown, hnodup, hchannels⟩ | ⟨-, -, hdefault⟩
  · rw [hchannels]
    exact ⟨hne, hknown, hnodup⟩
  · rw [hdefault]
    decide

theorem servicenowGroup_bounds (part : Json) :
    (servicenowGroup part).2.length ≤ 100 ∧
      (servicenowGroup part).2.toList.all groupChar = true := by
  rcases servicenowGroup_cases part with ⟨group, -, hlength, hchars, hread⟩ | ⟨-, -, hempty⟩
  · rw [hread]
    exact ⟨hlength, hchars⟩
  · rw [hempty]
    decide

theorem extraKeys_nil {keys known : List String} :
    extraKeys keys known = [] ↔ ∀ key ∈ keys, key ∈ known := by
  rw [List.eq_nil_iff_forall_not_mem]
  constructor
  · intro h key hkey
    by_contra hnot
    refine h key ?_
    rw [extraKeys, List.mem_insertionSort, List.mem_dedup, List.mem_filter]
    exact ⟨hkey, by simpa using hnot⟩
  · intro h key hmem
    rw [extraKeys, List.mem_insertionSort, List.mem_dedup, List.mem_filter] at hmem
    have hknown := h key hmem.1
    simp [hknown] at hmem

/-! ## The levels -/

theorem autonomyOf_eq_some {value : String} {level : Autonomy} :
    autonomyOf value = some level ↔ value = level.value := by
  constructor
  · intro h
    have hvalue := List.find?_some h
    exact (of_decide_eq_true hvalue).symm
  · rintro rfl
    cases level <;> decide

/-- A level that a set can be searched for: an entry with other keys has none that counts. -/
def Hashable (entry : Json) : Prop :=
  holdsOnly ["level", "content_hash"] entry = true → ∀ level, entry.get? "level" = some level →
    (∀ items, level ≠ .arr items) ∧ ∀ fields, level ≠ .obj fields

theorem levelOf_cases (value : Option Json) :
    (∃ found, levelOf value = .ok found ∧
      ∀ level, found = some level ↔ value = some (.str level.value)) ∧
        (∀ level, value = some level →
          (∀ items, level ≠ .arr items) ∧ ∀ fields, level ≠ .obj fields) ∨
    ((∃ message, levelOf value = .error (.typeError message)) ∧
      ∃ level, value = some level ∧
        ((∃ items, level = .arr items) ∨ ∃ fields, level = .obj fields)) := by
  match value with
  | some (.arr items) => exact .inr ⟨⟨_, rfl⟩, _, rfl, .inl ⟨items, rfl⟩⟩
  | some (.obj fields) => exact .inr ⟨⟨_, rfl⟩, _, rfl, .inr ⟨fields, rfl⟩⟩
  | some (.str value) =>
    refine .inl ⟨⟨_, rfl, fun level => ?_⟩, by rintro _ ⟨⟩; simp⟩
    rw [autonomyOf_eq_some, Option.some.injEq, Json.str.injEq]
  | none => exact .inl ⟨⟨none, rfl, by simp⟩, by simp⟩
  | some .null | some (.bool _) | some (.int _) | some (.float _) =>
    exact .inl ⟨⟨none, rfl, by simp⟩, by rintro _ ⟨⟩; simp⟩

/-- An entry reads, or its level has no hash. -/
theorem sopEntry_cases (reader : Reader) (sopId : String) (entry : Json) :
    (Hashable entry ∧ ∃ found, sopEntry reader sopId entry = .ok found ∧
      ((∃ x, found = .ok x) ↔ EntryFits reader entry) ∧
      ∀ x, found = .ok x → x.2.2 = entry.getD "content_hash" (.str "")) ∨
    (¬ Hashable entry ∧ ∃ message, sopEntry reader sopId entry = .error (.typeError message)) := by
  unfold sopEntry
  dsimp only
  by_cases hkeys : holdsOnly ["level", "content_hash"] entry = true
  · rw [if_pos hkeys, if_pos hkeys]
    rcases levelOf_cases (entry.get? "level") with ⟨⟨found, hfound, hlevel⟩, hplain⟩ |
      ⟨⟨message, hmessage⟩, level, hget, hcompound⟩
    · refine .inl ⟨fun _ => hplain, ?_⟩
      rw [hfound]
      cases found with
      | none =>
        refine ⟨_, rfl, ⟨fun h => ?_, fun h => ?_⟩, fun x h => by cases h⟩
        · obtain ⟨x, hx⟩ := h
          cases hx
        · obtain ⟨level, hget⟩ := h.level
          cases (hlevel level).mpr hget
      | some level =>
        have hget := (hlevel level).mp rfl
        refine ⟨_, rfl, ?_, ?_⟩
        · dsimp only
          by_cases hhash : matchesHash
              (reader.builtins.str (entry.getD "content_hash" (.str ""))) = true
          · rw [if_pos hhash]
            exact ⟨fun _ => ⟨hkeys, ⟨level, hget⟩, hhash⟩, fun _ => ⟨_, rfl⟩⟩
          · rw [if_neg hhash]
            refine ⟨fun h => ?_, fun h => absurd h.digest hhash⟩
            obtain ⟨x, hx⟩ := h
            cases hx
        · intro x hx
          dsimp only at hx
          split at hx
          · cases hx
            rfl
          · cases hx
    · refine .inr ⟨fun hplain => ?_, message, by rw [hmessage]; rfl⟩
      rcases hcompound with ⟨items, rfl⟩ | ⟨fields, rfl⟩
      · exact (hplain hkeys _ hget).1 items rfl
      · exact (hplain hkeys _ hget).2 fields rfl
  · rw [if_neg hkeys, if_neg hkeys]
    refine .inl ⟨fun h => absurd h hkeys, _, rfl, ⟨fun h => ?_, fun h => absurd h.keys hkeys⟩, ?_⟩
    · obtain ⟨x, hx⟩ := h
      cases hx
    · intro x hx
      cases hx

/-- The entries that are gone through. -/
def entriesOf (data : Json) : List (String × Json) :=
  match data.getD "sop_autonomy" (.obj []) with
  | .obj raw => if raw.length ≤ maxRules then raw else []
  | _ => []

/-- The loop ends with a list of what the entries are read as, or at a level without a hash. -/
theorem sopEntries_cases (reader : Reader) (raw : List (String × Json)) :
    ((∀ e ∈ raw, Hashable e.2) ∧ ∃ found, sopEntries reader raw = .ok found ∧
      found.length = raw.length ∧
      (∀ x ∈ found, ∃ e ∈ raw, sopEntry reader e.1 e.2 = .ok x) ∧
      ∀ e ∈ raw, ∃ x ∈ found, sopEntry reader e.1 e.2 = .ok x) ∨
    ((¬ ∀ e ∈ raw, Hashable e.2) ∧
      ∃ message, sopEntries reader raw = .error (.typeError message)) := by
  induction raw with
  | nil => exact .inl ⟨by simp, [], rfl, rfl, by simp, by simp⟩
  | cons e rest ih =>
    rcases sopEntry_cases reader e.1 e.2 with ⟨hhash, x, hx, -⟩ | ⟨hhash, message, hmessage⟩
    · have hstep : sopEntries reader (e :: rest) =
          (sopEntries reader rest).bind fun others => .ok (x :: others) := by
        show ((sopEntry reader e.1 e.2).bind fun found =>
          (sopEntries reader rest).bind fun others => .ok (found :: others)) = _
        rw [hx]
        rfl
      rw [hstep]
      rcases ih with ⟨hall, found, hfound, hlength, hfrom, hto⟩ | ⟨hall, message, hmessage⟩
      · rw [hfound]
        refine .inl ⟨List.forall_mem_cons.mpr ⟨hhash, hall⟩, x :: found, rfl, ?_, ?_, ?_⟩
        · rw [List.length_cons, List.length_cons, hlength]
        · intro y hy
          rcases List.mem_cons.mp hy with rfl | hy
          · exact ⟨e, List.mem_cons_self, hx⟩
          · obtain ⟨e', he', hread⟩ := hfrom y hy
            exact ⟨e', List.mem_cons_of_mem _ he', hread⟩
        · intro e' he'
          rcases List.mem_cons.mp he' with rfl | he'
          · exact ⟨x, List.mem_cons_self, hx⟩
          · obtain ⟨y, hy, hread⟩ := hto e' he'
            exact ⟨y, List.mem_cons_of_mem _ hy, hread⟩
      · rw [hmessage]
        exact .inr ⟨fun h => hall (List.forall_mem_cons.mp h).2, message, rfl⟩
    · refine .inr ⟨fun h => hhash (List.forall_mem_cons.mp h).1, message, ?_⟩
      show ((sopEntry reader e.1 e.2).bind fun found =>
        (sopEntries reader rest).bind fun others => .ok (found :: others)) = _
      rw [hmessage]
      rfl

/-- What the levels of a document are read as. -/
structure LevelsRead (reader : Reader) (data : Json)
    (levels : Part (List (String × Autonomy × Json))) : Prop where
  nil : levels.1 = [] ↔ ∃ raw, data.getD "sop_autonomy" (.obj []) = .obj raw ∧
    raw.length ≤ maxRules ∧ ∀ entry ∈ raw, EntryFits reader entry.2
  length : levels.2.length ≤ maxRules
  from_entry : ∀ x ∈ levels.2, ∃ e ∈ entriesOf data, x.2.2 = e.2.getD "content_hash" (.str "")
  to_level : levels.1 = [] → ∀ e ∈ entriesOf data, ∃ x ∈ levels.2,
    x.2.2 = e.2.getD "content_hash" (.str "")

theorem sopAutonomy_cases (reader : Reader) (data : Json) :
    ((∀ e ∈ entriesOf data, Hashable e.2) ∧ ∃ levels, sopAutonomy reader data = .ok levels ∧
      LevelsRead reader data levels) ∨
    ((¬ ∀ e ∈ entriesOf data, Hashable e.2) ∧
      ∃ message, sopAutonomy reader data = .error (.typeError message)) := by
  have hnone : ∀ levels : Part (List (String × Autonomy × Json)),
      levels = (["sop_autonomy must be an object"], []) → entriesOf data = [] →
      (¬ ∃ raw, data.getD "sop_autonomy" (.obj []) = .obj raw ∧
        raw.length ≤ maxRules ∧ ∀ entry ∈ raw, EntryFits reader entry.2) →
      LevelsRead reader data levels := by
    rintro _ rfl hentries hnot
    exact ⟨⟨fun h => (by cases h), fun h => absurd h hnot⟩, Nat.zero_le _, fun _ h => (by cases h),
      fun h => (by cases h)⟩
  unfold sopAutonomy
  cases hvalue : data.getD "sop_autonomy" (.obj []) with
  | obj raw =>
    dsimp only
    by_cases hlength : raw.length ≤ maxRules
    · rw [if_pos hlength]
      have hentries : entriesOf data = raw := by
        rw [entriesOf, hvalue]
        exact if_pos hlength
      rw [hentries]
      rcases sopEntries_cases reader raw with ⟨hall, found, hfound, hsame, hfrom, hto⟩ |
        ⟨hall, message, hmessage⟩
      · refine .inl ⟨hall, gather found, by rw [hfound]; rfl, ?_, ?_, ?_, ?_⟩
        · rw [gather_nil, hvalue]
          constructor
          · intro h
            refine ⟨raw, rfl, hlength, fun e he => ?_⟩
            obtain ⟨x, hx, hread⟩ := hto e he
            rcases sopEntry_cases reader e.1 e.2 with ⟨-, y, hy, hfits, -⟩ | ⟨-, _, hmessage⟩
            · rw [hread] at hy
              cases hy
              exact hfits.mp (h x hx)
            · rw [hread] at hmessage
              cases hmessage
          · rintro ⟨raw', heq, -, h⟩ x hx
            cases heq
            obtain ⟨e, he, hread⟩ := hfrom x hx
            rcases sopEntry_cases reader e.1 e.2 with ⟨-, y, hy, hfits, -⟩ | ⟨-, _, hmessage⟩
            · rw [hread] at hy
              cases hy
              exact hfits.mpr (h e he)
            · rw [hread] at hmessage
              cases hmessage
        · have hle := length_gather found
          omega
        · intro x hx
          rw [hentries]
          obtain ⟨e, he, hread⟩ := hfrom _ (mem_gather.mp hx)
          rcases sopEntry_cases reader e.1 e.2 with ⟨-, y, hy, -, hdigest⟩ | ⟨-, _, hmessage⟩
          · rw [hread] at hy
            cases hy
            exact ⟨e, he, hdigest x rfl⟩
          · rw [hread] at hmessage
            cases hmessage
        · intro hnil e he
          rw [hentries] at he
          obtain ⟨y, hy, hread⟩ := hto e he
          obtain ⟨x, rfl⟩ := gather_nil.mp hnil y hy
          rcases sopEntry_cases reader e.1 e.2 with ⟨-, y, hy', -, hdigest⟩ | ⟨-, _, hmessage⟩
          · rw [hread] at hy'
            cases hy'
            exact ⟨x, mem_gather.mpr hy, hdigest x rfl⟩
          · rw [hread] at hmessage
            cases hmessage
      · exact .inr ⟨hall, message, by rw [hmessage]; rfl⟩
    · rw [if_neg hlength]
      have hentries : entriesOf data = [] := by
        rw [entriesOf, hvalue]
        exact if_neg hlength
      refine .inl ⟨by rw [hentries]; simp, _, rfl, hnone _ rfl hentries ?_⟩
      rintro ⟨raw', heq, hle, -⟩
      rw [hvalue] at heq
      cases heq
      exact hlength hle
  | null | bool | int | float | str | arr =>
    have hentries : entriesOf data = [] := by
      rw [entriesOf, hvalue]
    refine .inl ⟨by rw [hentries]; simp, _, rfl, hnone _ rfl hentries ?_⟩
    rintro ⟨raw', heq, -⟩
    rw [hvalue] at heq
    cases heq

/-! ## The document -/

/-- Nothing is wrong with a document that is well formed, and only with one that is. -/
theorem problems_nil {reader : Reader} {data : Json}
    {levels : Part (List (String × Autonomy × Json))} (hlevels : LevelsRead reader data levels) :
    problems reader data levels = [] ↔ WellFormed reader data := by
  unfold problems
  simp only [List.append_eq_nil_iff, List.map_eq_nil_iff, extraKeys_nil, and_assoc]
  rw [hlevels.nil, targetRules_nil, targetRules_nil, freeze_nil, hours_nil, whole_nil, whole_nil,
    whole_nil, whole_nil, approval_nil, rate, approval, openPart_nil, openPart_nil]
  constructor
  · rintro ⟨hkeys, hsop, hraise, hauto, hfreeze, hhours, hrate, hmax, hper, happroval, httl,
      hwithin, hchannels, hgroup⟩
    rw [openPart_value hrate] at hmax hper
    rw [openPart_value happroval] at httl hwithin hchannels hgroup
    exact ⟨hkeys, hsop, hraise, hauto, hfreeze, hhours, hrate, hmax, hper,
      ⟨happroval, httl, hwithin, hchannels, hgroup⟩⟩
  · rintro ⟨hkeys, hsop, hraise, hauto, hfreeze, hhours, hrate, hmax, hper,
      ⟨happroval, httl, hwithin, hchannels, hgroup⟩⟩
    rw [openPart_value hrate, openPart_value happroval]
    exact ⟨hkeys, hsop, hraise, hauto, hfreeze, hhours, hrate, hmax, hper, happroval, httl, hwithin,
      hchannels, hgroup⟩

/-- What is read without a problem is within its ranges. -/
theorem found_ranges {reader : Reader} {data : Json}
    {levels : Part (List (String × Autonomy × Json))} (hlevels : LevelsRead reader data levels)
    (h : problems reader data levels = []) : Ranges (found reader data levels) where
  entries := hlevels.length
  raiseTier := ⟨length_readItems, fun _ hr => targetRules_bounds hr⟩
  automatic := ⟨length_readItems, fun _ hr => targetRules_bounds hr⟩
  freeze := ⟨length_readItems, fun _ hw => freeze_bounds hw⟩
  hours _ hh := hours_bounds hh
  rate := ⟨(whole_bounds (by decide) (by decide)).2, whole_bounds (by decide) (by decide)⟩
  approval := by
    have httl := @whole_bounds (approval data).2 "ttl_minutes" 60 1 (7 * 24 * 60) (by decide)
      (by decide)
    have hwithin := @whole_bounds (approval data).2 "execute_within_minutes" 15 1 (24 * 60)
      (by decide) (by decide)
    exact ⟨httl.1, httl.2, hwithin⟩
  channels := by
    obtain ⟨hne, hknown, hnodup⟩ := channels_bounds (approval data).2
    refine ⟨hne, hknown, hnodup, fun hmem hempty => ?_⟩
    have hneeded : groupProblems (approval data).2 = [] := by
      unfold problems at h
      exact (List.append_eq_nil_iff.mp h).2
    rw [groupProblems, if_pos ⟨hmem, hempty⟩] at hneeded
    cases hneeded
  group := servicenowGroup_bounds (approval data).2

/-- The rules of a tenant that has none. -/
theorem ranges_empty : Ranges {} where
  entries := Nat.zero_le _
  raiseTier := ⟨Nat.zero_le _, fun _ h => (by cases h)⟩
  automatic := ⟨Nat.zero_le _, fun _ h => (by cases h)⟩
  freeze := ⟨Nat.zero_le _, fun _ h => (by cases h)⟩
  hours _ h := by cases h
  rate := by decide
  approval := by decide
  channels := by decide
  group := by decide

/-- What is made of the parts. -/
theorem readRules_cases {reader : Reader} {data : Json}
    {levels : Part (List (String × Autonomy × Json))} (hread : LevelsRead reader data levels) :
    (∃ rules, readRules reader data levels = .ok rules ∧ Ranges rules ∧ WellFormed reader data ∧
      rules.sopAutonomy = levels.2) ∨
    (∃ problems, readRules reader data levels = .error (.policyError problems) ∧
      ¬ WellFormed reader data) := by
  unfold readRules
  by_cases hnil : problems reader data levels = []
  · rw [if_pos hnil]
    exact .inl ⟨_, rfl, found_ranges hread hnil, (problems_nil hread).mp hnil, rfl⟩
  · rw [if_neg hnil]
    exact .inr ⟨_, rfl, fun h => hnil ((problems_nil hread).mpr h)⟩

/-- What `parse_rules` does with a value. -/
theorem parseRules_cases (reader : Reader) (data : Json) :
    (∃ rules, parseRules reader data = .ok rules ∧ (∀ e ∈ entriesOf data, Hashable e.2) ∧
      Ranges rules ∧
      (∀ x ∈ rules.sopAutonomy, WellFormed reader data ∧
        ∃ e ∈ entriesOf data, x.2.2 = e.2.getD "content_hash" (.str "")) ∧
      ∀ e ∈ entriesOf data, ∃ x ∈ rules.sopAutonomy,
        x.2.2 = e.2.getD "content_hash" (.str "")) ∨
    (∃ problems, parseRules reader data = .error (.policyError problems) ∧
      (∀ e ∈ entriesOf data, Hashable e.2) ∧ (WellFormed reader data → entriesOf data = [])) ∨
    (∃ message, parseRules reader data = .error (.typeError message) ∧
      ¬ ∀ e ∈ entriesOf data, Hashable e.2) := by
  have hobject : ∀ fields, fields = [] ∨ parseRules reader (.obj fields) =
      (sopAutonomy reader (.obj fields)).bind (readRules reader (.obj fields)) := by
    intro fields
    cases fields with
    | nil => exact .inl rfl
    | cons => exact .inr rfl
  cases data with
  | obj fields =>
    rcases hobject fields with rfl | hparse
    · exact .inl ⟨{}, rfl, fun _ h => (by cases h), ranges_empty, fun _ h => (by cases h),
        fun _ h => (by cases h)⟩
    · rcases sopAutonomy_cases reader (.obj fields) with ⟨hhash, levels, hlevels, hread⟩ |
        ⟨hhash, message, hmessage⟩
      · have hbind : ∀ f : Part (List (String × Autonomy × Json)) → Except Exn Rules,
            (Except.ok levels).bind f = f levels := fun _ => rfl
        rw [hparse, hlevels, hbind]
        rcases readRules_cases hread with ⟨rules, hrules, hranges, hwell, hsop⟩ |
          ⟨problems, hproblems, hill⟩
        · refine .inl ⟨rules, hrules, hhash, hranges, fun x hx => ?_, ?_⟩
          · rw [hsop] at hx
            exact ⟨hwell, hread.from_entry x hx⟩
          · rw [hsop]
            exact hread.to_level (hread.nil.mpr hwell.sopAutonomy)
        · exact .inr (.inl ⟨problems, hproblems, hhash, fun h => absurd h hill⟩)
      · refine .inr (.inr ⟨message, ?_, hhash⟩)
        rw [hparse, hmessage]
        rfl
  | null =>
    exact .inl ⟨{}, rfl, fun _ h => (by cases h), ranges_empty, fun _ h => (by cases h),
      fun _ h => (by cases h)⟩
  | bool | int | float | str | arr =>
    exact .inr (.inl ⟨_, rfl, fun _ h => (by cases h), fun _ => rfl⟩)

end Parsing
end L1Agent
