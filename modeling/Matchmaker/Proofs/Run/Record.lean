import Matchmaker.Proofs.Registry.Repetition
import Matchmaker.Proofs.Run.Change

/-!
# How long a record lasts

What is known of a server changes only by a look at the feed: one that has a record of it brings a
new record, and one that has none takes the server away.  So from one look that has a record of the
server to the next the record stays, as long as the server is known (`record?_run`).
-/

namespace Matchmaker

open Coordinator (Outcome)

/-- looks at the feed and finds a record of the server -/
def Action.Refreshes (s : ServerId) (a : Action) : Prop :=
  ∃ feed, a = .report (.ok feed) ∧ s ∈ feed.map LobbyInfo.serverId

namespace World
variable {owner : Nat → Profile} {w : World} {a : Action} {o : Outcome} {s : ServerId}

/-- Without a new record the old one stays, or there is none any more. -/
theorem Change.record? (h : Change owner w a o) (ha : ¬ a.Refreshes s) :
    o.state.lobbies.record? s = w.coordinator.lobbies.record? s ∨
      o.state.lobbies.record? s = none := by
  have hfeed : ∀ feed, a = .report (.ok feed) →
      (w.coordinator.lobbies.reconcile feed).1.record? s = none := by
    intro feed hreport
    rw [Registry.record?_reconcile, List.getLast?_eq_none_iff]
    by_contra hrecords
    exact ha ⟨feed, hreport, Registry.recordsOf_ne_nil_iff.1 hrecords⟩
  cases h with
  | quiet o hclients hlobbies hsettings heffects => exact .inl (by rw [hlobbies])
  | status e he status effects heffects => exact .inl rfl
  | comes n status ha before hbefore d hclients hlobbies hsettings =>
    exact .inl (congrFun (congrArg Registry.record? hlobbies) s)
  | goes gone before after hbefore hafter =>
    exact .inl (congrFun (Coordinator.record?_removeEach _ gone) s)
  | joins p servers ha hp => exact .inl (congrFun (Registry.record?_join _ p servers) s)
  | leaves p servers => exact .inl (congrFun (Registry.record?_leave _ p servers) s)
  | reports feed hreport => exact .inr (hfeed feed hreport)
  | refreshes feed hsame hreport => exact .inr (hfeed feed hreport)
  | starts l address ha hl => exact .inl (congrFun (Registry.record?_leaveEach _ _) s)

/-- **Between two records of a server what is known of it does not change.** -/
theorem record?_run {as : List Action} (has : ∀ a ∈ as, ¬ a.Refreshes s) :
    (w.run owner as).coordinator.lobbies.record? s = w.coordinator.lobbies.record? s ∨
      (w.run owner as).coordinator.lobbies.record? s = none := by
  induction as generalizing w with
  | nil => exact .inl rfl
  | cons a as ih =>
    have hstep := (change_outcome owner w a).record? (has a List.mem_cons_self)
    have hrest := ih (w := w.next owner a) fun b hb => has b (List.mem_cons_of_mem a hb)
    change (w.run owner (a :: as)).coordinator.lobbies.record? s = _ ∨ _ at hrest
    rcases hrest with hrest | hrest
    · rcases hstep with hstep | hstep
      · exact .inl (hrest.trans hstep)
      · exact .inr (hrest.trans hstep)
    · exact .inr hrest

end World

end Matchmaker
