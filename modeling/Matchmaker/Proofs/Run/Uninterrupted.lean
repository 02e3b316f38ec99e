import Matchmaker.Proofs.Run.Basic

/-!
# Uninterrupted operations are runs

`scan`, `matchPass`, `join` and `update` say what a task does when nobody comes in between.  Each of
them is a run as well, in which all actions are those of one task: it ends in the same state and
asks the same of the connections, in the same order (`Performs`).  So whatever is shown of all runs
holds of these operations too, and of any sequence of them.
-/

namespace Matchmaker

open Coordinator (Outcome Pass)

theorem Coordinator.matchPass_eq_scan (lookup : Lookup) (c : Coordinator) :
    (c.matchPass lookup).1 = (scan lookup (fun _ => false) c c.candidates).1 := by
  unfold matchPass
  split <;> rename_i hscan <;> rw [hscan]

namespace World
variable {owner : Nat → Profile} {w : World} {a : Action} {as : List Action}

/-- all that a run asks of the connections, in order -/
def effects (owner : Nat → Profile) : World → List Action → List Effect
  | _, [] => []
  | w, a :: as => (w.outcome owner a).effects ++ effects owner (w.next owner a) as

/-- the run comes to this outcome -/
structure Performs (owner : Nat → Profile) (w : World) (as : List Action) (o : Outcome) : Prop where
  state : (w.run owner as).coordinator = o.state
  effects : w.effects owner as = o.effects

theorem Performs.nil : Performs owner w [] (.still w.coordinator) := ⟨rfl, rfl⟩

/-- One action after another is one step after another. -/
theorem Performs.cons {f : Coordinator → Outcome}
    (h : Performs owner (w.next owner a) as (f (w.outcome owner a).state)) :
    Performs owner w (a :: as) ((w.outcome owner a).andThen f) where
  state := h.state
  effects := congrArg ((w.outcome owner a).effects ++ ·) h.effects

theorem Performs.cons_still {o : Outcome} (ha : w.outcome owner a = .still w.coordinator)
    (h : Performs owner (w.next owner a) as o) : Performs owner w (a :: as) o where
  state := h.state
  effects := by
    show (w.outcome owner a).effects ++ _ = _
    rw [ha]
    exact h.effects

theorem Performs.singleton (owner : Nat → Profile) (w : World) (a : Action) :
    Performs owner w [a] (w.outcome owner a) := ⟨rfl, List.append_nil _⟩

/-! ## one pass -/

theorem set_of_getElem? {α : Type} {l : List α} {i : Nat} {x : α} (h : l[i]? = some x) :
    l.set i x = l := by
  obtain ⟨hi, hx⟩ := List.getElem?_eq_some_iff.1 h
  rw [← hx]
  exact List.set_getElem_self hi

/-- Going through the candidates is to go on with the pass again and again. -/
theorem scan_performs (owner : Nat → Profile) (lookup : Lookup) (isSlow : LobbyInfo → Bool)
    (i : Nat) (ls : List Lobby) (w : World) (h : w.passes[i]? = some (.ofList ls)) :
    ∃ n, Performs owner w (List.replicate n (.proceed i lookup))
        (Coordinator.scan lookup isSlow w.coordinator ls).1 ∧
      (w.run owner (List.replicate n (.proceed i lookup))).passes =
        w.passes.set i (Coordinator.scan lookup isSlow w.coordinator ls).2 := by
  induction ls generalizing w with
  | nil => exact ⟨0, .nil, (set_of_getElem? h).symm⟩
  | cons l rest ih =>
    have hi : i < w.passes.length := (List.getElem?_eq_some_iff.1 h).1
    have hresumed := resumed_of_lookup h lookup
    unfold Coordinator.scan
    by_cases hslow : isSlow l.info = true
    · rw [if_pos hslow]
      exact ⟨0, .nil, (set_of_getElem? h).symm⟩
    · rw [if_neg hslow]
      cases htry : w.coordinator.tryMatch? l (l.info.resolve lookup) with
      | some o =>
        rw [htry] at hresumed
        have hout : w.outcome owner (.proceed i lookup) = o := congrArg Prod.fst hresumed
        refine ⟨1, hout ▸ .singleton owner w _, ?_⟩
        show (w.next owner (.proceed i lookup)).passes = _
        rw [next_proceed owner hresumed]
      | none =>
        rw [htry] at hresumed
        have hnext := next_proceed owner hresumed
        obtain ⟨n, hn, hpasses⟩ := ih (w.next owner (.proceed i lookup)) (by
          rw [hnext]
          exact List.getElem?_set_self hi)
        have hcoordinator : (w.next owner (.proceed i lookup)).coordinator = w.coordinator := by
          rw [hnext]
          rfl
        rw [hcoordinator] at hn hpasses
        refine ⟨n + 1, .cons_still (congrArg Prod.fst hresumed) hn, hpasses.trans ?_⟩
        rw [hnext]
        exact List.set_set _

/-- A whole pass: the candidates are taken down, and then the pass goes on to its end. -/
theorem matchPass_performs (owner : Nat → Profile) (lookup : Lookup) (w : World) :
    ∃ n, Performs owner w (.list :: List.replicate n (.proceed w.passes.length lookup))
      (w.coordinator.matchPass lookup).1 := by
  have hpass : (w.next owner .list).passes[w.passes.length]? =
      some (.ofList w.coordinator.candidates) := List.getElem?_concat_length
  obtain ⟨n, hn, -⟩ := scan_performs owner lookup (fun _ => false) w.passes.length
    w.coordinator.candidates (w.next owner .list) hpass
  rw [Coordinator.matchPass_eq_scan]
  exact ⟨n, .cons_still rfl hn⟩

/-! ## operations -/

theorem join_performs (owner : Nat → Profile) (lookup : Lookup) (w : World) (p : SteamId)
    (servers : List ServerId) :
    ∃ as, Performs owner w (.enqueue p servers :: as) (w.coordinator.join lookup p servers) := by
  have hout : w.outcome owner (.enqueue p servers) =
      (w.coordinator.enqueue? p servers).getD (.still w.coordinator) := rfl
  unfold Coordinator.join
  cases hjoin : w.coordinator.enqueue? p servers with
  | none =>
    rw [hjoin] at hout
    refine ⟨[], ?_⟩
    show Performs owner w _ (Option.getD none (.still w.coordinator))
    rw [← hout]
    exact .singleton owner w _
  | some o =>
    rw [hjoin] at hout
    obtain ⟨n, hn⟩ := matchPass_performs owner lookup (w.next owner (.enqueue p servers))
    refine ⟨.list :: List.replicate n (.proceed w.passes.length lookup), ?_⟩
    show Performs owner w _ ((Option.getD (some o) (.still w.coordinator)).andThen _)
    rw [← hout]
    exact .cons hn

theorem update_performs (owner : Nat → Profile) (lookup : Lookup) (w : World)
    (feed : Except CollaboratorError (List LobbyInfo)) :
    ∃ as, (∀ a ∈ as, a = .list ∨ ∃ i, a = .proceed i lookup) ∧
      Performs owner w (.report feed :: as) (w.coordinator.update lookup feed) := by
  cases feed with
  | error e => exact ⟨[], fun a ha => (by cases ha), .singleton owner w _⟩
  | ok lobbies =>
    obtain ⟨n, hn⟩ := matchPass_performs owner lookup (w.next owner (.report (.ok lobbies)))
    refine ⟨_, fun a ha => ?_, .cons (f := fun d => (d.matchPass lookup).1) hn⟩
    rcases List.mem_cons.1 ha with hlist | hproceed
    · exact .inl hlist
    · exact .inr ⟨_, List.eq_of_mem_replicate hproceed⟩

end World

end Matchmaker
