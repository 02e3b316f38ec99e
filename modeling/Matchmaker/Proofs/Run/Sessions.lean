import Matchmaker.Proofs.Run.View

/-!
# One session per player

A session is registered by connecting and not registered any more when its player connects again,
when its handler disconnects it, or when it is found idle.  `Origin` says where a registered session
comes from, and `close_of_gone` that the action which takes one out of the registry closes its
connection as well.

So of all the connections that a player ever had at most one is registered, and that is the one that
came last.  The others are closed, and their handlers, which may still ask for them to be taken out,
change nothing (`one_live_session`).
-/

namespace Matchmaker

open Coordinator (Outcome Serves)

/-- takes sessions in or out, or changes them -/
def Action.isSession : Action → Bool
  | .introduce _ _ => true
  | .connect _ _ => true
  | .disconnect _ => true
  | .evict _ _ => true
  | .updateChatStatus _ _ _ => true
  | _ => false

namespace Coordinator
variable {c : Coordinator}

/-! ## sessions that are taken out -/

theorem mem_clients_remove {p : SteamId} {e : Session} :
    e ∈ (c.remove p).clients ↔ e ∈ c.clients ∧ e.steamId ≠ p := by
  rw [clients_remove, Ascending.mem_erase]
  exact and_congr_right fun _ => ⟨mt (congrArg SteamId.toNat), mt SteamId.ext_toNat⟩

theorem mem_clients_removeEach {gone : List Session} {e : Session} :
    e ∈ (c.removeEach gone).clients ↔ e ∈ c.clients ∧ ∀ d ∈ gone, e.steamId ≠ d.steamId := by
  induction gone generalizing c with
  | nil => simp [removeEach]
  | cons d gone ih =>
    rw [removeEach_cons, ih, mem_clients_remove, List.forall_mem_cons, and_assoc]

theorem disconnect_of_not_current {p : SteamId} {n : Nat} (h : c.isCurrent p n = false) :
    c.disconnect p n = ⟨c, [.close n]⟩ := by
  unfold disconnect
  rw [h]
  rfl

theorem disconnect_of_current {p : SteamId} {n : Nat} (h : c.isCurrent p n = true) :
    c.disconnect p n =
      ⟨c.remove p, (c.remove p).broadcastAll (c.remove p).fullUpdate ++ [.close n]⟩ := by
  unfold disconnect
  rw [h]
  rfl

theorem mem_clients_disconnect {p : SteamId} {n : Nat} {e : Session}
    (he : e ∈ (c.disconnect p n).state.clients) : e ∈ c.clients := by
  cases h : c.isCurrent p n with
  | true =>
    rw [disconnect_of_current h] at he
    exact (mem_clients_remove.1 he).1
  | false =>
    rw [disconnect_of_not_current h] at he
    exact he

/-! ## a session that is changed -/

/-- the coordinator after the status of a registered session has changed -/
def withStatus (c : Coordinator) (d : Session) (status : ChatStatus) : Coordinator :=
  { c with clients := c.clients.insert { d with chatStatus := status } }

theorem updateChatStatus_of_none {p : SteamId} (h : c.client? p = none) (status : ChatStatus)
    (reason : String) : (c.updateChatStatus p status reason).1 = .still c := by
  unfold updateChatStatus
  rw [h]

theorem updateChatStatus_of_some {p : SteamId} {d : Session} (h : c.client? p = some d)
    (status : ChatStatus) (reason : String) :
    (c.updateChatStatus p status reason).1 =
      ⟨c.withStatus d status, .deliver d.connection (.chatStatusChange status reason) ::
        if !d.hasMessageAccess && status.hasMessageAccess then
          (c.withStatus d status).replay d.connection
        else []⟩ := by
  unfold updateChatStatus
  rw [h]
  rfl

theorem mem_clients_updateChatStatus {p : SteamId} {status : ChatStatus} {reason : String}
    {e : Session} (he : e ∈ (c.updateChatStatus p status reason).1.state.clients) :
    (e ∈ c.clients ∧ e.steamId ≠ p) ∨
      ∃ d ∈ c.clients, d.steamId = p ∧ e = { d with chatStatus := status } := by
  cases hd : c.client? p with
  | none =>
    rw [updateChatStatus_of_none hd] at he
    change e ∈ c.clients at he
    refine .inl ⟨he, fun hp => ?_⟩
    rw [client?_eq_some_iff.2 ⟨he, hp⟩] at hd
    cases hd
  | some d =>
    rw [updateChatStatus_of_some hd] at he
    obtain ⟨hmem, hp⟩ := client?_eq_some_iff.1 hd
    rcases Ascending.mem_insert.1 he with rfl | ⟨he, hkey⟩
    · exact .inr ⟨d, hmem, hp, rfl⟩
    · refine .inl ⟨he, fun hep => hkey ?_⟩
      exact congrArg SteamId.toNat (hep.trans hp.symm)

theorem serves_updateChatStatus {n : Nat} (h : c.Serves n) (p : SteamId) (status : ChatStatus)
    (reason : String) : (c.updateChatStatus p status reason).1.state.Serves n := by
  obtain ⟨e, he, rfl⟩ := h
  cases hd : c.client? p with
  | none =>
    rw [updateChatStatus_of_none hd]
    exact ⟨e, he, rfl⟩
  | some d =>
    rw [updateChatStatus_of_some hd]
    obtain ⟨hmem, -⟩ := client?_eq_some_iff.1 hd
    by_cases hed : e = d
    · exact ⟨{ d with chatStatus := status }, Ascending.mem_insert.2 (.inl rfl), hed ▸ rfl⟩
    · refine ⟨e, Ascending.mem_insert.2 (.inr ⟨he, fun hkey => hed ?_⟩), rfl⟩
      exact c.clients.key_injOn he hmem hkey

end Coordinator

namespace World
variable {owner : Nat → Profile} {w : World} {a : Action} {n : Nat} {e : Session}

/-! ## where sessions come from -/

theorem sessions_outcome (owner : Nat → Profile) (w : World) (ha : a.isSession = false) :
    (w.outcome owner a).state.clients = w.coordinator.clients ∧
      (w.outcome owner a).state.aside = w.coordinator.aside := by
  cases a with
  | enqueue p servers =>
    show ((w.coordinator.enqueue? p servers).getD _).state.clients = _ ∧
      ((w.coordinator.enqueue? p servers).getD _).state.aside = _
    rw [Coordinator.enqueue?_eq]
    split <;> exact ⟨rfl, rfl⟩
  | leave p servers =>
    show (w.coordinator.leave p servers).state.clients = _ ∧
      (w.coordinator.leave p servers).state.aside = _
    rw [Coordinator.leave_eq]
    split <;> exact ⟨rfl, rfl⟩
  | report feed =>
    cases feed with
    | error e => exact ⟨rfl, rfl⟩
    | ok feed =>
      show (w.coordinator.reconcile feed).state.clients = _ ∧
        (w.coordinator.reconcile feed).state.aside = _
      rw [Coordinator.reconcile_eq]
      split <;> exact ⟨rfl, rfl⟩
  | proceed i lookup =>
    show (w.resumed i lookup).1.state.clients = _ ∧ (w.resumed i lookup).1.state.aside = _
    cases hl : w.started? i lookup with
    | none =>
      rw [resumed_of_not_started hl]
      exact ⟨rfl, rfl⟩
    | some l =>
      obtain ⟨_, _, o, -, -, hstart, hresumed⟩ := resumed_of_started hl
      obtain ⟨-, rfl⟩ := Coordinator.startMatch?_eq_some_iff.1 hstart
      rw [hresumed]
      exact ⟨rfl, rfl⟩
  | purge ids =>
    show (w.coordinator.purge ids).1.state.clients = _ ∧ (w.coordinator.purge ids).1.state.aside = _
    unfold Coordinator.purge
    split <;> exact ⟨rfl, rfl⟩
  | introduce n status => cases ha
  | connect n status => cases ha
  | disconnect n => cases ha
  | evict now lastSeen => cases ha
  | updateChatStatus p status reason => cases ha
  | _ => exact ⟨rfl, rfl⟩

/-- where a session that is registered after an action comes from -/
inductive Origin (owner : Nat → Profile) (w : World) (e : Session) : Action → Prop where
  | stays (a : Action) (he : e ∈ w.coordinator.clients)
      (hconnect : ∀ n status, a = .connect n status → e.steamId ≠ (owner n).steamId)
      (hstatus : ∀ p status reason, a = .updateChatStatus p status reason → e.steamId ≠ p) :
      Origin owner w e a
  | comes (n : Nat) (status : ChatStatus) (he : e = ⟨n, owner n, status⟩) :
      Origin owner w e (.connect n status)
  | changes (d : Session) (hd : d ∈ w.coordinator.clients) (status : ChatStatus) (reason : String)
      (he : e = { d with chatStatus := status }) :
      Origin owner w e (.updateChatStatus d.steamId status reason)

theorem origin_of_mem (he : e ∈ (w.outcome owner a).state.clients) : Origin owner w e a := by
  cases a with
  | connect n status =>
    rcases Ascending.mem_insert.1 he with rfl | ⟨he, hkey⟩
    · exact .comes n status rfl
    · refine .stays _ he (fun m t ha => ?_) fun p t reason ha => by cases ha
      cases ha
      exact fun hsame => hkey (congrArg SteamId.toNat hsame)
  | updateChatStatus p status reason =>
    rcases Coordinator.mem_clients_updateChatStatus he with ⟨he, hne⟩ | ⟨d, hd, rfl, rfl⟩
    · refine .stays _ he (fun m t ha => by cases ha) fun q t why ha => ?_
      cases ha
      exact hne
    · exact .changes d hd status reason rfl
  | disconnect n =>
    exact .stays _ (Coordinator.mem_clients_disconnect he) (fun m t ha => by cases ha)
      fun p t reason ha => by cases ha
  | evict now lastSeen =>
    exact .stays _ (Coordinator.mem_clients_of_removeEach he) (fun m t ha => by cases ha)
      fun p t reason ha => by cases ha
  | introduce n status =>
    exact .stays _ he (fun m t ha => by cases ha) fun p t reason ha => by cases ha
  | _ =>
    rw [(sessions_outcome owner w rfl).1] at he
    exact .stays _ he (fun m t ha => by cases ha) fun p t reason ha => by cases ha

/-! ## sessions that go -/

/-- Whoever is taken out of the registry is closed. -/
theorem close_of_gone (hn : w.coordinator.Serves n) (hgone : ¬ (w.outcome owner a).state.Serves n) :
    .close n ∈ (w.outcome owner a).effects := by
  obtain ⟨e, he, rfl⟩ := hn
  have hout : ¬ e ∈ (w.outcome owner a).state.clients := fun h => hgone ⟨e, h, rfl⟩
  cases a with
  | connect m status =>
    -- only the session that is replaced goes
    have hsame : e.steamId = (owner m).steamId := by
      by_contra hne
      exact hout (Ascending.mem_insert.2 (.inr ⟨he, mt SteamId.ext_toNat hne⟩))
    have hprevious : w.coordinator.client? (owner m).steamId = some e :=
      Coordinator.client?_eq_some_iff.2 ⟨he, hsame⟩
    have hclose : Effect.close e.connection ∈
        ((w.coordinator.client? (owner m).steamId).toList.map fun p => Effect.close p.connection) := by
      rw [hprevious]
      exact List.mem_singleton.2 rfl
    show _ ∈ (w.coordinator.connect ⟨m, owner m, status⟩).effects
    unfold Coordinator.connect
    simp only [List.mem_append]
    exact .inl (.inl (.inl (.inl hclose)))
  | disconnect m =>
    change ¬ e ∈ (w.coordinator.disconnect (owner m).steamId m).state.clients at hout
    show _ ∈ (w.coordinator.disconnect (owner m).steamId m).effects
    cases hcurrent : w.coordinator.isCurrent (owner m).steamId m with
    | false =>
      rw [Coordinator.disconnect_of_not_current hcurrent] at hout
      exact absurd he hout
    | true =>
      rw [Coordinator.disconnect_of_current hcurrent] at hout ⊢
      obtain ⟨d, hd, hplayer, rfl⟩ := Coordinator.isCurrent_iff.1 hcurrent
      have hsame : e.steamId = (owner d.connection).steamId := by
        by_contra hne
        exact hout (Coordinator.mem_clients_remove.2 ⟨he, hne⟩)
      rw [Coordinator.session_unique he hd (hsame.trans hplayer.symm)]
      exact List.mem_append_right _ (List.mem_singleton.2 rfl)
  | evict now lastSeen =>
    have hidle : ∃ d ∈ w.coordinator.idle now lastSeen, e.steamId = d.steamId := by
      by_contra hnone
      exact hout (Coordinator.mem_clients_removeEach.2 ⟨he, fun d hd hed => hnone ⟨d, hd, hed⟩⟩)
    obtain ⟨d, hd, hed⟩ := hidle
    have hmem : d ∈ w.coordinator.clients := (List.mem_filter.1 hd).1
    rw [Coordinator.session_unique he hmem hed]
    exact List.mem_append_left _ (List.mem_map.2 ⟨d, hd, rfl⟩)
  | updateChatStatus p status reason =>
    exact absurd (Coordinator.serves_updateChatStatus ⟨e, he, rfl⟩ p status reason) hgone
  | introduce m status => exact absurd he hout
  | _ =>
    rw [(sessions_outcome owner w rfl).1] at hout
    exact absurd he hout

/-! ## every run -/

/-- the connection that an action registers for a player -/
def entrant? (owner : Nat → Profile) (p : SteamId) : Action → Option Nat
  | .connect n _ => if (owner n).steamId = p then some n else none
  | _ => none

/-- the connection of a player that was registered last -/
def lastEntrant (owner : Nat → Profile) (p : SteamId) (as : List Action) : Option Nat :=
  (as.filterMap (entrant? owner p)).getLast?

theorem lastEntrant_concat (owner : Nat → Profile) (p : SteamId) (as : List Action) (a : Action) :
    lastEntrant owner p (as ++ [a]) = (entrant? owner p a).or (lastEntrant owner p as) := by
  unfold lastEntrant
  rw [List.filterMap_append]
  cases ha : entrant? owner p a with
  | none => simp [ha]
  | some n => simp [ha]

/-- Who is registered is the last who came. -/
theorem lastEntrant_run (config : Config) (owner : Nat → Profile) (as : List Action) :
    ∀ e ∈ ((start config).run owner as).coordinator.clients,
      lastEntrant owner e.steamId as = some e.connection := by
  induction as using List.reverseRecOn with
  | nil => exact fun e he => absurd he (Ascending.not_mem_empty e)
  | append_singleton as a ih =>
    intro e hmem
    rw [run_append] at hmem
    rw [lastEntrant_concat]
    cases origin_of_mem hmem with
    | stays a he hconnect hstatus =>
      have hnone : entrant? owner e.steamId a = none := by
        cases a with
        | connect n status => exact if_neg (Ne.symm (hconnect n status rfl))
        | _ => rfl
      rw [hnone]
      exact ih e he
    | comes n status he =>
      subst he
      have hsome : entrant? owner (owner n).steamId (.connect n status) = some n := if_pos rfl
      show (entrant? owner (owner n).steamId _).or _ = _
      rw [hsome]
      rfl
    | changes d hd status reason he =>
      subst he
      exact ih d hd

/-- since it was last registered, a connection was closed -/
def Dismissed (owner : Nat → Profile) (w : World) (as : List Action) (n : Nat) : Prop :=
  ∃ before a after, as = before ++ a :: after ∧
    .close n ∈ ((w.run owner before).outcome owner a).effects ∧
    ∀ b ∈ a :: after, b.connects n = false

theorem Dismissed.concat {as : List Action} (h : Dismissed owner w as n)
    (ha : a.connects n = false) : Dismissed owner w (as ++ [a]) n := by
  obtain ⟨before, b, after, rfl, hclose, hafter⟩ := h
  refine ⟨before, b, after ++ [a], ?_, hclose, ?_⟩
  · rw [List.append_assoc, List.cons_append]
  · rw [← List.cons_append, List.forall_mem_append]
    exact ⟨hafter, List.forall_mem_singleton.2 ha⟩

theorem serves_of_connects (ha : a.connects n = true) : (w.outcome owner a).state.Serves n := by
  cases a with
  | connect m status =>
    rw [Action.connects, beq_iff_eq] at ha
    exact ⟨⟨m, owner m, status⟩, Ascending.mem_insert.2 (.inl rfl), ha⟩
  | _ => cases ha

/-- Who was registered and is not any more was closed. -/
theorem dismissed_run (config : Config) (owner : Nat → Profile) (as : List Action) (n : Nat)
    (hcame : ∃ a ∈ as, a.connects n = true)
    (hgone : ¬ ((start config).run owner as).coordinator.Serves n) :
    Dismissed owner (start config) as n := by
  induction as using List.reverseRecOn with
  | nil =>
    obtain ⟨a, ha, -⟩ := hcame
    cases ha
  | append_singleton as a ih =>
    rw [run_append] at hgone
    change ¬ (((start config).run owner as).outcome owner a).state.Serves n at hgone
    have ha : a.connects n = false := Bool.eq_false_iff.2 fun h => hgone (serves_of_connects h)
    by_cases hserves : ((start config).run owner as).coordinator.Serves n
    · -- this is the action that takes it out
      exact ⟨as, a, [], rfl, close_of_gone hserves hgone, List.forall_mem_singleton.2 ha⟩
    · refine (ih ?_ hserves).concat ha
      obtain ⟨b, hb, hconnects⟩ := hcame
      rcases List.mem_append.1 hb with hb | hb
      · exact ⟨b, hb, hconnects⟩
      · rw [List.mem_singleton.1 hb, ha] at hconnects
        cases hconnects

/-- To ask that a session which is not registered be taken out changes nothing. -/
theorem outcome_disconnect_of_not_serves (owner : Nat → Profile) (h : ¬ w.coordinator.Serves n) :
    w.outcome owner (.disconnect n) = ⟨w.coordinator, [.close n]⟩ := by
  refine Coordinator.disconnect_of_not_current (Bool.eq_false_iff.2 fun hcurrent => h ?_)
  obtain ⟨e, he, -, hn⟩ := Coordinator.isCurrent_iff.1 hcurrent
  exact ⟨e, he, hn⟩

/-- **A player has one live session.**  At most one session of a player is registered, over the
connection that came last; every connection that was registered and is not any more has been closed
since; and to take out a session that is not registered leaves everything as it is, and tells nobody
anything. -/
theorem one_live_session (config : Config) (owner : Nat → Profile) (as : List Action) :
    let w := (start config).run owner as
    let c := w.coordinator
    (∀ d ∈ c.clients, ∀ e ∈ c.clients, d.steamId = e.steamId → d = e) ∧
      (∀ e ∈ c.clients, lastEntrant owner e.steamId as = some e.connection) ∧
      (∀ n, (∃ a ∈ as, a.connects n = true) → ¬ c.Serves n →
        Dismissed owner (start config) as n) ∧
      ∀ n, ¬ c.Serves n → w.next owner (.disconnect n) = w ∧
        ∀ m, sent owner m (start config) [] (as ++ [.disconnect n]) =
          sent owner m (start config) [] as := by
  intro w c
  refine ⟨fun d hd e he => Coordinator.session_unique hd he, lastEntrant_run config owner as,
    dismissed_run config owner as, fun n hn => ?_⟩
  have hout : w.outcome owner (.disconnect n) = ⟨c, [.close n]⟩ :=
    outcome_disconnect_of_not_serves owner hn
  constructor
  · show World.mk (w.outcome owner (.disconnect n)).state w.passes = w
    rw [hout]
  · intro m
    rw [sent_concat]
    change sent owner m (start config) [] as ++
      Effect.responses m (w.outcome owner (.disconnect n)).effects = _
    rw [hout]
    exact List.append_nil _

end World

/-! ## a player who comes again

The session before is replaced, and its handler asks late for it to be taken out. -/

namespace Sample

def returning (_ : Nat) : Profile := .regular (.ofNat 0) ""

def replaced : List Action := [.connect 0 .readwrite, .connect 1 .readwrite, .disconnect 0]

end Sample

namespace World

theorem one_live_session_sample :
    Dismissed Sample.returning (start {}) Sample.replaced 0 ∧
      lastEntrant Sample.returning (.ofNat 0) Sample.replaced = some 1 := by
  have hclients : ((start {}).run Sample.returning Sample.replaced).coordinator.clients.toList =
      [⟨1, Sample.returning 1, .readwrite⟩] := by decide +kernel
  obtain ⟨-, hlast, hgone, -⟩ := one_live_session {} Sample.returning Sample.replaced
  refine ⟨hgone 0 ⟨_, List.mem_cons_self, rfl⟩ ?_, ?_⟩
  · rintro ⟨e, he, hzero⟩
    rw [Ascending.mem_def, hclients, List.mem_singleton] at he
    rw [he] at hzero
    cases hzero
  · refine hlast ⟨1, Sample.returning 1, .readwrite⟩ ?_
    rw [Ascending.mem_def, hclients]
    exact List.mem_singleton.2 rfl

end World

end Matchmaker
