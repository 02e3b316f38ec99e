import Mathlib.Data.List.Nodup
import Matchmaker.Proofs.Registry.Repetition

/-!
# Queues by their history

Who waits where can be told from what has been done to a registry since it was empty.  A player
waits for a server if and only if the player has joined it while it was known and nothing since then
has taken the player out (`Edit.Drops`): not leaving it, not leaving everything, and no feed without
the server.  So a server that goes and comes back starts with an empty queue.

One edit is taken apart in `queued_apply`, which also says that nobody else is touched, and the rest
is an induction on the history from its end.
-/

namespace Matchmaker

/-- something in a history has started it, given all before, and nothing since then has ended it -/
def Since {α : Type} (starts : List α → α → Prop) (ends : α → Prop) (as : List α) : Prop :=
  ∃ before a after, as = before ++ a :: after ∧ starts before a ∧ ∀ b ∈ after, ¬ ends b

section
variable {α : Type} {starts : List α → α → Prop} {ends : α → Prop}

theorem not_since_nil : ¬ Since starts ends [] := by
  rintro ⟨before, a, after, hsplit, -⟩
  exact absurd hsplit.symm (List.append_ne_nil_of_right_ne_nil _ (List.cons_ne_nil a after))

theorem since_concat {as : List α} {a : α} :
    Since starts ends (as ++ [a]) ↔ starts as a ∨ Since starts ends as ∧ ¬ ends a := by
  constructor
  · rintro ⟨before, b, after, hsplit, hstarts, hafter⟩
    rcases List.eq_nil_or_concat after with rfl | ⟨after, c, rfl⟩
    · -- what has started it is the last
      obtain ⟨rfl, hlast⟩ := List.append_inj' hsplit rfl
      cases hlast
      exact .inl hstarts
    · rw [List.concat_eq_append] at hsplit hafter
      rw [← List.cons_append, ← List.append_assoc] at hsplit
      obtain ⟨rfl, hlast⟩ := List.append_inj' hsplit rfl
      cases hlast
      refine .inr ⟨⟨before, b, after, rfl, hstarts, fun d hd => ?_⟩, ?_⟩
      · exact hafter d (List.mem_append_left _ hd)
      · exact hafter a List.mem_concat_self
  · rintro (hstarts | ⟨⟨before, b, after, rfl, hstarts, hafter⟩, hends⟩)
    · exact ⟨as, a, [], rfl, hstarts, fun d hd => absurd hd List.not_mem_nil⟩
    · refine ⟨before, b, after ++ [a], List.append_assoc .., hstarts, fun d hd => ?_⟩
      rcases List.mem_append.1 hd with hd | hd
      · exact hafter d hd
      · rwa [List.mem_singleton.1 hd]

end

namespace Registry

/-- what can be done to a registry -/
inductive Edit where
  | join (p : SteamId) (servers : List ServerId)
  | leave (p : SteamId) (servers : List ServerId)
  | leaveAll (p : SteamId)
  | reconcile (feed : List LobbyInfo)

namespace Edit

def apply (r : Registry) : Edit → Registry
  | join p servers => (r.join p servers).1
  | leave p servers => (r.leave p servers).1
  | leaveAll p => (r.leaveAll p).1
  | reconcile feed => (r.reconcile feed).1

/-- names no server twice, if it is a look at the feed -/
def Distinct : Edit → Prop
  | reconcile feed => (feed.map LobbyInfo.serverId).Nodup
  | _ => True

def IsReport : Edit → Prop
  | reconcile _ => True
  | _ => False

/-- is a look at a feed with this server -/
def Reports (s : ServerId) : Edit → Prop
  | reconcile feed => s ∈ feed.map LobbyInfo.serverId
  | _ => False

/-- joins this server, among others -/
def Joins (p : SteamId) (s : ServerId) : Edit → Prop
  | join q servers => q = p ∧ s ∈ servers
  | _ => False

/-- takes the player out of the queue of this server, if in it -/
def Drops (p : SteamId) (s : ServerId) : Edit → Prop
  | join _ _ => False
  | leave q servers => q = p ∧ s ∈ servers
  | leaveAll q => q = p
  | reconcile feed => s ∉ feed.map LobbyInfo.serverId

end Edit

/-- a registry after these edits, the first of them first -/
def run (r : Registry) (es : List Edit) : Registry := es.foldl Edit.apply r

theorem run_concat (r : Registry) (es : List Edit) (e : Edit) :
    r.run (es ++ [e]) = e.apply (r.run es) := List.foldl_append

/-! ## one edit -/

theorem knows_of_queued {r : Registry} {p : SteamId} {s : ServerId} (h : r.Queued p s) :
    r.Knows s := h.imp fun _ hl => hl.1

/-- A feed that names no server twice keeps the queues of the servers that are in it. -/
theorem queued_reconcile {r : Registry} {feed : List LobbyInfo}
    (h : (feed.map LobbyInfo.serverId).Nodup) {p : SteamId} {s : ServerId} :
    (r.reconcile feed).1.Queued p s ↔ r.Queued p s ∧ s ∈ feed.map LobbyInfo.serverId := by
  constructor
  · exact fun hq => ⟨queued_of_queued_reconcile hq, knows_reconcile.1 (knows_of_queued hq)⟩
  · rintro ⟨⟨l, hl, hp⟩, hmem⟩
    obtain ⟨hmemLobbies, rfl⟩ := get?_eq_some_iff.1 hl
    have hone : (recordsOf feed l.serverId).length = 1 := by
      rw [length_recordsOf]
      exact List.count_eq_one_of_mem h hmem
    obtain ⟨m, hm, hmembers⟩ := members_reconcile hmemLobbies hone
    exact ⟨m, hm, hmembers ▸ hp⟩

theorem knows_iff_record? {r : Registry} {s : ServerId} :
    r.Knows s ↔ (r.record? s).isSome = true := by
  rw [knows_iff_isSome, record?, Option.isSome_map]

/-- Which servers are known is up to the feed alone. -/
theorem knows_apply {r : Registry} {e : Edit} {s : ServerId} :
    (e.apply r).Knows s ↔ e.Reports s ∨ r.Knows s ∧ ¬ e.IsReport := by
  cases e with
  | reconcile feed =>
    show (r.reconcile feed).1.Knows s ↔ s ∈ feed.map LobbyInfo.serverId ∨ _ ∧ ¬ True
    rw [knows_reconcile]
    tauto
  | join p servers =>
    simp [Edit.apply, Edit.Reports, Edit.IsReport, knows_iff_record?, record?_join]
  | leave p servers =>
    simp [Edit.apply, Edit.Reports, Edit.IsReport, knows_iff_record?, record?_leave]
  | leaveAll p =>
    simp [Edit.apply, Edit.Reports, Edit.IsReport, knows_iff_record?, record?_leaveAll]

/-- **What one edit does to the queues.** -/
theorem queued_apply {r : Registry} {e : Edit} (h : e.Distinct) {p : SteamId} {s : ServerId} :
    (e.apply r).Queued p s ↔ e.Joins p s ∧ r.Knows s ∨ r.Queued p s ∧ ¬ e.Drops p s := by
  cases e with
  | join q servers =>
    show (r.join q servers).1.Queued p s ↔ (q = p ∧ s ∈ servers) ∧ _ ∨ _ ∧ ¬ False
    rw [queued_join, eq_comm (a := p)]
    tauto
  | leave q servers =>
    show (r.leave q servers).1.Queued p s ↔ False ∧ _ ∨ _ ∧ ¬ (q = p ∧ s ∈ servers)
    rw [queued_leave, eq_comm (a := p)]
    tauto
  | leaveAll q =>
    show (r.leaveAll q).1.Queued p s ↔ False ∧ _ ∨ _ ∧ ¬ q = p
    rw [queued_leaveAll, ne_comm]
    tauto
  | reconcile feed =>
    show (r.reconcile feed).1.Queued p s ↔ False ∧ _ ∨ _ ∧ ¬ s ∉ _
    rw [queued_reconcile h, not_not]
    tauto

/-! ## a whole history -/

/-- the player has joined the server when it was known, and has not been taken out since -/
def Joined (r : Registry) (es : List Edit) (p : SteamId) (s : ServerId) : Prop :=
  Since (fun before e => e.Joins p s ∧ (r.run before).Knows s) (Edit.Drops p s) es

theorem joined_iff {r : Registry} {es : List Edit} {p : SteamId} {s : ServerId} :
    r.Joined es p s ↔ ∃ before servers after, es = before ++ .join p servers :: after ∧
      s ∈ servers ∧ (r.run before).Knows s ∧ ∀ e ∈ after, ¬ e.Drops p s := by
  constructor
  · rintro ⟨before, e, after, hsplit, ⟨hjoins, hknown⟩, hafter⟩
    cases e with
    | join q servers =>
      obtain ⟨rfl, hs⟩ := hjoins
      exact ⟨before, servers, after, hsplit, hs, hknown, hafter⟩
    | _ => exact hjoins.elim
  · rintro ⟨before, servers, after, hsplit, hs, hknown, hafter⟩
    exact ⟨before, _, after, hsplit, ⟨⟨rfl, hs⟩, hknown⟩, hafter⟩

theorem queued_run {es : List Edit} (h : ∀ e ∈ es, e.Distinct) {p : SteamId} {s : ServerId} :
    (empty.run es).Queued p s ↔ empty.Joined es p s := by
  induction es using List.reverseRecOn with
  | nil => exact iff_of_false (not_queued_empty p s) not_since_nil
  | append_singleton es e ih =>
    rw [run_concat, queued_apply (h e List.mem_concat_self),
      ih fun d hd => h d (List.mem_append_left _ hd), Joined, Joined, since_concat]

/-- A server is known if and only if the last feed has it. -/
theorem knows_run {es : List Edit} {s : ServerId} :
    (empty.run es).Knows s ↔ Since (fun _ e => e.Reports s) Edit.IsReport es := by
  induction es using List.reverseRecOn with
  | nil =>
    refine iff_of_false ?_ not_since_nil
    rintro ⟨l, hl⟩
    cases hl
  | append_singleton es e ih => rw [run_concat, knows_apply, ih, since_concat]

/-! ## what is shown -/

theorem states_ascending (r : Registry) :
    r.states.Pairwise fun a b => a.serverId.toNat < b.serverId.toNat := r.shown.sorted

theorem mem_states_iff {r : Registry} {x : Protocol.LobbyState} :
    x ∈ r.states ↔ ∃ l, r.get? x.serverId = some l ∧ x = l.state := by
  constructor
  · intro hx
    obtain ⟨l, hl, rfl⟩ := List.mem_map.1 hx
    exact ⟨l, get?_of_mem hl, rfl⟩
  · rintro ⟨l, hl, rfl⟩
    exact List.mem_map.2 ⟨l, (get?_eq_some_iff.1 hl).1, rfl⟩

theorem mem_serverIds_states {r : Registry} {s : ServerId} :
    s ∈ r.states.map Protocol.LobbyState.serverId ↔ r.Knows s := by
  rw [List.mem_map]
  constructor
  · rintro ⟨x, hx, rfl⟩
    exact (mem_states_iff.1 hx).imp fun _ hl => hl.1
  · rintro ⟨l, hl⟩
    obtain ⟨hmem, hid⟩ := get?_eq_some_iff.1 hl
    exact ⟨l.state, mem_states_iff.2 ⟨l, get?_of_mem hmem, rfl⟩, hid⟩

/-- What is shown of a lobby are the players who wait there, in order. -/
theorem members_of_mem_states {r : Registry} {x : Protocol.LobbyState} (hx : x ∈ r.states) :
    x.members.Pairwise (fun p q => p.toNat < q.toNat) ∧
      ∀ p, p ∈ x.members ↔ r.Queued p x.serverId := by
  obtain ⟨l, hl, hstate⟩ := mem_states_iff.1 hx
  have hmembers : x.members = l.members.toList := congrArg Protocol.LobbyState.members hstate
  rw [hmembers]
  refine ⟨l.members.sorted, fun p => ⟨fun hp => ⟨l, hl, hp⟩, ?_⟩⟩
  rintro ⟨m, hm, hp⟩
  rw [hl] at hm
  cases hm
  exact hp

/-- **Queues can be told from their history.**  Whoever waits for a server has joined it while it
was known and was not taken out since; the servers known are those of the last feed; and what is
shown are these servers and players, each once and in order. -/
theorem queued_iff_joined (es : List Edit) (h : ∀ e ∈ es, e.Distinct) :
    let r := empty.run es
    (∀ p s, r.Queued p s ↔ ∃ before servers after, es = before ++ .join p servers :: after ∧
      s ∈ servers ∧ (empty.run before).Knows s ∧ ∀ e ∈ after, ¬ e.Drops p s) ∧
    (∀ s, r.Knows s ↔ ∃ before e after, es = before ++ e :: after ∧ e.Reports s ∧
      ∀ d ∈ after, ¬ d.IsReport) ∧
    r.states.Pairwise (fun a b => a.serverId.toNat < b.serverId.toNat) ∧
    (∀ s, s ∈ r.states.map Protocol.LobbyState.serverId ↔ r.Knows s) ∧
    ∀ x ∈ r.states, x.members.Pairwise (fun p q => p.toNat < q.toNat) ∧
      ∀ p, p ∈ x.members ↔ r.Queued p x.serverId :=
  ⟨fun _ _ => (queued_run h).trans joined_iff, fun _ => knows_run, states_ascending _,
    fun _ => mem_serverIds_states, fun _ => members_of_mem_states⟩

/-! ## a server that comes back -/

namespace Sample

/-- a server that a player has joined goes and comes back, and is joined by another player -/
def returned : List Edit :=
  [.reconcile [record], .join (.ofNat 1) [⟨1⟩, ⟨9⟩, ⟨1⟩], .reconcile [], .reconcile [record],
    .join (.ofNat 2) [⟨1⟩], .leave (.ofNat 1) [⟨1⟩]]

end Sample

theorem queued_iff_joined_sample :
    (∀ e ∈ Sample.returned, e.Distinct) ∧
      (empty.run Sample.returned).Queued (.ofNat 2) ⟨1⟩ ∧
      ¬ (empty.run Sample.returned).Queued (.ofNat 1) ⟨1⟩ := by
  have hdistinct : ∀ e ∈ Sample.returned, e.Distinct := by
    simp [Sample.returned, Edit.Distinct]
  obtain ⟨hqueued, -, -, -, hshown⟩ := queued_iff_joined Sample.returned hdistinct
  refine ⟨hdistinct, ?_, fun h => ?_⟩
  · refine (hqueued _ _).2 ⟨Sample.returned.take 4, [⟨1⟩], [.leave (.ofNat 1) [⟨1⟩]], rfl,
      List.mem_singleton_self _, ⟨.ofInfo Sample.record, by decide +kernel⟩, fun e he => ?_⟩
    rw [List.mem_singleton.1 he]
    exact fun hdrops => absurd hdrops.1 (by decide)
  · have hstate : (⟨⟨1⟩, [.ofNat 2]⟩ : Protocol.LobbyState) ∈
        (empty.run Sample.returned).states := by decide +kernel
    exact absurd (((hshown _ hstate).2 _).2 h) (by decide)

end Registry

end Matchmaker
