import Mathlib.Logic.Function.Iterate
import Matchmaker.Proofs.Service.Authority

/-!
# Purging the newest messages of a player

A purge finds messages by their author among the recent ones, marks them in the store by their
number, drops them from the recent ones by their number, and tells everyone the numbers.  All of
that is about the same messages, since whatever is recent is stored and not deleted (`Kept`), and
the store has no two messages of one number.

What a purge takes are the newest messages of the player (`writtenBy`), and the next purge finds
those behind them (`filter_take_of_nodup`).  Each takes at least as many as it was asked for, as long
as there are any, so in the end none are left.  It may take more: if the history is filled again, it
has messages twice, and they go by their number.
-/

namespace Matchmaker

open Chat (Log History)

/-! ## what a player wrote -/

namespace Chat.History
variable {h g : History} {p : SteamId} {id : Int}

/-- the numbers of the messages of a player, the newest first -/
def writtenBy (h : History) (p : SteamId) : List Int :=
  ((h.entries.filter fun e => e.author == p).map ChatEntry.messageId).reverse

theorem map_findByAuthor (h : History) (p : SteamId) (n : Nat) :
    (h.findByAuthor p n).map ChatEntry.messageId = (h.writtenBy p).take n := by
  rw [findByAuthor, writtenBy, List.map_take, List.filter_reverse, List.map_reverse]

theorem mem_writtenBy :
    id ∈ h.writtenBy p ↔ ∃ e ∈ h.entries, e.author = p ∧ e.messageId = id := by
  unfold writtenBy
  simp only [List.mem_reverse, List.mem_map, List.mem_filter, beq_iff_eq, and_assoc]

theorem writtenBy_remove {ids : List Int}
    (hg : g.entries = h.entries.filter fun e => !ids.contains e.messageId) (p : SteamId) :
    g.writtenBy p = (h.writtenBy p).filter fun id => !ids.contains id := by
  unfold writtenBy
  rw [hg, List.filter_reverse, List.filter_map, List.filter_filter, List.filter_filter]
  simp only [Function.comp_apply, Bool.and_comm]

end Chat.History

section
variable {l : List Int}

/-- What is left of a list without its first elements comes after them. -/
theorem filter_take (l : List Int) (n : Nat) :
    (l.filter fun x => !(l.take n).contains x) =
      (l.drop n).filter fun x => !(l.take n).contains x := by
  have hnone : ((l.take n).filter fun x => !(l.take n).contains x) = [] := by
    refine List.filter_eq_nil_iff.2 fun x hx => ?_
    simpa using hx
  have hsplit := List.filter_append (l.take n) (l.drop n) (p := fun x => !(l.take n).contains x)
  rwa [List.take_append_drop, hnone, List.nil_append] at hsplit

theorem filter_take_of_nodup (h : l.Nodup) (n : Nat) :
    (l.filter fun x => !(l.take n).contains x) = l.drop n := by
  rw [filter_take]
  refine List.filter_eq_self.2 fun x hx => ?_
  have hdisjoint := List.disjoint_take_drop h (Nat.le_refl n)
  simpa using fun htake => hdisjoint htake hx

theorem length_filter_take_le (l : List Int) (n : Nat) :
    (l.filter fun x => !(l.take n).contains x).length ≤ l.length - n := by
  rw [filter_take, ← List.length_drop]
  exact List.length_filter_le _ _

end

namespace Coordinator

theorem effects_purge (c : Coordinator) (ids : List Int) : (c.purge ids).1.effects =
    if ids = [] then [] else
      c.clients.toList.map fun e => .deliver e.connection (.purge ids) := by
  cases ids with
  | nil => rfl
  | cons id ids => exact congrArg (List.map _) (List.filter_true _)

theorem state_purge (c : Coordinator) (ids : List Int) :
    (c.purge ids).1.state = { c with chat := (c.purge ids).1.state.chat } := by
  cases ids <;> rfl

end Coordinator

/-! ## every recent message is kept -/

/-- Every recent message is stored and not deleted. -/
structure Kept (log : Log) (h : History) : Prop where
  numbered : log.Numbered
  current : ∀ e ∈ h.entries, e ∈ log.current

namespace Service
variable {π : Type} {s t : InMemory π}

theorem kept_of_does {d : Deed} (h : Kept s.log s.coordinator.chat)
    (hnew : ∀ e, d = .post e → e.deleted = false) (hdoes : Does s d t) :
    Kept t.log t.coordinator.chat := by
  rw [hdoes.log, hdoes.coordinator]
  cases d with
  | nothing => exact h
  | post e =>
    refine ⟨h.numbered.save e, fun x hx => ?_⟩
    have hcurrent : (s.log.save e).2.current = s.log.current ++ [(s.log.save e).1] := by
      rw [Log.current_save, hnew e rfl]
      rfl
    rw [Deed.log, hcurrent]
    rcases List.mem_append.1 ((History.entries_push_suffix _ _).subset hx) with hx | hx
    · exact List.mem_append_left _ (h.current x hx)
    · exact List.mem_append_right _ hx
  | remove ids =>
    refine ⟨h.numbered.delete ids, fun x hx => ?_⟩
    change x ∈ (s.coordinator.purge ids).1.state.chat.entries at hx
    rw [Coordinator.entries_purge] at hx
    obtain ⟨hx, hkept⟩ := List.mem_filter.1 hx
    rw [Deed.log, Log.current_delete]
    exact List.mem_filter.2 ⟨h.current x hx, hkept⟩
  | setStatus p status reason =>
    refine ⟨h.numbered, fun x hx => h.current x ?_⟩
    change x ∈ (s.coordinator.updateChatStatus p status reason).1.state.chat.entries at hx
    rwa [Coordinator.chat_updateChatStatus] at hx
  | seed limit =>
    refine ⟨h.numbered, fun x hx => ?_⟩
    rcases List.mem_append.1 ((History.entries_pushAll_suffix _ _).subset hx) with hx | hx
    · exact h.current x hx
    · rw [Log.recent_eq_drop] at hx
      exact List.mem_of_mem_drop hx

/-! ## what is gone -/

/-- These messages of a player are gone, and nothing else has happened. -/
structure Purged (p : SteamId) (count : Nat) (s : InMemory π) (ids : List Int) (t : InMemory π) :
    Prop where
  /-- They are the newest recent ones, the newest first. -/
  newest : ids = (s.coordinator.chat.writtenBy p).take count
  length : ids.length = min count (s.coordinator.chat.writtenBy p).length
  history : t.coordinator.chat.entries =
    s.coordinator.chat.entries.filter fun e => !ids.contains e.messageId
  author : ∀ e ∈ s.coordinator.chat.entries, e.messageId ∈ ids → e.author = p
  store : t.log.entries = s.log.entries.map fun e =>
    if ids.contains e.messageId then { e with deleted := true } else e
  /-- Each of them was stored as a message of the player, and was not deleted before. -/
  stored : ∀ id ∈ ids, ∃ e, s.log.get? id = some e ∧ e.author = p ∧ e.deleted = false
  /-- Every registered client is told once, unless there were none. -/
  effects : t.effects = s.effects ++ if ids = [] then [] else
    s.coordinator.clients.toList.map fun e => .deliver e.connection (.purge ids)
  frame : t.coordinator = { s.coordinator with chat := t.coordinator.chat }

theorem purged_of_does {p : SteamId} {count : Nat} {ids : List Int}
    (h : Kept s.log s.coordinator.chat) (hids : ids = (s.coordinator.chat.writtenBy p).take count)
    (hdoes : Does s (.remove ids) t) : Purged p count s ids t := by
  have hcoordinator : t.coordinator = (s.coordinator.purge ids).1.state := hdoes.coordinator
  have hwritten : ∀ id ∈ ids, ∃ e ∈ s.coordinator.chat.entries, e.author = p ∧ e.messageId = id :=
    fun id hid => History.mem_writtenBy.1 (List.mem_of_mem_take (hids ▸ hid))
  refine ⟨hids, ?_, ?_, fun e he hid => ?_, ?_, fun id hid => ?_, ?_, ?_⟩
  · rw [hids, List.length_take]
  · rw [hcoordinator, Coordinator.entries_purge]
  · obtain ⟨d, hd, hauthor, hsame⟩ := hwritten _ hid
    have hstored (x : ChatEntry) (hx : x ∈ s.coordinator.chat.entries) :=
      (Log.current_subset (h.current x hx)).1
    rw [h.numbered.eq_of_messageId (hstored e he) (hstored d hd) hsame.symm, hauthor]
  · rw [hdoes.log]
    rfl
  · obtain ⟨e, he, hauthor, rfl⟩ := hwritten id hid
    obtain ⟨hstored, hlive⟩ := Log.current_subset (h.current e he)
    exact ⟨e, h.numbered.get?_of_mem hstored, hauthor, hlive⟩
  · rw [hdoes.effects]
    show s.effects ++ (s.coordinator.purge ids).1.effects = _
    rw [Coordinator.effects_purge]
  · rw [hcoordinator]
    exact Coordinator.state_purge _ ids

/-! ## reachable services -/

variable [ProfileProvider π]

/-- what calls that do not come between one another make of a new service over stored messages; the
history may be filled at any time, and more than once -/
inductive Reached : InMemory π → Prop where
  | opened (config : Config) (writes : List Log.Write) (down : List Call) (profiles : π)
      (policy : Moderation.Policy) : Reached (.new config ⟨.written writes, down⟩ profiles policy)
  | next {s : InMemory π} (h : Reached s) (event : Event π) : Reached (s.next event)
  | seeded {s : InMemory π} (h : Reached s) : Reached (after seedHistory s)

theorem Reached.kept (h : Reached s) : Kept s.log s.coordinator.chat := by
  induction h with
  | opened config writes down profiles policy =>
    exact ⟨Log.numbered_written writes, fun e he => by cases he⟩
  | seeded _ ih =>
    obtain ⟨d, hd, hdoes⟩ := seedHistory_comes.does (fun _ _ hd => .inr hd) _
    refine kept_of_does ih (fun e he => ?_) hdoes
    rcases hd with rfl | ⟨limit, rfl⟩ <;> cases he
  | @next s _ event ih =>
    cases event with
    | request r =>
      obtain ⟨d, hd, hdoes⟩ := perform_does s r
      refine kept_of_does ih (fun e he => ?_) hdoes
      rcases hd with rfl | hd
      · cases he
      · rcases wants_cases hd with ⟨e', he', rfl⟩ | ⟨ids, rfl⟩ | ⟨p, status, reason, rfl⟩
        · cases he
          exact he'
        · cases he
        · cases he
    | outages down => exact ⟨ih.numbered, ih.current⟩
    | profiles change => exact ⟨ih.numbered, ih.current⟩
    | elsewhere change hchat =>
      refine ⟨ih.numbered, fun e he => ih.current e ?_⟩
      change e ∈ (change s.coordinator).chat.entries at he
      rwa [hchat] at he

/-! ## one call -/

/-- The policy lets the actor purge the player, as they are found, and finding them leaves the
profile service like this. -/
def Grants (s : InMemory π) (actor target : SteamId) (count : Nat) (y : π) : Prop :=
  ∃ a x f, ProfileProvider.profile s.profiles actor = .ok (a, x) ∧
    ProfileProvider.profile x target = .ok (f, y) ∧ f.steamId = target ∧
      s.policy a (.purge f count) = true

/-- a purge on behalf of this actor is authorized -/
structure Authorized (s : InMemory π) (actor target : SteamId) (count : Nat) : Prop where
  valid : actor.isValid = true
  grants : ∃ y, s.Grants actor target count y

variable {actor target : SteamId} {count : Nat}

theorem run_purgeAuthor (hup : s.store.down = []) (h : Authorized s actor target count) :
    ∃ t, (purgeAuthor actor target count).run s =
        (.ok ((s.coordinator.chat.writtenBy target).take count), t) ∧ t.store.down = [] ∧
      t.policy = s.policy ∧ s.Grants actor target count t.profiles := by
  obtain ⟨hvalid, y, a, x, f, hactor, htarget, hid, hallowed⟩ := h
  have hcaller : (caller actor).run s = (.ok a, { s with profiles := x }) :=
    caller_eq_ok.2 ⟨hvalid, x, hactor, rfl⟩
  have hlookup : (onProfiles (ProfileProvider.profile · target)).run { s with profiles := x } =
      (.ok f, { s with profiles := y }) := onProfiles_eq_ok.2 ⟨y, htarget, rfl⟩
  have hauthorize : (authorize a (.purge f count)).run { s with profiles := y } =
      (.ok (), { s with profiles := y }) := authorize_eq_ok.2 ⟨hallowed, rfl⟩
  have hdelete (ids : List Int) :
      (onStore (ChatStore.delete · ids)).run { s with profiles := y } =
        (.ok (), { s with
          profiles := y
          store := { s.store with service := s.log.delete ids } }) := by
    refine onStore_eq_ok.2 ⟨_, ?_, rfl⟩
    show s.store.call .delete _ = _
    rw [WithOutages.call, if_neg (by rw [hup]; exact List.not_mem_nil)]
    rfl
  rw [purgeAuthor, run_bind, hcaller]
  dsimp only
  rw [run_bind, hlookup]
  dsimp only
  rw [run_bind, hauthorize]
  dsimp only
  rw [run_bind, run_get]
  dsimp only
  rw [hid, History.map_findByAuthor]
  split
  · exact ⟨_, rfl, hup, rfl, a, x, f, hactor, htarget, hid, hallowed⟩
  · rw [run_bind, hdelete]
    exact ⟨_, rfl, hup, rfl, a, x, f, hactor, htarget, hid, hallowed⟩

/-- A purge by a message is a purge of whoever wrote it. -/
theorem run_purge (hup : s.store.down = []) {anchor : Int}
    (h : s.log.author? anchor = some target) :
    (purge actor anchor count).run s = (purgeAuthor actor target count).run s := by
  obtain ⟨e, he, rfl⟩ := Option.map_eq_some_iff.1 h
  have hread : (onStore (ChatStore.message · anchor)).run s = (.ok e, s) := by
    refine onStore_eq_ok.2 ⟨s.store, ?_, rfl⟩
    show s.store.call .message _ = _
    rw [WithOutages.call, if_neg (by rw [hup]; exact List.not_mem_nil)]
    dsimp only [ChatStore.message]
    rw [show s.store.service.get? anchor = some e from he]
    rfl
  rw [purge, run_bind, hread]

theorem purgeAuthor_purged (hs : Reached s) (hup : s.store.down = [])
    (h : Authorized s actor target count) :
    ∃ ids t, (purgeAuthor actor target count).run s = (.ok ids, t) ∧
      Purged target count s ids t ∧ t.store.down = [] := by
  obtain ⟨t, hrun, hdown, -⟩ := run_purgeAuthor hup h
  have hcomes := purgeAuthor_comes actor target count s
  rw [hrun] at hcomes
  obtain ⟨d, rfl, hdoes⟩ := hcomes
  exact ⟨_, t, hrun, purged_of_does hs.kept rfl (does_remove_of_removal hdoes), hdown⟩

/-! ## the same call again and again -/

/-- after `n` calls with the same arguments -/
def purges (actor target : SteamId) (count : Nat) (s : InMemory π) (n : Nat) : InMemory π :=
  (after (purgeAuthor actor target count))^[n] s

theorem purges_succ (n : Nat) : s.purges actor target count (n + 1) =
    after (purgeAuthor actor target count) (s.purges actor target count n) :=
  Function.iterate_succ_apply' _ n s

theorem Reached.purges (hs : Reached s) (n : Nat) : Reached (s.purges actor target count n) := by
  induction n with
  | zero => exact hs
  | succ n ih =>
    rw [purges_succ]
    exact ih.next (.request (.purgeAuthor actor target count))

theorem Reached.run (hs : Reached s) (events : List (Event π)) : Reached (s.run events) := by
  induction events generalizing s with
  | nil => exact hs
  | cons event events ih => exact ih (hs.next event)

section
variable (hs : Reached s) (hup : s.store.down = []) {n : Nat}
include hs hup

theorem down_purges
    (h : ∀ m < n, Authorized (s.purges actor target count m) actor target count) :
    (s.purges actor target count n).store.down = [] := by
  induction n with
  | zero => exact hup
  | succ n ih =>
    have hdown := ih fun m hm => h m (Nat.lt_succ_of_lt hm)
    obtain ⟨ids, t, hrun, -, ht⟩ :=
      purgeAuthor_purged (hs.purges n) hdown (h n (Nat.lt_succ_self n))
    rwa [purges_succ, after, hrun]

/-- Each call purges what the calls before it have left. -/
theorem purged_purges
    (h : ∀ m ≤ n, Authorized (s.purges actor target count m) actor target count) :
    ∃ ids, (purgeAuthor actor target count).run (s.purges actor target count n) =
        (.ok ids, s.purges actor target count (n + 1)) ∧
      Purged target count (s.purges actor target count n) ids
        (s.purges actor target count (n + 1)) := by
  have hdown := down_purges hs hup fun m hm => h m (Nat.le_of_lt hm)
  obtain ⟨ids, t, hrun, hpurged, -⟩ := purgeAuthor_purged (hs.purges n) hdown (h n (Nat.le_refl n))
  have ht : s.purges actor target count (n + 1) = t := by rw [purges_succ, after, hrun]
  exact ⟨ids, ht ▸ hrun, ht ▸ hpurged⟩

theorem writtenBy_purges_succ
    (h : ∀ m ≤ n, Authorized (s.purges actor target count m) actor target count) :
    (s.purges actor target count (n + 1)).coordinator.chat.writtenBy target =
      ((s.purges actor target count n).coordinator.chat.writtenBy target).filter fun id =>
        !(((s.purges actor target count n).coordinator.chat.writtenBy target).take count).contains
          id := by
  obtain ⟨ids, -, hpurged⟩ := purged_purges hs hup h
  rw [History.writtenBy_remove hpurged.history, hpurged.newest]

theorem writtenBy_purges (hnodup : (s.coordinator.chat.writtenBy target).Nodup)
    (h : ∀ m < n, Authorized (s.purges actor target count m) actor target count) :
    (s.purges actor target count n).coordinator.chat.writtenBy target =
      (s.coordinator.chat.writtenBy target).drop (n * count) := by
  induction n with
  | zero => rw [Nat.zero_mul, List.drop_zero]; rfl
  | succ n ih =>
    have hn := ih fun m hm => h m (Nat.lt_succ_of_lt hm)
    rw [writtenBy_purges_succ hs hup fun m hm => h m (Nat.lt_succ_of_le hm), hn,
      filter_take_of_nodup (hnodup.sublist (List.drop_sublist _ _)), List.drop_drop, Nat.succ_mul]

theorem length_writtenBy_purges_le
    (h : ∀ m < n, Authorized (s.purges actor target count m) actor target count) :
    ((s.purges actor target count n).coordinator.chat.writtenBy target).length ≤
      (s.coordinator.chat.writtenBy target).length - n * count := by
  induction n with
  | zero => rw [Nat.zero_mul]; exact Nat.le_refl _
  | succ n ih =>
    have hn := ih fun m hm => h m (Nat.lt_succ_of_lt hm)
    have hstep := length_filter_take_le
      ((s.purges actor target count n).coordinator.chat.writtenBy target) count
    rw [writtenBy_purges_succ hs hup fun m hm => h m (Nat.lt_succ_of_le hm), Nat.succ_mul]
    omega

end

/-! ## what stays as it is -/

/-- The recent chat that has been filled once has no message twice. -/
theorem nodup_writtenBy {capacity : Nat} {log : Log} {h : History} (ha : Agrees capacity log h)
    (p : SteamId) : (h.writtenBy p).Nodup := by
  have hascending := (ha.numbered.ascending.filter fun e => !e.deleted).sublist ha.suffix.sublist
  have hids := (hascending.filter fun e => e.author == p).map ChatEntry.messageId fun _ _ hlt => hlt
  exact List.nodup_reverse.2 (hids.imp fun hlt => Int.ne_of_lt hlt)

/-- A profile service finds the same profile of a player, whoever was looked up before. -/
def Steady (π : Type) [ProfileProvider π] : Prop :=
  ∀ (x y z : π) (p q : SteamId) (f g : Profile), ProfileProvider.profile x p = .ok (f, y) →
    ProfileProvider.profile x q = .ok (g, z) → ∃ z', ProfileProvider.profile y q = .ok (g, z')

theorem steady_profileTable : Steady ProfileTable := by
  intro x y z p q f g hp hq
  have hy : (x.profile p).2 = y := congrArg Prod.snd (Except.ok.inj hp)
  have hg : (x.profile q).1 = g := congrArg Prod.fst (Except.ok.inj hq)
  refine ⟨(y.profile q).2, congrArg Except.ok (Prod.ext ?_ rfl)⟩
  show (y.profile q).1 = g
  rw [← hy, ← hg]
  exact ProfileTable.profile_profile x p q

theorem Authorized.again (hsteady : Steady π) (hup : s.store.down = [])
    (h : Authorized s actor target count) :
    Authorized (after (purgeAuthor actor target count) s) actor target count := by
  obtain ⟨t, hrun, -, hpolicy, a, x, f, hactor, htarget, hid, hallowed⟩ := run_purgeAuthor hup h
  -- the actor is found again after both lookups, and so is the target after one more
  obtain ⟨y, hy⟩ := hsteady _ _ _ _ _ _ _ hactor hactor
  obtain ⟨z, hz⟩ := hsteady _ _ _ _ _ _ _ htarget hy
  obtain ⟨u, hu⟩ := hsteady _ _ _ _ _ _ _ htarget htarget
  obtain ⟨v, hv⟩ := hsteady _ _ _ _ _ _ _ hz hu
  rw [after, hrun]
  exact ⟨h.valid, v, a, z, f, hz, hv, hid, hpolicy ▸ hallowed⟩

theorem Authorized.purges (hsteady : Steady π) (hs : Reached s) (hup : s.store.down = [])
    (h : Authorized s actor target count) (n : Nat) :
    Authorized (s.purges actor target count n) actor target count := by
  induction n using Nat.strongRecOn with
  | _ n ih =>
    cases n with
    | zero => exact h
    | succ n =>
      rw [purges_succ]
      refine (ih n (Nat.lt_succ_self n)).again hsteady (down_purges hs hup fun m hm => ?_)
      exact ih m (Nat.lt_succ_of_lt hm)

/-! ## a series of purges -/

/-- **A purge takes the newest messages of a player.**  Over any service that calls have reached,
authorized purges with the same arguments follow one another.  Each of them succeeds, whether the
player is named or a message of the player is, and purges the newest messages among those that the
purges before it have left: they are gone from the recent ones, they and no others are marked in the
store, and everyone is told their numbers once.  If no message is among the recent ones twice, then
the purges take one stretch of the messages after the other; and when they have taken as many as
there were, none is left. -/
theorem purge_takes_newest (hs : Reached s) (hup : s.store.down = []) (actor target : SteamId)
    (count n : Nat)
    (hauth : ∀ m ≤ n, Authorized (s.purges actor target count m) actor target count) :
    let u := s.purges actor target count n
    let t := s.purges actor target count (n + 1)
    ∃ ids, (purgeAuthor actor target count).run u = (.ok ids, t) ∧
      (∀ anchor, u.log.author? anchor = some target →
        (purge actor anchor count).run u = (.ok ids, t)) ∧
      Purged target count u ids t ∧
      ((s.coordinator.chat.writtenBy target).Nodup →
        ids = ((s.coordinator.chat.writtenBy target).drop (n * count)).take count) ∧
      ((s.coordinator.chat.writtenBy target).length ≤ (n + 1) * count →
        ∀ e ∈ t.coordinator.chat.entries, e.author ≠ target) := by
  intro u t
  have hbefore : ∀ m < n, Authorized (s.purges actor target count m) actor target count :=
    fun m hm => hauth m (Nat.le_of_lt hm)
  obtain ⟨ids, hrun, hpurged⟩ := purged_purges hs hup hauth
  refine ⟨ids, hrun, fun anchor hanchor => ?_, hpurged, fun hnodup => ?_,
    fun hall e he heq => ?_⟩
  · rw [run_purge (down_purges hs hup hbefore) hanchor]
    exact hrun
  · rw [hpurged.newest, writtenBy_purges hs hup hnodup hbefore]
  · have hlength : (t.coordinator.chat.writtenBy target).length ≤
        (s.coordinator.chat.writtenBy target).length - (n + 1) * count :=
      length_writtenBy_purges_le hs hup fun m hm => hauth m (Nat.le_of_lt_succ hm)
    have hnone : t.coordinator.chat.writtenBy target = [] :=
      List.length_eq_zero_iff.1 (by omega)
    have hmem := History.mem_writtenBy.2 ⟨e, he, heq, rfl⟩
    rw [hnone] at hmem
    cases hmem

end Service

/-! ## a sample -/

namespace Sample

def said (date : Timestamp) (p : Profile) (body : String) : Log.Write :=
  .save (Service.draft ⟨0, p, .readwrite⟩ date body)

/-- a moderator speaks once among three messages of a guest, who is connected -/
def chatty (date : Timestamp) : Service.InMemory ProfileTable :=
  (Service.started {} ⟨.written [said date (guest 0) "a", said date moderator "b",
    said date (guest 0) "c", said date (guest 0) "d"], []⟩ staff Moderation.byLevel).run
      [.elsewhere (fun c => (c.connect ⟨0, guest 0, .readwrite⟩).state) fun _ => rfl]

end Sample

namespace Service

/-- The second purge takes what the first has left. -/
theorem purge_takes_newest_sample :
    let actor := Sample.moderator.steamId
    let target := (Sample.guest 0).steamId
    let s := Sample.chatty { day := 0, second := 0, nano := 0 }
    let t := s.purges actor target 2 2
    (purgeAuthor actor target 2).run (s.purges actor target 2 1) = (.ok [1], t) ∧
      (∀ e ∈ t.coordinator.chat.entries, e.author ≠ target) ∧
      t.effects.length = 2 := by
  intro actor target s t
  have hs : Reached s := (Reached.seeded (.opened _ _ _ _ _)).run _
  have hauth : Authorized s actor target 2 :=
    ⟨by decide, _, _, _, _, rfl, rfl, by decide +kernel, by decide +kernel⟩
  obtain ⟨ids, hrun, -, hpurged, hids, hnone⟩ := purge_takes_newest hs rfl actor target 2 1
    fun m _ => hauth.purges steady_profileTable hs rfl m
  have hnodup : (s.coordinator.chat.writtenBy target).Nodup :=
    nodup_writtenBy (agrees_run (agrees_started _ (Log.numbered_written _) _ _) _) target
  have hfirst : ids = [1] := (hids hnodup).trans (by decide +kernel)
  rw [hfirst] at hrun
  exact ⟨hrun, hnone (by decide +kernel), by decide +kernel⟩

end Service

end Matchmaker
