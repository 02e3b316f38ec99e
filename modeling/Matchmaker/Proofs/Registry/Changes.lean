import Matchmaker.Proofs.Registry.Adoption

/-!
# Whether queues have changed

Joining and leaving say whether they have changed anything, which decides whether anyone is told.
The flag is put together along a list that may name a server several times and servers that are not
known.  Still it is exact: a lobby that was changed once is not changed again, so the flag is set at
the first place that names a lobby with something to change, or not at all (`told_each`).

A change leaves the records alone, and a lobby with the same record and the same state is the same
lobby.  So registries that look alike before and after a change are equal (`eq_of_states`), and the
flag says at once whether the registry, its states or some queue has changed.
-/

namespace Matchmaker

namespace Lobby
variable {l m : Lobby} {p : SteamId}

theorem ext_members (hinfo : l.info = m.info) (hmem : ∀ q, q ∈ l.members ↔ q ∈ m.members) :
    l = m := by
  have hmembers : l.members = m.members := Ascending.ext_mem hmem
  cases l
  cases m
  cases hinfo
  cases hmembers
  rfl

theorem ext_state (hinfo : l.info = m.info) (hstate : l.state = m.state) : l = m := by
  have hmembers : l.members = m.members :=
    Ascending.ext (congrArg Protocol.LobbyState.members hstate)
  refine ext_members hinfo fun q => ?_
  rw [hmembers]

theorem join_eq_self_iff : l.join p = l ↔ p ∈ l.members := by
  constructor
  · intro h
    rw [← h]
    exact mem_join.2 (.inl rfl)
  · intro h
    refine ext_members rfl fun q => ?_
    rw [mem_join]
    constructor
    · rintro (rfl | hq)
      · exact h
      · exact hq
    · exact .inr

theorem leave_eq_self_iff : l.leave p = l ↔ ¬ p ∈ l.members := by
  constructor
  · intro h hp
    rw [← h] at hp
    exact (mem_leave.1 hp).2 rfl
  · intro h
    refine ext_members rfl fun q => ?_
    rw [mem_leave]
    constructor
    · exact And.left
    · intro hq
      exact ⟨hq, fun hsame => h (hsame ▸ hq)⟩

/-- Who was not in the queue joins it and leaves it again without a trace. -/
theorem leave_join (h : ¬ p ∈ l.members) : (l.join p).leave p = l := by
  refine ext_members rfl fun q => ?_
  rw [mem_leave, mem_join]
  constructor
  · rintro ⟨rfl | hq, hne⟩
    · exact absurd rfl hne
    · exact hq
  · intro hq
    exact ⟨.inr hq, fun hsame => h (hsame ▸ hq)⟩

end Lobby

namespace Registry
variable {r t : Registry} {p : SteamId} {servers : List ServerId}

/-! ## registries that look alike -/

theorem get?_shown_congr (h : t.states = r.states) (s : ServerId) :
    (t.get? s).map Lobby.state = (r.get? s).map Lobby.state := by
  have hshown : t.shown = r.shown := Ascending.ext h
  rw [← get?_shown, ← get?_shown, hshown]

/-- With the same records and the same states, registries are equal. -/
theorem eq_of_states (hrecord : t.record? = r.record?) (hstates : t.states = r.states) : t = r := by
  refine ext_get? fun s => ?_
  have hinfo : (t.get? s).map Lobby.info = (r.get? s).map Lobby.info := congrFun hrecord s
  have hstate := get?_shown_congr hstates s
  cases ht : t.get? s with
  | none =>
    rw [ht] at hinfo
    cases hr : r.get? s with
    | none => rfl
    | some m =>
      rw [hr] at hinfo
      cases hinfo
  | some l =>
    rw [ht] at hinfo hstate
    cases hr : r.get? s with
    | none =>
      rw [hr] at hinfo
      cases hinfo
    | some m =>
      rw [hr] at hinfo hstate
      rw [Lobby.ext_state (Option.some.inj hinfo) (Option.some.inj hstate)]

/-! ## one change to several lobbies -/

section
variable {f : Lobby → Lobby} {h : ∀ l, (f l).key = l.key} {told : Lobby → Bool}

theorem snd_each_singleton (x : Registry × Bool) (s : ServerId) :
    (each f h told x [s]).2 = (x.2 || (x.1.get? s).any told) := by
  obtain ⟨r, changed⟩ := x
  dsimp only [each, List.foldl_cons, List.foldl_nil]
  cases r.get? s with
  | some l => rfl
  | none => simp

/-- The flag says whether one of the named lobbies had something to change. -/
theorem told_each (hf : ∀ l, f (f l) = f l) (htold : ∀ l, told l = true ↔ f l ≠ l)
    (x : Registry × Bool) (servers : List ServerId) :
    (each f h told x servers).2 = true ↔
      x.2 = true ∨ ∃ s ∈ servers, ∃ l, x.1.get? s = some l ∧ f l ≠ l := by
  induction servers generalizing x with
  | nil => simp [each_nil]
  | cons s servers ih =>
    have hfirst : (x.1.get? s).any told = true ↔ ∃ l, x.1.get? s = some l ∧ f l ≠ l := by
      simp only [Option.any_eq_true, htold]
    -- a lobby that this server names again is settled, and the others are as they were
    have hlater : ∀ t l, (each f h told x [s]).1.get? t = some l ∧ f l ≠ l ↔
        t ≠ s ∧ x.1.get? t = some l ∧ f l ≠ l := by
      intro t l
      rw [get?_each_singleton]
      by_cases e : t = s
      · simp only [e, if_true, Option.map_eq_some_iff, ne_eq, not_true_eq_false, false_and,
          iff_false, not_and]
        rintro ⟨m, -, rfl⟩ hm
        exact hm (hf m)
      · simp [e]
    rw [each_cons, ih, snd_each_singleton, Bool.or_eq_true, hfirst, or_assoc]
    refine or_congr_right ?_
    simp only [hlater, List.mem_cons]
    constructor
    · rintro (⟨l, hl⟩ | ⟨t, ht, l, -, hl⟩)
      · exact ⟨s, .inl rfl, l, hl⟩
      · exact ⟨t, .inr ht, l, hl⟩
    · rintro ⟨t, rfl | ht, l, hl⟩
      · exact .inl ⟨l, hl⟩
      · by_cases e : t = s
        · exact .inl ⟨l, e ▸ hl⟩
        · exact .inr ⟨t, ht, l, e, hl⟩

theorem each_eq_self_iff (hf : ∀ l, f (f l) = f l) (x : Registry × Bool)
    (servers : List ServerId) :
    (each f h told x servers).1 = x.1 ↔ ∀ s ∈ servers, ∀ l, x.1.get? s = some l → f l = l := by
  constructor
  · intro hsame s hs l hl
    have hget := get?_each f h told hf x servers s
    rw [hsame, hl, Option.map_some, if_pos hs] at hget
    exact (Option.some.inj hget).symm
  · intro hall
    refine ext_get? fun s => ?_
    rw [get?_each f h told hf]
    cases hl : x.1.get? s with
    | none => rfl
    | some l =>
      rw [Option.map_some]
      by_cases hs : s ∈ servers
      · rw [if_pos hs, hall s hs l hl]
      · rw [if_neg hs]

/-- The flag says whether the registry is another one. -/
theorem told_each_iff_ne (hf : ∀ l, f (f l) = f l) (htold : ∀ l, told l = true ↔ f l ≠ l)
    (r : Registry) (servers : List ServerId) :
    (each f h told (r, false) servers).2 = true ↔ (each f h told (r, false) servers).1 ≠ r := by
  rw [told_each hf htold, ne_eq, each_eq_self_iff hf (r, false) servers]
  simp

/-- Only which of the known servers are named matters. -/
theorem each_congr (hf : ∀ l, f (f l) = f l) (htold : ∀ l, told l = true ↔ f l ≠ l)
    {servers others : List ServerId} (hsame : ∀ s, r.Knows s → (s ∈ others ↔ s ∈ servers)) :
    each f h told (r, false) others = each f h told (r, false) servers := by
  have hregistry : (each f h told (r, false) others).1 = (each f h told (r, false) servers).1 := by
    refine ext_get? fun s => ?_
    rw [get?_each f h told hf, get?_each f h told hf]
    cases hl : r.get? s with
    | none => rfl
    | some l => simp only [Option.map_some, hsame s ⟨l, hl⟩]
  refine Prod.ext hregistry (Bool.eq_iff_iff.2 ?_)
  rw [told_each_iff_ne hf htold, told_each_iff_ne hf htold, hregistry]

/-- To change the same lobbies again is to change nothing. -/
theorem each_each (hf : ∀ l, f (f l) = f l) (htold : ∀ l, told l = true ↔ f l ≠ l)
    (x : Registry × Bool) (servers : List ServerId) :
    each f h told ((each f h told x servers).1, false) servers =
      ((each f h told x servers).1, false) := by
  have hregistry : (each f h told ((each f h told x servers).1, false) servers).1 =
      (each f h told x servers).1 := by
    refine (each_eq_self_iff hf ((each f h told x servers).1, false) servers).2 ?_
    intro s hs l hl
    dsimp only at hl
    rw [get?_each f h told hf] at hl
    obtain ⟨m, -, rfl⟩ := Option.map_eq_some_iff.1 hl
    rw [if_pos hs, hf]
  refine Prod.ext hregistry (Bool.eq_false_iff.2 ?_)
  rw [ne_eq, told_each_iff_ne hf htold]
  exact not_not_intro hregistry

end

/-! ## joining and leaving -/

theorem not_contains_iff (l : Lobby) (p : SteamId) : (!l.contains p) = true ↔ l.join p ≠ l := by
  rw [ne_eq, Lobby.join_eq_self_iff, ← Lobby.contains_iff, Bool.not_eq_true', Bool.not_eq_true]

theorem contains_iff_leave_ne (l : Lobby) (p : SteamId) : l.contains p = true ↔ l.leave p ≠ l := by
  rw [ne_eq, Lobby.leave_eq_self_iff, Lobby.contains_iff, not_not]

theorem told_leave : (r.leave p servers).2 = true ↔ ∃ s ∈ servers, r.Queued p s := by
  rw [leave_eq_each]
  refine (told_each (fun l => l.leave_leave p) (fun l => contains_iff_leave_ne l p) _ _).trans ?_
  simp only [Bool.false_eq_true, false_or, ne_eq, Lobby.leave_eq_self_iff, not_not]
  rfl

/-- To leave all queues is to leave those of all known servers. -/
theorem leaveAll_eq_leave (r : Registry) (p : SteamId) :
    r.leaveAll p = r.leave p (r.lobbies.toList.map Lobby.serverId) := by
  have hknown : ∀ {s l}, r.get? s = some l → s ∈ r.lobbies.toList.map Lobby.serverId := by
    intro s l hl
    obtain ⟨hmem, hserver⟩ := get?_eq_some_iff.1 hl
    exact List.mem_map.2 ⟨l, hmem, hserver⟩
  refine Prod.ext (ext_get? fun s => ?_) (Bool.eq_iff_iff.2 ?_)
  · rw [get?_leaveAll, get?_leave]
    cases hl : r.get? s with
    | none => rfl
    | some l => simp only [Option.map_some, if_pos (hknown hl)]
  · rw [told_leave]
    show r.lobbies.toList.any (·.contains p) = true ↔ _
    simp only [List.any_eq_true, Lobby.contains_iff]
    constructor
    · rintro ⟨l, hl, hp⟩
      exact ⟨l.serverId, List.mem_map.2 ⟨l, hl, rfl⟩, l, get?_of_mem hl, hp⟩
    · rintro ⟨s, -, l, hl, hp⟩
      exact ⟨l, (get?_eq_some_iff.1 hl).1, hp⟩

/-- Changing the queues of one player to those of which `waits` holds: whether anything has changed
is told, and nothing else is touched. -/
structure Changes (r : Registry) (p : SteamId) (waits : ServerId → Prop) (x : Registry × Bool) :
    Prop where
  told : x.2 = true ↔ x.1.states ≠ r.states
  own : ∀ s, x.1.Queued p s ↔ waits s
  others : ∀ q s, q ≠ p → (x.1.Queued q s ↔ r.Queued q s)
  records : x.1.record? = r.record?

theorem states_ne_iff (hrecord : t.record? = r.record?) : t.states ≠ r.states ↔ t ≠ r :=
  not_congr ⟨eq_of_states hrecord, congrArg states⟩

theorem changes_join (r : Registry) (p : SteamId) (servers : List ServerId) :
    r.Changes p (fun s => r.Queued p s ∨ (s ∈ servers ∧ r.Knows s)) (r.join p servers) where
  told := by
    rw [states_ne_iff (record?_join r p servers), join_eq_each]
    exact told_each_iff_ne (fun l => l.join_join p) (fun l => not_contains_iff l p) r servers
  own s := by
    rw [queued_join]
    simp
  others q s hq := by
    rw [queued_join]
    simp [hq]
  records := record?_join r p servers

theorem changes_leave (r : Registry) (p : SteamId) (servers : List ServerId) :
    r.Changes p (fun s => r.Queued p s ∧ s ∉ servers) (r.leave p servers) where
  told := by
    rw [states_ne_iff (record?_leave r p servers), leave_eq_each]
    exact told_each_iff_ne (fun l => l.leave_leave p) (fun l => contains_iff_leave_ne l p) r servers
  own s := by
    rw [queued_leave]
    simp
  others q s hq := by
    rw [queued_leave]
    simp [hq]
  records := record?_leave r p servers

theorem changes_leaveAll (r : Registry) (p : SteamId) :
    r.Changes p (fun _ => False) (r.leaveAll p) where
  told := by
    rw [leaveAll_eq_leave]
    exact (changes_leave r p _).told
  own s := by
    rw [queued_leaveAll]
    simp
  others q s hq := by
    rw [queued_leaveAll]
    simp [hq]
  records := record?_leaveAll r p

theorem join_congr {others : List ServerId} (h : ∀ s, r.Knows s → (s ∈ others ↔ s ∈ servers)) :
    r.join p others = r.join p servers := by
  rw [join_eq_each, join_eq_each]
  exact each_congr (fun l => l.join_join p) (fun l => not_contains_iff l p) h

theorem leave_congr {others : List ServerId} (h : ∀ s, r.Knows s → (s ∈ others ↔ s ∈ servers)) :
    r.leave p others = r.leave p servers := by
  rw [leave_eq_each, leave_eq_each]
  exact each_congr (fun l => l.leave_leave p) (fun l => contains_iff_leave_ne l p) h

theorem join_again (r : Registry) (p : SteamId) (servers : List ServerId) :
    (r.join p servers).1.join p servers = ((r.join p servers).1, false) :=
  each_each (fun l => l.join_join p) (fun l => not_contains_iff l p) (r, false) servers

theorem leave_again (r : Registry) (p : SteamId) (servers : List ServerId) :
    (r.leave p servers).1.leave p servers = ((r.leave p servers).1, false) :=
  each_each (fun l => l.leave_leave p) (fun l => contains_iff_leave_ne l p) (r, false) servers

theorem leaveAll_again (r : Registry) (p : SteamId) :
    (r.leaveAll p).1.leaveAll p = ((r.leaveAll p).1, false) := by
  have hservers : (r.leaveAll p).1.lobbies.toList.map Lobby.serverId =
      r.lobbies.toList.map Lobby.serverId := by
    show (r.lobbies.toList.map (·.leave p)).map Lobby.serverId = _
    rw [List.map_map]
    rfl
  rw [leaveAll_eq_leave (r.leaveAll p).1, hservers, leaveAll_eq_leave r]
  exact leave_again r p _

/-- Who was in none of the queues joins them and leaves them again without a trace. -/
theorem leave_join (h : ∀ s ∈ servers, ¬ r.Queued p s) :
    ((r.join p servers).1.leave p servers).1 = r := by
  refine ext_get? fun s => ?_
  rw [get?_leave, get?_join]
  cases hl : r.get? s with
  | none => rfl
  | some l =>
    by_cases hs : s ∈ servers
    · have hp : ¬ p ∈ l.members := fun hp => h s hs ⟨l, hl, hp⟩
      simp only [Option.map_some, if_pos hs, Lobby.leave_join hp]
    · simp only [Option.map_some, if_neg hs]

end Registry

end Matchmaker
