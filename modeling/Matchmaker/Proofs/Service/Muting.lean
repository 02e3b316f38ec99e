import Matchmaker.Proofs.Chat.Room
import Matchmaker.Proofs.Service.House

/-!
# Muting

Whether a message may be posted is decided by the status of the session in whose name it is.  A
change of status reaches the registered session of a player and no other: one that was replaced or
taken out, and one that is not registered yet, keeps the status that it has.

So a player who is muted can still post over a connection if and only if its session could post
before, and was not registered at the mute nor at any change since (`muted_iff`).  A session that is
made while the mute stands has the kept status from the beginning.
-/

namespace Matchmaker

open Chat (Log)

namespace Service
variable {π : Type} {x : Session}

/-! ## posting -/

theorem addMessage_denied (h : x.chatStatus.canPost = false) (createdOn : Timestamp)
    (body : String) (s : InMemory π) :
    (addMessage x createdOn body).run s = (.error .permissionDenied, s) := by
  unfold addMessage
  rw [h]
  rfl

theorem sanitize_ne_denied (body : String) : Chat.sanitize body ≠ .error .permissionDenied := by
  unfold Chat.sanitize
  dsimp only
  split
  · exact fun h => by cases h
  · split
    · exact fun h => by cases h
    · exact fun h => by cases h

theorem addMessage_ne_denied (h : x.chatStatus.canPost = true) (createdOn : Timestamp)
    (body : String) (s : InMemory π) :
    ((addMessage x createdOn body).run s).1 ≠ .error .permissionDenied := by
  unfold addMessage
  rw [if_pos h]
  cases hbody : Chat.sanitize body with
  | error e =>
    show Except.error e ≠ _
    rintro ⟨⟩
    exact sanitize_ne_denied body hbody
  | ok text =>
    show ((onStore (ChatStore.save · (draft x createdOn text)) >>= fun saved => do
      onCoordinator fun c => (c.message saved, ())
      return saved : Serving (WithOutages Log) π ChatEntry).run s).1 ≠ _
    rw [run_bind, run_onStore]
    cases ChatStore.save s.store (draft x createdOn text) with
    | error e => exact fun h => by cases h
    | ok saved => exact fun h => by cases h

end Service

theorem ChatStatus.canPost_iff {status : ChatStatus} : status.canPost = true ↔ status = .readwrite :=
  beq_iff_eq

namespace House
variable {π : Type} [ProfileProvider π] [LawfulProfiles π] {owner : Nat → Profile} {h start : House π}
  {e : Occasion π} {es : List (Occasion π)} {n : Nat} {p : SteamId} {status : ChatStatus}
  {x : Session}

/-! ## what a change reaches -/

/-- the session of a connection may post -/
def MayPost (h : House π) (n : Nat) : Prop :=
  ∃ x, h.session? n = some x ∧ x.chatStatus.canPost = true

/-- the status of the player on a connection is changed while its session is registered -/
def Hears (owner : Nat → Profile) (n : Nat) (h : House π) (e : Occasion π) : Prop :=
  (∃ status, h.ruling? e = some ((owner n).steamId, status)) ∧ h.coordinator.Serves n

/-- the player may post from now on -/
def Permits (p : SteamId) (h : House π) (e : Occasion π) : Prop :=
  h.ruling? e = some (p, .readwrite)

theorem standing_of_ruling (hplaced : h.coordinator.Placed owner)
    (hruling : h.ruling? e = some (p, status)) (q : SteamId) :
    (h.next owner e).service.standing q = if p = q then status else h.service.standing q := by
  cases turn_next hplaced e with
  | makes x hnew hplayer hstatus hintroduce hkept hnone => rw [hnone] at hruling; cases hruling
  | rules r t reason hother hchanges =>
    rw [hother] at hruling
    cases hruling
    exact hchanges.standing q
  | leaves hafter hsessions hkept hnone => rw [hnone] at hruling; cases hruling

theorem standing_of_none (hplaced : h.coordinator.Placed owner) (hnone : h.ruling? e = none)
    (q : SteamId) : (h.next owner e).service.standing q = h.service.standing q := by
  cases turn_next hplaced e with
  | makes x hnew hplayer hstatus hintroduce hkept hruling => exact hkept q
  | rules p status reason hruling hchanges => rw [hruling] at hnone; cases hnone
  | leaves hafter hsessions hkept hruling => exact hkept q

theorem session?_of_hears (hplaced : h.coordinator.Placed owner)
    (hruling : h.ruling? e = some ((owner n).steamId, status)) (hn : h.coordinator.Serves n) :
    ∃ x, (h.next owner e).session? n = some x ∧ x.chatStatus = status := by
  cases turn_next hplaced e with
  | makes x hnew hplayer hstatus hintroduce hkept hnone => rw [hnone] at hruling; cases hruling
  | leaves hafter hsessions hkept hnone => rw [hnone] at hruling; cases hruling
  | rules p other reason hother hchanges =>
    rw [hother] at hruling
    cases hruling
    obtain ⟨y, hy, rfl⟩ := hn
    refine ⟨{ y with chatStatus := status }, ?_, rfl⟩
    show (h.next owner e).service.coordinator.session? y.connection = _
    rw [hchanges.coordinator, ← hplaced.registered y hy]
    exact hplaced.session?_updateChatStatus hy status reason

theorem session?_of_not_hears (hplaced : h.coordinator.Placed owner)
    (hnot : ¬ h.Hears owner n e) (hx : h.session? n = some x) :
    (h.next owner e).session? n = some x := by
  cases turn_next hplaced e with
  | makes y hnew hplayer hstatus hintroduce hkept hnone =>
    have hne : y.connection ≠ n := by
      rintro rfl
      rw [hnew] at hx
      cases hx
    show (h.next owner e).coordinator.session? n = _
    rw [hintroduce, hplaced.session?_introduce hnew, if_neg hne]
    exact hx
  | leaves hafter hsessions hkept hnone => rw [hsessions, hx]
  | rules p status reason hruling hchanges =>
    show (h.next owner e).service.coordinator.session? n = _
    rw [hchanges.coordinator]
    refine (hplaced.session?_updateChatStatus_of_not p status reason ?_).trans hx
    rintro ⟨hn, rfl⟩
    exact hnot ⟨⟨status, hruling⟩, hn⟩

/-- A session that was not there before has the status that is kept. -/
theorem chatStatus_of_made (hplaced : h.coordinator.Placed owner) (hnone : h.session? n = none)
    (hx : (h.next owner e).session? n = some x) :
    x.chatStatus = h.service.standing (owner n).steamId ∧ h.ruling? e = none := by
  cases turn_next hplaced e with
  | leaves hafter hsessions hkept hruling =>
    rw [hsessions, hnone] at hx
    cases hx
  | makes y hnew hplayer hstatus hintroduce hkept hruling =>
    change (h.next owner e).coordinator.session? n = _ at hx
    rw [hintroduce, hplaced.session?_introduce hnew] at hx
    by_cases hn : y.connection = n
    · rw [if_pos hn] at hx
      cases hx
      rw [← hn, ← hplayer]
      exact ⟨hstatus, hruling⟩
    · rw [if_neg hn] at hx
      change h.coordinator.session? n = none at hnone
      rw [hnone] at hx
      cases hx
  | rules p status reason hruling hchanges =>
    -- no session was there to be changed
    have hn : ¬ h.coordinator.Serves n := by
      rintro ⟨y, hy, rfl⟩
      have hfound : h.session? y.connection = some y := hplaced.session?_of_mem hy
      rw [hnone] at hfound
      cases hfound
    have hsame : (h.next owner e).session? n = h.session? n := by
      show (h.next owner e).service.coordinator.session? n = _
      rw [hchanges.coordinator]
      exact hplaced.session?_updateChatStatus_of_not p status reason fun hboth => hn hboth.1
    rw [hsame, hnone] at hx
    cases hx

/-- A session is as it was, or has heard of a change, or is new. -/
theorem session?_next_cases (hplaced : h.coordinator.Placed owner)
    (hx : (h.next owner e).session? n = some x) :
    (¬ h.Hears owner n e ∧ h.session? n = some x) ∨
      (h.Hears owner n e ∧ h.ruling? e = some ((owner n).steamId, x.chatStatus)) ∨
      (h.session? n = none ∧ h.ruling? e = none ∧
        x.chatStatus = h.service.standing (owner n).steamId) := by
  by_cases hhears : h.Hears owner n e
  · obtain ⟨⟨status, hruling⟩, hn⟩ := hhears
    obtain ⟨y, hy, rfl⟩ := session?_of_hears hplaced hruling hn
    rw [hy] at hx
    cases hx
    exact .inr (.inl ⟨⟨⟨_, hruling⟩, hn⟩, hruling⟩)
  · cases hy : h.session? n with
    | none =>
      obtain ⟨hstatus, hnone⟩ := chatStatus_of_made hplaced hy hx
      exact .inr (.inr ⟨rfl, hnone, hstatus⟩)
    | some y =>
      rw [session?_of_not_hears hplaced hhears hy] at hx
      exact .inl ⟨hhears, hx⟩

theorem exists_session_next (hplaced : h.coordinator.Placed owner) (hx : h.session? n = some x)
    (e : Occasion π) : ∃ y, (h.next owner e).session? n = some y := by
  by_cases hhears : h.Hears owner n e
  · obtain ⟨⟨status, hruling⟩, hn⟩ := hhears
    obtain ⟨y, hy, -⟩ := session?_of_hears hplaced hruling hn
    exact ⟨y, hy⟩
  · exact ⟨x, session?_of_not_hears hplaced hhears hx⟩

/-! ## while a mute stands -/

theorem standing_ne_readwrite (hplaced : h.coordinator.Placed owner) (hnot : ¬ Permits p h e)
    (hkept : h.service.standing p ≠ .readwrite ∨ ∃ status, h.ruling? e = some (p, status)) :
    (h.next owner e).service.standing p ≠ .readwrite := by
  cases hruling : h.ruling? e with
  | none =>
    rw [standing_of_none hplaced hruling]
    rcases hkept with hkept | ⟨status, hsome⟩
    · exact hkept
    · rw [hruling] at hsome
      cases hsome
  | some change =>
    obtain ⟨q, status⟩ := change
    rw [standing_of_ruling hplaced hruling]
    by_cases hq : q = p
    · rw [if_pos hq]
      rintro rfl
      exact hnot (hq ▸ hruling)
    · rw [if_neg hq]
      rcases hkept with hkept | ⟨t, hsome⟩
      · exact hkept
      · rw [hruling] at hsome
        cases hsome
        exact absurd rfl hq

/-- of the sessions of a player, those may post that could at first and that no change has reached -/
structure Spared (owner : Nat → Profile) (start : House π) (p : SteamId) (es : List (Occasion π)) :
    Prop where
  posts : ∀ n x, (start.run owner es).session? n = some x → (owner n).steamId = p →
    (x.chatStatus.canPost = true ↔
      start.MayPost n ∧ ¬ Happens owner start (Hears owner n) es)
  present : ∀ n, start.MayPost n → ∃ x, (start.run owner es).session? n = some x

theorem spared_nil (owner : Nat → Profile) (start : House π) (p : SteamId) :
    Spared owner start p [] := by
  refine ⟨fun n x hx _ => ?_, fun n ⟨x, hx, _⟩ => ⟨x, hx⟩⟩
  constructor
  · exact fun hpost => ⟨⟨x, hx, hpost⟩, not_happens_nil⟩
  · rintro ⟨⟨y, hy, hpost⟩, -⟩
    rw [show start.session? n = some x from hx] at hy
    cases hy
    exact hpost

theorem Spared.concat (h : Spared owner start p es)
    (hplaced : (start.run owner es).coordinator.Placed owner)
    (hnot : ¬ Permits p (start.run owner es) e)
    (hkept : (start.run owner es).service.standing p ≠ .readwrite ∨
      ∃ status, (start.run owner es).ruling? e = some (p, status)) :
    Spared owner start p (es ++ [e]) := by
  refine ⟨fun n x hx hp => ?_, fun n hpost => ?_⟩
  · rw [run_concat] at hx
    rw [happens_concat]
    rcases session?_next_cases hplaced hx with ⟨hhears, hy⟩ | ⟨hhears, hruling⟩ | ⟨hnew, hnone, hmade⟩
    · rw [or_iff_left hhears]
      exact h.posts n x hy hp
    · -- whoever hears of a change may not post, since none of them permits it
      have hdenied : ¬ x.chatStatus.canPost = true := by
        rw [ChatStatus.canPost_iff]
        intro hpost
        rw [hp, hpost] at hruling
        exact hnot hruling
      exact iff_of_false hdenied fun hspared => hspared.2 (.inr hhears)
    · -- a new session has the kept status, which is one that does not allow posting
      have hdenied : ¬ x.chatStatus.canPost = true := by
        rw [ChatStatus.canPost_iff, hmade, hp]
        rcases hkept with hkept | ⟨status, hruling⟩
        · exact hkept
        · rw [hnone] at hruling
          cases hruling
      refine iff_of_false hdenied fun hspared => ?_
      obtain ⟨y, hy⟩ := h.present n hspared.1
      rw [hnew] at hy
      cases hy
  · rw [run_concat]
    obtain ⟨x, hx⟩ := h.present n hpost
    exact exists_session_next hplaced hx e

theorem spared_run (hplaced : ∀ es, (start.run owner es).coordinator.Placed owner)
    {mute : Occasion π} (hmute : start.ruling? mute = some (p, status)) {after : List (Occasion π)}
    (hnever : ¬ Happens owner start (Permits p) (mute :: after)) :
    (start.run owner (mute :: after)).service.standing p ≠ .readwrite ∧
      Spared owner start p (mute :: after) := by
  induction after using List.reverseRecOn with
  | nil =>
    -- the player may have been allowed to post before, but the mute changes what is kept
    have hnot : ¬ Permits p start mute := fun hpermits => hnever ⟨[], mute, [], rfl, hpermits⟩
    have hkept : start.service.standing p ≠ .readwrite ∨
        ∃ status, start.ruling? mute = some (p, status) := .inr ⟨status, hmute⟩
    exact ⟨standing_ne_readwrite (hplaced []) hnot hkept,
      (spared_nil owner start p).concat (hplaced []) hnot hkept⟩
  | append_singleton after e ih =>
    rw [← List.cons_append] at hnever ⊢
    rw [happens_concat] at hnever
    obtain ⟨hkept, hspared⟩ := ih fun hearlier => hnever (.inl hearlier)
    have hnot : ¬ Permits p (start.run owner (mute :: after)) e := fun hpermits =>
      hnever (.inr hpermits)
    refine ⟨?_, hspared.concat (hplaced _) hnot (.inl hkept)⟩
    rw [run_concat]
    exact standing_ne_readwrite (hplaced _) hnot (.inl hkept)

/-! ## every run -/

/-- **A mute binds the sessions that hear of it, and those that come after it.**  From a mute on, as
long as the player is not permitted to post again, a message in the name of any of the player's
sessions is refused, and nothing is changed by it, unless the session could post before the mute and
was not registered at the mute nor at any later change of the player's status. -/
theorem muted_iff (config : Config) (store : WithOutages Log) (profiles : π)
    (policy : Moderation.Policy) (owner : Nat → Profile) (before : List (Occasion π))
    (mute : Occasion π) (after : List (Occasion π)) (p : SteamId) (status : ChatStatus)
    (hmute : ((opened config store profiles policy).run owner before).ruling? mute =
      some (p, status))
    (hstatus : status ≠ .readwrite)
    (hnever : ¬ Happens owner
      (((opened config store profiles policy).run owner before).next owner mute) (Permits p) after) :
    let start := (opened config store profiles policy).run owner before
    let h := start.run owner (mute :: after)
    ∀ n x, h.session? n = some x → x.steamId = p → ∀ createdOn body,
      let posted := (Service.addMessage x createdOn body).run h.service
      (posted.1 = .error .permissionDenied ↔
        (start.MayPost n → Happens owner start (Hears owner n) (mute :: after))) ∧
      (posted.1 = .error .permissionDenied → posted.2 = h.service) := by
  intro start h n x hx hp createdOn body posted
  have hplaced : ∀ es, (start.run owner es).coordinator.Placed owner := by
    intro es
    rw [← run_append]
    exact placed_run config store profiles policy owner (before ++ es)
  have hmutes : ¬ Happens owner start (Permits p) (mute :: after) := by
    rw [happens_cons]
    rintro (hpermits | hlater)
    · rw [Permits, hmute] at hpermits
      cases hpermits
      exact hstatus rfl
    · exact hnever hlater
  have hspared : Spared owner start p (mute :: after) := (spared_run hplaced hmute hmutes).2
  have hplayer : (owner n).steamId = p := by
    rw [← (hplaced (mute :: after)).player hx, hp]
  have hposts := hspared.posts n x hx hplayer
  have hdenied : posted.1 = .error .permissionDenied ↔ x.chatStatus.canPost = false := by
    constructor
    · intro hresult
      by_contra hpost
      exact Service.addMessage_ne_denied (Bool.not_eq_false _ ▸ hpost) createdOn body h.service hresult
    · intro hpost
      exact congrArg Prod.fst (Service.addMessage_denied hpost createdOn body h.service)
  constructor
  · rw [hdenied, ← Bool.not_eq_true, hposts, not_and_not_right]
  · intro hresult
    exact congrArg Prod.snd (Service.addMessage_denied (hdenied.1 hresult) createdOn body h.service)

end House

/-! ## a player who comes twice and is muted

The second session replaces the first, and the mute reaches the second. -/

namespace Sample

def staffed : House ProfileTable := .opened {} ⟨.empty, []⟩ staff Moderation.byLevel

def twice : House ProfileTable := staffed.run guest [.arrive 0, .enter 0, .arrive 1, .enter 1]

def mute : Occasion ProfileTable :=
  .request (.setChatStatus moderator.steamId (guest 0).steamId .readonly "spam")

theorem ruling?_mute : twice.ruling? mute = some ((guest 0).steamId, .readonly) := by
  decide +kernel

end Sample

namespace House

theorem muted_iff_sample :
    let h := Sample.twice.run Sample.guest [Sample.mute]
    let x : Session := ⟨1, Sample.guest 1, .readonly⟩
    h.session? 1 = some x ∧ ∀ createdOn body,
      ((Service.addMessage x createdOn body).run h.service).1 = .error .permissionDenied := by
  intro h x
  have hx : h.session? 1 = some x := by decide +kernel
  have hclients : Sample.twice.coordinator.clients.toList = [⟨1, Sample.guest 1, .readwrite⟩] := by
    decide +kernel
  have hserves : Sample.twice.coordinator.Serves 1 := by
    refine ⟨⟨1, Sample.guest 1, .readwrite⟩, ?_, rfl⟩
    rw [Ascending.mem_def, hclients]
    exact List.mem_singleton.2 rfl
  refine ⟨hx, fun createdOn body => ?_⟩
  refine (muted_iff {} ⟨.empty, []⟩ Sample.staff Moderation.byLevel
    Sample.guest [.arrive 0, .enter 0, .arrive 1, .enter 1] Sample.mute []
    (Sample.guest 0).steamId .readonly Sample.ruling?_mute (by decide) not_happens_nil 1 x hx rfl
    createdOn body).1.2 fun _ => ?_
  exact ⟨[], Sample.mute, [], rfl, ⟨.readonly, Sample.ruling?_mute⟩, hserves⟩

/-- A player who is muted may still post over a connection that was registered before. -/
theorem replaced_session_posts :
    ¬ ∀ (config : Config) (store : WithOutages Log) (profiles : ProfileTable)
      (policy : Moderation.Policy) (owner : Nat → Profile)
      (before : List (Occasion ProfileTable)) (mute : Occasion ProfileTable)
      (after : List (Occasion ProfileTable)) (p : SteamId) (status : ChatStatus),
      let first := opened config store profiles policy
      let start := first.run owner before
      let h := start.run owner (mute :: after)
      start.ruling? mute = some (p, status) → status ≠ .readwrite →
      ¬ Happens owner (start.next owner mute) (Permits p) after →
      ∀ n x, Happens owner first (fun h _ => h.coordinator.Serves n) (before ++ mute :: after) →
        h.session? n = some x → x.steamId = p → ∀ createdOn body,
          (Service.addMessage x createdOn body).run h.service =
            (.error .permissionDenied, h.service) := by
  intro hclaim
  let x : Session := ⟨0, Sample.guest 0, .readwrite⟩
  have hx : (Sample.twice.run Sample.guest [Sample.mute]).session? 0 = some x := by decide +kernel
  have hclients : (Sample.staffed.run Sample.guest [.arrive 0, .enter 0]).coordinator.clients.toList =
      [x] := by decide +kernel
  have hserved : Happens Sample.guest Sample.staffed (fun h _ => h.coordinator.Serves 0)
      ([.arrive 0, .enter 0, .arrive 1, .enter 1] ++ [Sample.mute]) := by
    refine ⟨[.arrive 0, .enter 0], .arrive 1, [.enter 1, Sample.mute], rfl, x, ?_, rfl⟩
    rw [Ascending.mem_def, hclients]
    exact List.mem_singleton.2 rfl
  have hdenied := hclaim {} ⟨.empty, []⟩ Sample.staff Moderation.byLevel
    Sample.guest [.arrive 0, .enter 0, .arrive 1, .enter 1] Sample.mute []
    (Sample.guest 0).steamId .readonly Sample.ruling?_mute (by decide) not_happens_nil 0 x hserved hx
    rfl Sample.midnight "hi"
  exact Service.addMessage_ne_denied (x := x) rfl _ _ _ (congrArg Prod.fst hdenied)

end House

end Matchmaker
