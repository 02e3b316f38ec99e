import Matchmaker.Proofs.Client.Flood
import Matchmaker.Proofs.Config.Limits
import Matchmaker.Proofs.Run.Match
import Matchmaker.Proofs.Run.Sessions

/-!
# The search for idle clients

A search leaves those who were heard of within the timeout.  A client that is flooded is heard of
when a frame is read, and none is read while its handler waits for a token.  Nothing relates how
long that takes to the timeout of the search: both are settings, and either may be the longer one
(`flood_kept_iff`).
-/

namespace Matchmaker

open Client (TokenBucket)

/-! ## who stays -/

namespace Coordinator

variable {c : Coordinator} {e : Session} {now : Nat} {lastSeen : Nat → Nat}

theorem mem_idle :
    e ∈ c.idle now lastSeen ↔
      e ∈ c.clients ∧ lastSeen e.connection + c.settings.idleTimeout < now := by
  unfold idle isIdle
  rw [List.mem_filter, decide_eq_true_eq, ← Nat.lt_sub_iff_add_lt']
  rfl

/-- A search leaves those who were heard of within the timeout. -/
theorem mem_clients_evict :
    e ∈ (c.evict now lastSeen).1.state.clients ↔
      e ∈ c.clients ∧ now ≤ lastSeen e.connection + c.settings.idleTimeout := by
  show e ∈ (c.removeEach _).clients ↔ _
  rw [mem_clients_removeEach]
  refine and_congr_right fun he => ?_
  constructor
  · intro hstays
    by_contra hlate
    exact hstays e (mem_idle.2 ⟨he, by omega⟩) rfl
  · intro hheard d hd hsame
    obtain ⟨hmem, hlate⟩ := mem_idle.1 hd
    rw [← session_unique he hmem hsame] at hlate
    omega

end Coordinator

namespace Flood
variable {f : Flood} {config : Config}

/-- Whenever idle clients are searched for, this one stays, if it is registered. -/
def Kept (config : Config) (f : Flood) : Prop :=
  ∀ (owner : Nat → Profile) (as : List Action),
    ∀ e ∈ ((World.start config).run owner as).coordinator.clients,
      e.connection = f.client.session.connection → ∀ lastSeen : Nat → Nat,
        lastSeen e.connection = f.client.lastSeen →
          e ∈ (((World.start config).run owner as).coordinator.evict f.now lastSeen).1.state.clients

theorem kept_iff : f.Kept config ↔
    f.now ≤ f.client.lastSeen + config.idleTimeoutSecs.toNat * Client.nanosPerSecond := by
  constructor
  · intro h
    let owner : Nat → Profile := fun _ => f.client.session.profile
    obtain ⟨e, he, hconnection⟩ : (((World.start config).run owner
        [.connect f.client.session.connection .readwrite]).coordinator).Serves _ :=
      World.serves_of_connects (beq_self_eq_true f.client.session.connection)
    have hstays := h owner _ e he hconnection (fun _ => f.client.lastSeen) rfl
    have hheard := (Coordinator.mem_clients_evict.1 hstays).2
    rwa [World.settings_run] at hheard
  · intro h owner as e he hconnection lastSeen hseen
    refine Coordinator.mem_clients_evict.2 ⟨he, ?_⟩
    rw [hseen, World.settings_run]
    exact h

/-! ## floods under a configuration -/

theorem second_le_idle {c : Config} (hc : config.validated = .ok c) :
    Client.nanosPerSecond ≤ c.idleTimeoutSecs.toNat * Client.nanosPerSecond := by
  have hone : 1 ≤ c.idleTimeoutSecs.toNat := by
    rw [Config.toNat_positive (f := Config.idleTimeoutSecs) hc (by simp [Config.positive])]
    exact Nat.le_max_right _ _
  exact Nat.le_mul_of_pos_left _ hone

/-- A price is whole seconds, so nobody has to sleep for longer than it. -/
theorem minSleep_le_price {config : Config} (h : config.clientSettings.rateLimitRefill ≠ 0) :
    TokenBucket.minSleep ≤ config.clientSettings.rateLimitRefill := by
  change config.rateLimitRefillSecs.toNat * Client.nanosPerSecond ≠ 0 at h
  show TokenBucket.minSleep ≤ config.rateLimitRefillSecs.toNat * Client.nanosPerSecond
  have hone : Client.nanosPerSecond ≤ config.rateLimitRefillSecs.toNat * Client.nanosPerSecond :=
    Nat.le_mul_of_pos_left _ (Nat.pos_of_ne_zero (left_ne_zero_of_mul h))
  exact le_trans (by decide) hone

/-- **A client that is flooded stays if the wait for a token is short.**  A search leaves those who
were heard of within the timeout.  Whatever comes, it leaves a client that is flooded, if requests
are not limited or if a sleep for the price of a token is over within the timeout; if not, there are
floods that end the session.  Where such sleeps are never late, this is a question of two settings of
the checked configuration alone. -/
theorem flood_kept_iff (clock : Clock) (hclock : clock.Lawful) (config c : Config)
    (hc : config.validated = .ok c) :
    let s := c.clientSettings
    let idle := c.idleTimeoutSecs.toNat * Client.nanosPerSecond
    (∀ f : Flood, f.Kept c ↔ f.now ≤ f.client.lastSeen + idle) ∧
      ((∀ n p t, clock.Offers t → ∀ steps, ((made n p s t).run clock steps).Kept c) ↔
        s.rateLimitBurst = 0 ∨ s.rateLimitRefill = 0 ∨ clock.Within s.rateLimitRefill idle) ∧
      ((∀ t, clock.Offers t → clock.Offers (t + s.rateLimitRefill)) →
        (clock.Within s.rateLimitRefill idle ↔ s.rateLimitRefill ≤ idle)) := by
  intro s idle
  refine ⟨fun f => kept_iff, ⟨fun h => ?_, fun h n p t ht steps => ?_⟩, hclock.within_iff⟩
  · by_cases hburst : s.rateLimitBurst = 0
    · exact .inl hburst
    by_cases hrefill : s.rateLimitRefill = 0
    · exact .inr (.inl hrefill)
    refine .inr (.inr fun t ht => ?_)
    obtain ⟨steps, hnow, hseen⟩ := exists_quiet hburst (minSleep_le_price hrefill) hclock 0
      (.regular (.ofNat 0) "") t
    have hkept := kept_iff.1 (h 0 (.regular (.ofNat 0) "") t ht steps)
    rwa [hnow, hseen] at hkept
  · refine kept_iff.2 ?_
    -- the last frame read is not too long ago
    suffices hlag : ((made n p s t).run clock steps).now ≤
        ((made n p s t).run clock steps).touched + idle from
      hlag.trans (Nat.add_le_add_right (touched_le_lastSeen _) idle)
    by_cases hnone : s.rateLimitBurst = 0 ∨ s.rateLimitRefill = 0
    · have hsecond : Client.nanosPerSecond ≤ idle := second_le_idle hc
      exact (now_le_of_unlimited hnone clock n p t steps).trans
        (Nat.add_le_add_left (le_trans (by decide) hsecond) _)
    · obtain ⟨hburst, hrefill⟩ := not_or.1 hnone
      have hwithin : clock.Within s.rateLimitRefill idle := by
        rcases h with hzero | hzero | hwithin
        · exact absurd hzero hburst
        · exact absurd hzero hrefill
        · exact hwithin
      exact now_le_of_within hclock hburst (minSleep_le_price hrefill) hwithin n p ht steps

end Flood

/-! ## a minute without a token

The first frame is paid for, and the second is not. -/

namespace Sample

def caller : Profile := .regular (.ofNat 0) ""

/-- A token takes longer than the timeout. -/
def miserly : Config := { rateLimitRefillSecs := 100 }

def barrage (seconds : Nat) : List Flood.Step :=
  [.deliver .empty, .goOn, .deliver .empty, .goOn, .pass (seconds * Client.nanosPerSecond)]

/-- the client after that -/
def flooded (config : Config) (seconds : Nat) : Flood :=
  (Flood.made 0 caller config.clientSettings 0).run .millis (barrage seconds)

end Sample

namespace Flood

theorem flood_kept_iff_sample :
    Clock.millis.Lawful ∧ Config.validated {} = .ok {} ∧ (Sample.flooded {} 5).Kept {} := by
  have hchecked : Config.validated {} = .ok {} := rfl
  refine ⟨Clock.lawful_millis, hchecked, ?_⟩
  obtain ⟨-, hkept, hlength⟩ := flood_kept_iff .millis Clock.lawful_millis {} {} hchecked
  refine hkept.2 (.inr (.inr ((hlength fun t ht => ?_).2 (by decide)))) 0 Sample.caller 0 rfl _
  obtain ⟨n, rfl⟩ := Clock.offers_millis_iff.1 ht
  exact Clock.offers_millis_iff.2 ⟨n + 5000, Nat.add_mul n 5000 nanosPerMilli⟩

/-- Who is waiting for a token is taken for somebody who is gone.  Checking has let the two settings
stand. -/
theorem throttled_client_evicted :
    let f := Sample.flooded Sample.miserly 61
    let w := (World.start Sample.miserly).run (fun _ => Sample.caller) [.connect 0 .readwrite]
    Sample.miserly.validated = .ok Sample.miserly ∧
      (w.coordinator.evict f.now fun _ => f.client.lastSeen).2 = [Sample.caller.steamId] := by
  decide +kernel

end Flood

end Matchmaker
