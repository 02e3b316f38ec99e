import Matchmaker.Client.Basic
import Matchmaker.Proofs.Client.Delivery
import Matchmaker.Proofs.Client.Tokens
import Matchmaker.Proofs.Time.Clock

/-!
# Clients that are flooded

The peer of a client always has one more frame ready, and the handler asks for the next request as
soon as it has one.  So time goes by only while the handler waits for a token, and meanwhile nothing
is read that would show that the peer is there.  A `Flood` is such a client.

A wait for a token is over once the token is refilled, and then the token is there: nobody waits
twice for one frame (`Stands`).  So a flooded client is quiet for as long as it takes to refill one
token at most (`now_le_of_within`), and for as long as that once its burst is over (`exists_quiet`).
-/

namespace Matchmaker

open Client (Arrival Inbound Outbound Progress TokenBucket Waiting)

/-! ## floods -/

/-- a client, what the call for its next request waits for, and the time -/
structure Flood where
  client : Client Rat
  waiting : Waiting
  now : Nat

namespace Flood

inductive Step where
  /-- the peer sends a frame -/
  | deliver (bytes : ByteArray)
  /-- a control frame comes, and is seen if somebody reads -/
  | control
  /-- the call goes on as far as it can, and if it ends there is another one -/
  | goOn
  | pass (till : Nat)
  /-- something happens on the way out that does not close the client -/
  | wayOut (e : Outbound.Event)

/-- just made, and waiting for the first frame -/
def made (connection : Nat) (p : Profile) (s : Client.Settings) (now : Nat) : Flood :=
  ⟨.new connection p s now now, .frame, now⟩

/-- Nothing else is to be done before `till`: the token is not there, or frames are read at every
instant. -/
def mayPass (f : Flood) (till : Nat) : Bool :=
  match f.waiting with
  | .token _ wake => till ≤ wake
  | .frame =>
    f.client.inbound.limiter.isNone && f.client.inbound.touched == f.now && till ≤ f.now + 1

/-- The call has come this far.  If it has ended, the next one waits for a frame. -/
def after (f : Flood) (client : Client Rat) : Progress → Flood
  | .waiting w => { f with client, waiting := w }
  | .ended _ => { f with client, waiting := .frame }

def next (clock : Clock) (f : Flood) : Step → Flood
  | .deliver bytes =>
    { f with client := { f.client with inbound := f.client.inbound.deliver (.frame bytes) } }
  | .control =>
    if f.waiting.reads then { f with client := { f.client with activity := some f.now } } else f
  | .goOn =>
    let (client, progress) := f.client.goOn clock f.now f.now f.waiting
    f.after client progress
  | .pass till => if f.mayPass till then { f with now := max f.now till } else f
  | .wayOut e =>
    if (f.client.outbound.next e).closed then f
    else { f with client := { f.client with outbound := f.client.outbound.next e } }

def run (clock : Clock) (f : Flood) (steps : List Step) : Flood := steps.foldl (next clock) f

/-- when a frame was last read -/
def touched (f : Flood) : Nat := f.client.inbound.touched

end Flood

/-! ## the way in of an open client -/

namespace Client.Inbound
variable {i : Inbound Rat} {burst price credit last now : Nat} {clock : Clock}

/-- nothing but frames is there to be read, and more may come -/
def Flows (i : Inbound Rat) : Prop := i.hungUp = false ∧ ∀ a ∈ i.arrivals, ∃ bytes, a = .frame bytes

theorem pay_of_limiter {b : TokenBucket Rat} (h : i.limiter = some b) (clock : Clock) (now : Nat)
    (bytes : ByteArray) :
    i.pay clock false .closed now bytes =
      ({ i with limiter := some (b.tryAcquire now).1 },
        if (b.tryAcquire now).2 then .ended (decode bytes)
        else .waiting (.token bytes (clock.wake now (now + (b.tryAcquire now).1.shortage)))) := by
  unfold pay
  rw [h]
  dsimp only
  rw [Bool.false_and, if_neg Bool.false_ne_true]
  split
  · rename_i htry
    rw [htry]
    rfl
  · rename_i htry
    rw [htry]
    rfl

/-- If the price of a token has been saved, it is paid. -/
theorem pay_of_saved (hlimiter : i.limiter = some (TokenBucket.exact burst price credit last))
    (hprice : price ≠ 0) (hcredit : credit ≤ burst * price) (hlast : last ≤ now)
    (hsaved : price ≤ min (credit + (now - last)) (burst * price)) (clock : Clock)
    (bytes : ByteArray) :
    i.pay clock false .closed now bytes =
      ({ i with limiter := some (TokenBucket.exact burst price
          (min (credit + (now - last)) (burst * price) - price) now) },
        .ended (decode bytes)) := by
  have htry := TokenBucket.tryAcquire_exact hprice hcredit last now
  dsimp only at htry
  rw [Nat.max_eq_right hlast, if_pos hsaved] at htry
  rw [pay_of_limiter hlimiter, htry]
  rfl

/-- If not, what is missing is waited for. -/
theorem pay_of_missing (hlimiter : i.limiter = some (TokenBucket.exact burst price credit last))
    (hprice : price ≠ 0) (hcredit : credit ≤ burst * price) (hlast : last ≤ now)
    (hmissing : min (credit + (now - last)) (burst * price) < price) (clock : Clock)
    (bytes : ByteArray) :
    let saved := min (credit + (now - last)) (burst * price)
    i.pay clock false .closed now bytes =
      ({ i with limiter := some (TokenBucket.exact burst price saved now) },
        .waiting (.token bytes
          (clock.wake now (now + max (price - saved) TokenBucket.minSleep)))) := by
  have htry := TokenBucket.tryAcquire_exact hprice hcredit last now
  dsimp only at htry ⊢
  rw [Nat.max_eq_right hlast, if_neg (Nat.not_le_of_lt hmissing)] at htry
  rw [pay_of_limiter hlimiter, htry, TokenBucket.shortage_exact hprice hmissing.le]
  rfl

theorem exists_limiter_pay (i : Inbound Rat) (clock : Clock) (now : Nat) (bytes : ByteArray) :
    ∃ limiter, (i.pay clock false .closed now bytes).1 = { i with limiter } := by
  cases h : i.limiter with
  | none =>
    refine ⟨i.limiter, ?_⟩
    unfold pay
    split
    · rfl
    · rename_i hsome
      rw [h] at hsome
      cases hsome
  | some b => exact ⟨_, congrArg Prod.fst (pay_of_limiter h clock now bytes)⟩

end Client.Inbound

namespace Flood
variable {f : Flood} {clock : Clock} {burst price idle : Nat}

/-! ## how a call goes on -/

/-- The client is not closed, and frames come. -/
structure Open (f : Flood) : Prop where
  opened : f.client.outbound.closed = false
  flows : f.client.inbound.Flows

/-- how the call of a client that is open can go on -/
inductive GoesOn (clock : Clock) (f : Flood) : Flood → Prop where
  | still (hwaits : (f.waiting = .frame ∧ f.client.inbound.arrivals = []) ∨
      ∃ bytes wake, f.waiting = .token bytes wake ∧ f.now < wake) : GoesOn clock f f
  | reads (bytes : ByteArray) (rest : List Arrival) (i : Inbound Rat)
      (hwaiting : f.waiting = .frame)
      (harrivals : f.client.inbound.arrivals = .frame bytes :: rest)
      (hi : i = { f.client.inbound with arrivals := rest, touched := f.now }) :
      GoesOn clock f (f.after
        { f.client with
          inbound := (i.pay clock false .closed f.now bytes).1, activity := some f.now }
        (i.pay clock false .closed f.now bytes).2)
  | wakes (bytes : ByteArray) (wake : Nat) (hwaiting : f.waiting = .token bytes wake)
      (hdue : wake ≤ f.now) :
      GoesOn clock f (f.after
        { f.client with inbound := (f.client.inbound.pay clock false .closed f.now bytes).1 }
        (f.client.inbound.pay clock false .closed f.now bytes).2)

theorem Open.goesOn (h : f.Open) (clock : Clock) : GoesOn clock f (f.next clock .goOn) := by
  obtain ⟨⟨session, outbound, inbound, activity⟩, waiting, now⟩ := f
  obtain ⟨hopen, hhung, hframes⟩ := h
  change outbound.closed = false at hopen
  change inbound.hungUp = false at hhung
  change ∀ a ∈ inbound.arrivals, _ at hframes
  unfold next Client.goOn Inbound.goOn
  dsimp only
  rw [hopen]
  cases waiting with
  | frame =>
    cases harrivals : inbound.arrivals with
    | nil =>
      have hstill := @GoesOn.still clock
        ⟨⟨session, outbound, inbound, activity⟩, .frame, now⟩ (.inl ⟨rfl, harrivals⟩)
      simpa [hhung, after, Waiting.reads] using hstill
    | cons a rest =>
      rw [harrivals] at hframes
      obtain ⟨bytes, rfl⟩ := hframes a List.mem_cons_self
      exact .reads (f := ⟨⟨session, outbound, inbound, activity⟩, .frame, now⟩) bytes rest _ rfl
        harrivals rfl
  | token bytes wake =>
    by_cases hearly : now < wake
    · have hstill := @GoesOn.still clock
        ⟨⟨session, outbound, inbound, activity⟩, .token bytes wake, now⟩
        (.inr ⟨bytes, wake, rfl, hearly⟩)
      simpa [hearly, after, Waiting.reads] using hstill
    · have hwakes := @GoesOn.wakes clock
        ⟨⟨session, outbound, inbound, activity⟩, .token bytes wake, now⟩ bytes wake rfl
        (Nat.le_of_not_lt hearly)
      simpa [hearly, Waiting.reads] using hwakes

theorem after_client (f : Flood) (client : Client Rat) (progress : Progress) :
    (f.after client progress).client = client := by cases progress <;> rfl

theorem next_control (clock : Clock) (f : Flood) :
    f.next clock .control = f ∨
      f.next clock .control = { f with client := { f.client with activity := some f.now } } := by
  by_cases h : f.waiting.reads = true
  · exact .inr (if_pos h)
  · exact .inl (if_neg h)

theorem next_pass (clock : Clock) (f : Flood) (till : Nat) :
    f.next clock (.pass till) = f ∨
      f.mayPass till = true ∧ f.next clock (.pass till) = { f with now := max f.now till } := by
  by_cases h : f.mayPass till = true
  · exact .inr ⟨h, if_pos h⟩
  · exact .inl (if_neg h)

theorem next_wayOut (clock : Clock) (f : Flood) (e : Outbound.Event) :
    f.next clock (.wayOut e) = f ∨ (f.client.outbound.next e).closed = false ∧
      f.next clock (.wayOut e) =
        { f with client := { f.client with outbound := f.client.outbound.next e } } := by
  by_cases h : (f.client.outbound.next e).closed = true
  · exact .inl (if_pos h)
  · exact .inr ⟨Bool.eq_false_iff.2 h, if_neg h⟩

/-- What is neither the call nor the clock leaves both alone. -/
theorem quiet_next (clock : Clock) (f : Flood) (x : Step) :
    x = .goOn ∨ (∃ till, x = .pass till) ∨ ∃ client, f.next clock x = { f with client } ∧
      client.inbound.limiter = f.client.inbound.limiter ∧ client.inbound.touched = f.touched := by
  cases x with
  | goOn => exact .inl rfl
  | pass till => exact .inr (.inl ⟨till, rfl⟩)
  | deliver bytes =>
    refine .inr (.inr ⟨_, rfl, ?_⟩)
    show (f.client.inbound.deliver _).limiter = _ ∧
      (f.client.inbound.deliver _).touched = f.client.inbound.touched
    unfold Inbound.deliver
    split
    all_goals exact ⟨rfl, rfl⟩
  | control =>
    rcases next_control clock f with hsame | hseen
    · exact .inr (.inr ⟨f.client, hsame, rfl, rfl⟩)
    · exact .inr (.inr ⟨_, hseen, rfl, rfl⟩)
  | wayOut e =>
    rcases next_wayOut clock f e with hsame | ⟨-, hdone⟩
    · exact .inr (.inr ⟨f.client, hsame, rfl, rfl⟩)
    · exact .inr (.inr ⟨_, hdone, rfl, rfl⟩)

theorem flows_deliver {i : Inbound Rat} (h : i.Flows) (bytes : ByteArray) :
    (i.deliver (.frame bytes)).Flows ∧
      (i.deliver (.frame bytes)).arrivals = i.arrivals ++ [.frame bytes] := by
  have hdeliver : i.deliver (.frame bytes) =
      { i with arrivals := i.arrivals ++ [.frame bytes] } := by
    unfold Inbound.deliver
    rw [h.1, if_neg Bool.false_ne_true]
  rw [hdeliver]
  refine ⟨⟨h.1, fun a ha => ?_⟩, rfl⟩
  rcases List.mem_append.1 ha with ha | ha
  · exact h.2 a ha
  · exact ⟨bytes, List.mem_singleton.1 ha⟩

theorem Open.next (h : f.Open) (clock : Clock) (x : Step) : (f.next clock x).Open := by
  cases x with
  | deliver bytes => exact ⟨h.opened, (flows_deliver h.flows bytes).1⟩
  | control =>
    rcases next_control clock f with hsame | hseen
    · rw [hsame]
      exact h
    · rw [hseen]
      exact ⟨h.opened, h.flows⟩
  | goOn =>
    have hgoes := h.goesOn clock
    generalize f.next clock .goOn = g at hgoes
    cases hgoes with
    | still hwaits => exact h
    | reads bytes rest i hwaiting harrivals hi =>
      refine ⟨?_, ?_⟩
      · rw [after_client]
        exact h.opened
      · obtain ⟨limiter, hpay⟩ := i.exists_limiter_pay clock f.now bytes
        rw [after_client, hpay, hi]
        refine ⟨h.flows.1, fun a ha => h.flows.2 a ?_⟩
        rw [harrivals]
        exact List.mem_cons_of_mem _ ha
    | wakes bytes wake hwaiting hdue =>
      refine ⟨?_, ?_⟩
      · rw [after_client]
        exact h.opened
      · obtain ⟨limiter, hpay⟩ := f.client.inbound.exists_limiter_pay clock f.now bytes
        rw [after_client, hpay]
        exact h.flows
  | pass till =>
    rcases next_pass clock f till with hsame | ⟨-, hpassed⟩
    · rw [hsame]
      exact h
    · rw [hpassed]
      exact ⟨h.opened, h.flows⟩
  | wayOut e =>
    rcases next_wayOut clock f e with hsame | ⟨hopen, hdone⟩
    · rw [hsame]
      exact h
    · rw [hdone]
      exact ⟨hopen, h.flows⟩

/-! ## where requests are not limited -/

/-- reads a frame at every instant -/
structure Unlimited (f : Flood) : Prop where
  limiter : f.client.inbound.limiter = none
  waiting : f.waiting = .frame
  now_le : f.now ≤ f.touched + 1

theorem Unlimited.next (h : f.Unlimited) (hopen : f.Open) (clock : Clock) (x : Step) :
    (f.next clock x).Unlimited := by
  rcases quiet_next clock f x with rfl | ⟨till, rfl⟩ | ⟨client, hquiet, hlimiter, htouched⟩
  · have hgoes := hopen.goesOn clock
    generalize f.next clock .goOn = g at hgoes
    cases hgoes with
    | still hwaits => exact h
    | reads bytes rest i hwaiting harrivals hi =>
      have hpay : i.pay clock false .closed f.now bytes = (i, .ended (Inbound.decode bytes)) := by
        unfold Inbound.pay
        rw [hi]
        dsimp only
        rw [h.limiter]
      rw [hpay, hi]
      exact ⟨h.limiter, rfl, Nat.le_succ f.now⟩
    | wakes bytes wake hwaiting hdue =>
      rw [h.waiting] at hwaiting
      cases hwaiting
  · rcases next_pass clock f till with hsame | ⟨hmay, hpassed⟩
    · rw [hsame]
      exact h
    · unfold mayPass at hmay
      rw [h.waiting] at hmay
      simp only [Bool.and_eq_true, beq_iff_eq, decide_eq_true_eq] at hmay
      rw [hpassed]
      refine ⟨h.limiter, h.waiting, ?_⟩
      have hnow := h.now_le
      have htouched : f.touched = f.now := hmay.1.2
      show max f.now till ≤ f.touched + 1
      omega
  · rw [hquiet]
    refine ⟨hlimiter.trans h.limiter, h.waiting, ?_⟩
    show f.now ≤ client.inbound.touched + 1
    rw [htouched]
    exact h.now_le

/-! ## where they are -/

theorem price_pos (h : TokenBucket.minSleep ≤ price) : 0 < price :=
  Nat.lt_of_lt_of_le (by decide) h

/-- How a limited flood stands: it reads, or it sleeps for a token, which will be there. -/
inductive Stands (clock : Clock) (burst price idle : Nat) (f : Flood) : Prop where
  | reads (hwaiting : f.waiting = .frame) (credit last : Nat)
      (hlimiter : f.client.inbound.limiter = some (TokenBucket.exact burst price credit last))
      (hcredit : credit ≤ burst * price) (hlast : last ≤ f.now) (hoffers : clock.Offers f.now)
      (hnow : f.now ≤ f.touched + idle)
  | sleeps (bytes : ByteArray) (wake : Nat) (hwaiting : f.waiting = .token bytes wake)
      (credit : Nat)
      (hlimiter : f.client.inbound.limiter = some (TokenBucket.exact burst price credit f.touched))
      (hmissing : credit < price) (hoffers : clock.Offers wake)
      (henough : f.touched + (price - credit) ≤ wake) (hsoon : wake ≤ f.touched + idle)
      (htouched : f.touched ≤ f.now) (hnow : f.now ≤ wake)

theorem Stands.now_le (h : Stands clock burst price idle f) : f.now ≤ f.touched + idle := by
  cases h with
  | reads _ _ _ _ _ _ _ hnow => exact hnow
  | sleeps _ _ _ _ _ _ _ _ hsoon _ hnow => exact hnow.trans hsoon

theorem Stands.congr {g : Flood} (h : Stands clock burst price idle f)
    (hwaits : g.waiting = f.waiting)
    (hlimits : g.client.inbound.limiter = f.client.inbound.limiter)
    (hheard : g.touched = f.touched) (htime : g.now = f.now) : Stands clock burst price idle g := by
  cases h with
  | reads hwaiting credit last hlimiter hcredit hlast hoffers hnow =>
    rw [← hwaits] at hwaiting
    rw [← hlimits] at hlimiter
    rw [← htime] at hlast hoffers hnow
    rw [← hheard] at hnow
    exact .reads hwaiting credit last hlimiter hcredit hlast hoffers hnow
  | sleeps bytes wake hwaiting credit hlimiter hmissing hoffers henough hsoon htouched hnow =>
    rw [← hwaits] at hwaiting
    rw [← hlimits, ← hheard] at hlimiter
    rw [← hheard] at henough hsoon htouched
    rw [← htime] at htouched hnow
    exact .sleeps bytes wake hwaiting credit hlimiter hmissing hoffers henough hsoon htouched hnow

theorem Stands.goOn (h : Stands clock burst price idle f) (hclock : clock.Lawful) (hopen : f.Open)
    (hburst : burst ≠ 0) (hprice : TokenBucket.minSleep ≤ price)
    (hwithin : clock.Within price idle) : Stands clock burst price idle (f.next clock .goOn) := by
  have hsome := (price_pos hprice).ne'
  have hgoes := hopen.goesOn clock
  generalize f.next clock .goOn = g at hgoes
  cases hgoes with
  | still hwaits => exact h
  | reads bytes rest i hwaiting harrivals hi =>
    cases h with
    | sleeps _ _ htoken => rw [hwaiting] at htoken; cases htoken
    | reads _ credit last hlimiter hcredit hlast hoffers hnow =>
      have hlimiter : i.limiter = some (TokenBucket.exact burst price credit last) := by
        rw [hi]
        exact hlimiter
      have htouched : i.touched = f.now := by rw [hi]
      have hsaved : min (credit + (f.now - last)) (burst * price) ≤ burst * price :=
        Nat.min_le_right _ _
      by_cases htoken : price ≤ min (credit + (f.now - last)) (burst * price)
      · rw [Inbound.pay_of_saved hlimiter hsome hcredit hlast htoken]
        refine .reads rfl _ _ rfl ((Nat.sub_le _ _).trans hsaved) (Nat.le_refl f.now) hoffers ?_
        show f.now ≤ i.touched + idle
        omega
      · have hmissing := Nat.lt_of_not_le htoken
        rw [Inbound.pay_of_missing hlimiter hsome hcredit hlast hmissing]
        generalize min (credit + (f.now - last)) (burst * price) = saved at hmissing
        -- what is missing is no more than the price of a token
        have hsleep : max (price - saved) TokenBucket.minSleep ≤ price := by omega
        have hsoon := hclock.wake_le_of_within hwithin hoffers hsleep
        obtain ⟨⟨hwakes, hdeadline, hlater⟩, -⟩ :=
          hclock.isLeast_wake hoffers (f.now + max (price - saved) TokenBucket.minSleep)
        refine .sleeps bytes _ rfl saved ?_ hmissing hwakes ?_ ?_ ?_ hlater
        · show some (TokenBucket.exact burst price saved f.now) =
            some (TokenBucket.exact burst price saved i.touched)
          rw [htouched]
        · show i.touched + (price - saved) ≤ _
          rw [htouched]
          exact (Nat.add_le_add_left (Nat.le_max_left _ _) _).trans hdeadline
        · show _ ≤ i.touched + idle
          rw [htouched]
          exact hsoon
        · exact htouched.le
  | wakes bytes wake hwaiting hdue =>
    cases h with
    | reads hframe => rw [hwaiting] at hframe; cases hframe
    | sleeps bytes' wake' hwaiting' credit hlimiter hmissing hoffers henough hsoon htouched hnow =>
      rw [hwaiting] at hwaiting'
      cases hwaiting'
      have hwake : f.now = wake := Nat.le_antisymm hnow hdue
      have hone : price ≤ burst * price := Nat.le_mul_of_pos_left price (Nat.pos_of_ne_zero hburst)
      have htoken : price ≤ min (credit + (f.now - f.touched)) (burst * price) := by omega
      rw [Inbound.pay_of_saved hlimiter hsome (by omega) htouched htoken]
      refine .reads rfl _ _ rfl ?_ (Nat.le_refl f.now) (hwake ▸ hoffers) ?_
      · exact (Nat.sub_le _ _).trans (Nat.min_le_right _ _)
      · exact hnow.trans hsoon

theorem Stands.next (h : Stands clock burst price idle f) (hclock : clock.Lawful) (hopen : f.Open)
    (hburst : burst ≠ 0) (hprice : TokenBucket.minSleep ≤ price)
    (hwithin : clock.Within price idle) (x : Step) :
    Stands clock burst price idle (f.next clock x) := by
  rcases quiet_next clock f x with rfl | ⟨till, rfl⟩ | ⟨client, hquiet, hlimiter, htouched⟩
  · exact h.goOn hclock hopen hburst hprice hwithin
  · rcases next_pass clock f till with hsame | ⟨hmay, hpassed⟩
    · rw [hsame]
      exact h
    · rw [hpassed]
      unfold mayPass at hmay
      cases h with
      | reads hwaiting credit last hlim =>
        rw [hwaiting, hlim] at hmay
        cases hmay
      | sleeps bytes wake hwaiting credit hlim hmissing hoffers henough hsoon hbefore hnow =>
        rw [hwaiting] at hmay
        exact .sleeps bytes wake hwaiting credit hlim hmissing hoffers henough hsoon
          (hbefore.trans (Nat.le_max_left _ _)) (Nat.max_le.2 ⟨hnow, of_decide_eq_true hmay⟩)
  · rw [hquiet]
    exact h.congr rfl hlimiter htouched rfl

/-! ## from the start -/

theorem run_append (clock : Clock) (f : Flood) (xs ys : List Step) :
    f.run clock (xs ++ ys) = (f.run clock xs).run clock ys := List.foldl_append

theorem run_pass {till : Nat} (h : f.mayPass till = true) :
    f.run clock [.pass till] = { f with now := max f.now till } := if_pos h

theorem open_made (n : Nat) (p : Profile) (s : Client.Settings) (t : Nat) :
    (made n p s t).Open where
  opened := rfl
  flows := ⟨rfl, List.forall_mem_nil _⟩

/-- What each step preserves holds all along, and nobody is closed. -/
theorem run_induction {P : Flood → Prop} (step : ∀ f x, f.Open → P f → P (f.next clock x))
    (hopen : f.Open) (h : P f) (steps : List Step) : P (f.run clock steps) := by
  induction steps generalizing f with
  | nil => exact h
  | cons x steps ih => exact ih (hopen.next clock x) (step f x hopen h)

theorem touched_le_lastSeen (f : Flood) : f.touched ≤ f.client.lastSeen := by
  unfold Client.lastSeen
  split
  · exact Nat.le_max_right _ _
  · exact Nat.le_refl _

/-- Without a limit, nobody is ever quiet. -/
theorem now_le_of_unlimited {s : Client.Settings}
    (hnone : s.rateLimitBurst = 0 ∨ s.rateLimitRefill = 0) (clock : Clock) (n : Nat) (p : Profile) (t : Nat) (steps : List Step) :
    ((made n p s t).run clock steps).now ≤ ((made n p s t).run clock steps).touched + 1 := by
  have hlimiter : (made n p s t).Unlimited := by
    refine ⟨?_, rfl, Nat.le_succ t⟩
    show TokenBucket.full? s.rateLimitBurst s.rateLimitRefill t = none
    refine if_pos ?_
    rwa [Bool.or_eq_true, beq_iff_eq, beq_iff_eq]
  exact (run_induction (fun _ x hopen h => h.next hopen clock x) (open_made n p s t) hlimiter
    steps).now_le

/-- With one, nobody is quiet for longer than a wait for a token may last. -/
theorem now_le_of_within (hclock : clock.Lawful) {s : Client.Settings}
    (hburst : s.rateLimitBurst ≠ 0) (hprice : TokenBucket.minSleep ≤ s.rateLimitRefill)
    (hwithin : clock.Within s.rateLimitRefill idle) (n : Nat) (p : Profile) {t : Nat}
    (ht : clock.Offers t) (steps : List Step) :
    ((made n p s t).run clock steps).now ≤ ((made n p s t).run clock steps).touched + idle := by
  have hsome := (price_pos hprice).ne'
  have hmade : Stands clock s.rateLimitBurst s.rateLimitRefill idle (made n p s t) :=
    .reads rfl _ t (TokenBucket.full?_exact hburst hsome t) (Nat.le_refl _) (Nat.le_refl t) ht
      (Nat.le_add_right t idle)
  exact (run_induction (fun _ x hopen h => h.next hclock hopen hburst hprice hwithin x)
    (open_made n p s t) hmade steps).now_le

/-! ## the quietest flood -/

/-- All frames have been read at `t`, and there is credit for so many more. -/
structure Spending (burst price t left : Nat) (f : Flood) : Prop where
  flowing : f.Open
  waiting : f.waiting = .frame
  arrivals : f.client.inbound.arrivals = []
  limiter : f.client.inbound.limiter = some (TokenBucket.exact burst price (left * price) t)
  now : f.now = t
  lastSeen : f.client.lastSeen = t

/-- the peer sends a frame, and the call goes on with it -/
def oneMore (clock : Clock) (f : Flood) : Flood := f.run clock [.deliver .empty, .goOn]

theorem run_oneMore (clock : Clock) (f : Flood) (steps : List Step) :
    f.run clock (steps ++ [.deliver .empty, .goOn]) = (f.run clock steps).oneMore clock :=
  run_append clock f steps _

/-- One more frame is read, and is to be paid for. -/
theorem Spending.oneMore_eq {t left : Nat} (h : Spending burst price t left f) (clock : Clock) :
    ∃ i : Inbound Rat, i.hungUp = false ∧ i.arrivals = [] ∧ i.touched = t ∧
      i.limiter = some (TokenBucket.exact burst price (left * price) t) ∧
      f.oneMore clock = f.after
        { f.client with
          inbound := (i.pay clock false .closed t .empty).1, activity := some t }
        (i.pay clock false .closed t .empty).2 := by
  obtain ⟨hopen, hwaiting, harrivals, hlimiter, hnow, -⟩ := h
  have hgoes := (hopen.next clock (.deliver .empty)).goesOn clock
  have hread : (f.client.inbound.deliver (.frame .empty)).arrivals = [.frame .empty] := by
    rw [(flows_deliver hopen.flows _).2, harrivals]
    rfl
  have hlimits : (f.client.inbound.deliver (.frame .empty)).limiter = f.client.inbound.limiter := by
    unfold Inbound.deliver
    split <;> rfl
  show ∃ i : Inbound Rat, _ ∧ _ ∧ _ ∧ _ ∧ (f.next clock (.deliver .empty)).next clock .goOn = _
  generalize (f.next clock (.deliver .empty)).next clock .goOn = g at hgoes
  cases hgoes with
  | still hwaits =>
    rcases hwaits with ⟨-, hnone⟩ | ⟨bytes, wake, htoken, -⟩
    · exact absurd (hread.symm.trans hnone) (List.cons_ne_nil _ _)
    · exact absurd (hwaiting.symm.trans htoken) nofun
  | reads bytes rest i hframe hfirst hi =>
    cases hread.symm.trans hfirst
    refine ⟨i, ?_, ?_, ?_, ?_, ?_⟩
    · rw [hi]
      exact (flows_deliver hopen.flows _).1.1
    · rw [hi]
    · rw [hi]
      exact hnow
    · rw [hi]
      exact hlimits.trans hlimiter
    · show (f.next clock (.deliver .empty)).after
        { f.client with
          inbound := (i.pay clock false .closed f.now .empty).1, activity := some f.now }
        (i.pay clock false .closed f.now .empty).2 = _
      rw [hnow]
      cases (i.pay clock false .closed t .empty).2 <;> rfl
  | wakes bytes wake htoken hdue => exact absurd (hwaiting.symm.trans htoken) nofun

theorem Spending.oneMore {t left : Nat} (h : Spending burst price t (left + 1) f)
    (hprice : price ≠ 0) (hleft : left + 1 ≤ burst) (clock : Clock) :
    Spending burst price t left (f.oneMore clock) := by
  obtain ⟨i, hhung, harrivals, htouched, hlimiter, heq⟩ := h.oneMore_eq clock
  have hcredit : (left + 1) * price ≤ burst * price := Nat.mul_le_mul_right price hleft
  have hsaved : min ((left + 1) * price + (t - t)) (burst * price) = (left + 1) * price := by omega
  have hone : (left + 1) * price - price = left * price := by rw [Nat.succ_mul, Nat.add_sub_cancel]
  have hpay := Inbound.pay_of_saved hlimiter hprice hcredit (Nat.le_refl t)
    (by rw [hsaved, Nat.succ_mul]; exact Nat.le_add_left _ _) clock .empty
  rw [hsaved, hone] at hpay
  rw [heq, hpay]
  refine ⟨⟨h.flowing.opened, hhung, ?_⟩, rfl, harrivals, rfl, h.now, ?_⟩
  · intro a ha
    change a ∈ i.arrivals at ha
    rw [harrivals] at ha
    cases ha
  · show max t i.touched = t
    rw [htouched, Nat.max_self]

/-- Then there is nothing to pay with, and time may go by until the price of a token has come in. -/
theorem Spending.asleep {t : Nat} (h : Spending burst price t 0 f)
    (hprice : TokenBucket.minSleep ≤ price) (clock : Clock) :
    (f.oneMore clock).mayPass (clock (t + price)) = true ∧ (f.oneMore clock).now = t ∧
      (f.oneMore clock).client.lastSeen = t := by
  have hsome := price_pos hprice
  obtain ⟨i, -, -, htouched, hlimiter, heq⟩ := h.oneMore_eq clock
  have hpay := Inbound.pay_of_missing hlimiter hsome.ne' (by omega) (Nat.le_refl t)
    (by omega) clock .empty
  have hzero : min (0 * price + (t - t)) (burst * price) = 0 := by omega
  have hsleep : max (price - 0) TokenBucket.minSleep = price := Nat.max_eq_left hprice
  have hwake : clock.wake t (t + price) = clock (t + price) :=
    if_neg (Nat.not_le_of_lt (Nat.lt_add_of_pos_right hsome))
  dsimp only at hpay
  rw [hzero, hsleep, hwake] at hpay
  rw [heq, hpay]
  refine ⟨decide_eq_true (Nat.le_refl _), h.now, ?_⟩
  show max t i.touched = t
  rw [htouched, Nat.max_self]

theorem exists_spending {s : Client.Settings} (hburst : s.rateLimitBurst ≠ 0)
    (hprice : s.rateLimitRefill ≠ 0) (clock : Clock) (n : Nat) (p : Profile) (t : Nat) :
    ∃ steps, Spending s.rateLimitBurst s.rateLimitRefill t 0 ((made n p s t).run clock steps) := by
  -- as many frames are read as there are tokens
  have hspent : ∀ left ≤ s.rateLimitBurst, ∃ steps,
      Spending s.rateLimitBurst s.rateLimitRefill t left ((made n p s t).run clock steps) := by
    intro left hleft
    induction hleft using Nat.decreasingInduction with
    | self =>
      exact ⟨[], open_made n p s t, rfl, rfl, TokenBucket.full?_exact hburst hprice t, rfl, rfl⟩
    | of_succ left hleft ih =>
      obtain ⟨steps, hsteps⟩ := ih
      refine ⟨steps ++ [.deliver .empty, .goOn], ?_⟩
      rw [run_oneMore]
      exact hsteps.oneMore hprice hleft clock
  exact hspent 0 (Nat.zero_le _)

/-- Where the burst is over, a client is quiet for as long as it takes to refill a token. -/
theorem exists_quiet {s : Client.Settings} (hburst : s.rateLimitBurst ≠ 0)
    (hprice : TokenBucket.minSleep ≤ s.rateLimitRefill) (hclock : clock.Lawful) (n : Nat)
    (p : Profile) (t : Nat) :
    ∃ steps, ((made n p s t).run clock steps).now = clock (t + s.rateLimitRefill) ∧
      ((made n p s t).run clock steps).client.lastSeen = t := by
  have hsome := (price_pos hprice).ne'
  obtain ⟨steps, hsteps⟩ := exists_spending hburst hsome clock n p t
  obtain ⟨hmay, hnow, hseen⟩ := hsteps.asleep hprice clock
  refine ⟨steps ++ [.deliver .empty, .goOn] ++ [.pass (clock (t + s.rateLimitRefill))], ?_⟩
  rw [run_append, run_oneMore, run_pass hmay]
  refine ⟨?_, hseen⟩
  show max (Flood.now _) _ = _
  rw [hnow]
  exact Nat.max_eq_right ((Nat.le_add_right _ _).trans (hclock.le _))

end Flood

end Matchmaker
