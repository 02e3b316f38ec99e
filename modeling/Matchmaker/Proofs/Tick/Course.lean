import Mathlib.Data.List.Induction
import Matchmaker.Proofs.Time.Clock
import Matchmaker.Tick

/-!
# A schedule in use

The owner of a schedule waits for ticks, gives some of these waits up, sleeps in between and says
when a pass is over.  A `Course` is what has come of that so far, and `Firing` is a tick as it was
met: when its wait began, when the tick came, and what it said.

`Timely` says when a tick has to come.  It speaks of the tick before only (`before` is the start,
delay included, for the first one), and so it is one step that carries the whole course: `Steady`
is what every move keeps, and `run_steady` follows it along any list of moves.
-/

namespace Matchmaker.Tick

/-! ## moves -/

inductive Move where
  /-- waits until the tick has come -/
  | await
  /-- waits for the tick, and no longer than the patience lasts -/
  | giveUp (patience : Nat)
  | sleep (length : Nat)
  | endPass
  deriving DecidableEq

/-- a tick that was waited for -/
structure Firing where
  /-- when the wait began -/
  called : Nat
  time : Nat
  info : Info
  deriving DecidableEq

structure Course where
  now : Nat
  schedule : Schedule
  /-- the ticks so far, the first one first -/
  fired : List Firing
  deriving DecidableEq

namespace Course

/-- at the creation of a schedule whose first tick has the delay `jitter` -/
def opened (s : Settings) (jitter creation : Nat) : Course :=
  ⟨creation, Schedule.start s.validated jitter creation, []⟩

/-- A wait without a due time does not end, and a course in which one is awaited stays where it
is.  A wait can still be given up at the instant of its tick. -/
def after (clock : Clock) (c : Course) : Move → Course
  | .await =>
    match c.schedule.wakeTime? clock c.now with
    | none => c
    | some t =>
      { now := t
        schedule := (c.schedule.fire t).1
        fired := c.fired ++ [⟨c.now, t, (c.schedule.fire t).2⟩] }
  | .giveUp patience =>
    let latest := clock.wake c.now (c.now + patience)
    { c with now := ((c.schedule.wakeTime? clock c.now).map (min latest)).getD latest }
  | .sleep length => { c with now := clock.wake c.now (c.now + length) }
  | .endPass => { c with schedule := (c.schedule.endPass c.now).1 }

def run (clock : Clock) (c : Course) (moves : List Move) : Course := moves.foldl (after clock) c

/-- the origin of the schedule and the instants of its ticks -/
def instants (origin : Nat) (c : Course) : List Nat := origin :: c.fired.map Firing.time

/-- the last instant of those -/
def latest (origin : Nat) (c : Course) : Nat := (c.fired.getLast?.map Firing.time).getD origin

end Course

/-! ## when a tick has to come -/

/-- Tick number `n` of a schedule of this period, the tick before having come at `before`. -/
structure Firing.Timely (clock : Clock) (period before n : Nat) (f : Firing) : Prop where
  number : f.info.number = n
  first : IsLeast { t | clock.Offers t ∧ before + period ≤ t ∧ f.called ≤ t } f.time
  skipped : f.info.skipped = (f.time - (before + period)) / period
  le : before + (1 + f.info.skipped) * period ≤ f.time
  lt : f.time < before + (2 + f.info.skipped) * period

theorem timely_fire {clock : Clock} (hclock : clock.Lawful) {s : Schedule} (hperiod : 0 < s.period)
    {before : Nat} (hdue : s.due = some (before + s.period)) {now : Nat} (hnow : clock.Offers now)
    {n : Nat} (hcount : s.count + 1 = n) :
    let t := clock.wake now (before + s.period)
    Firing.Timely clock s.period before n ⟨now, t, (s.fire t).2⟩ := by
  intro t
  have hfirst := hclock.isLeast_wake hnow (before + s.period)
  have hle : before + s.period ≤ t := hfirst.1.2.1
  have hskipped : (s.fire t).2.skipped = (t - (before + s.period)) / s.period := by
    show (t - s.due.getD t) / s.period = _
    rw [hdue, Option.getD_some]
  -- the quotient leaves less than a period over
  have hlo := Nat.div_mul_le_self (t - (before + s.period)) s.period
  have hhi := Nat.lt_div_mul_add hperiod (a := t - (before + s.period))
  refine ⟨hcount, hfirst, hskipped, ?_, ?_⟩
  · show before + (1 + (s.fire t).2.skipped) * s.period ≤ t
    rw [hskipped, Nat.add_mul]
    omega
  · show t < before + (2 + (s.fire t).2.skipped) * s.period
    rw [hskipped, Nat.add_mul]
    omega

namespace Course
variable {clock : Clock} {period origin : Nat} {c : Course}

theorem run_append (moves more : List Move) :
    c.run clock (moves ++ more) = (c.run clock moves).run clock more := List.foldl_append

theorem run_concat (moves : List Move) (m : Move) :
    c.run clock (moves ++ [m]) = (c.run clock moves).after clock m := run_append moves [m]

theorem after_sleep (length : Nat) :
    c.after clock (.sleep length) = { c with now := clock.wake c.now (c.now + length) } := rfl

theorem after_endPass :
    c.after clock .endPass = { c with schedule := (c.schedule.endPass c.now).1 } := rfl

theorem getElem?_instants_length :
    (c.instants origin)[c.fired.length]? = some (c.latest origin) := by
  unfold instants latest
  induction c.fired using List.reverseRecOn with
  | nil => rfl
  | append_singleton fs f _ => simp

/-! ## what every move keeps -/

/-- `c` is a course of a schedule of this period, and its first tick follows on `origin` -/
structure Steady (clock : Clock) (period origin : Nat) (c : Course) : Prop where
  offers : clock.Offers c.now
  period_eq : c.schedule.period = period
  due : c.schedule.due = some (c.latest origin + period)
  count : c.schedule.count = c.fired.length
  timely : ∀ i before (f : Firing), (c.instants origin)[i]? = some before →
    c.fired[i]? = some f → f.Timely clock period before (i + 1)
  apart : (c.instants origin).Pairwise fun t u => t + period ≤ u
  le_latest : ∀ t ∈ c.instants origin, t ≤ c.latest origin

theorem steady_opened {s : Settings} (hperiod : 0 < s.period) (jitter : Nat) {creation : Nat}
    (hcreation : clock.Offers creation) :
    (opened s jitter creation).Steady clock s.period (creation + jitter) where
  offers := hcreation
  period_eq := rfl
  due := by
    have henabled : s.validated.isDisabled = false := beq_false_of_ne hperiod.ne'
    show (if s.validated.isDisabled then none else some (creation + s.period + jitter)) = _
    rw [henabled, if_neg Bool.false_ne_true, Nat.add_right_comm]
    rfl
  count := rfl
  timely i before f _ hf := by cases hf
  apart := List.pairwise_singleton _ _
  le_latest t ht := (List.mem_singleton.1 ht).le

namespace Steady
variable (h : c.Steady clock period origin)
include h

theorem wakeTime? :
    c.schedule.wakeTime? clock c.now = some (clock.wake c.now (c.latest origin + period)) := by
  unfold Schedule.wakeTime?
  rw [h.due, Option.map_some]

theorem after_await :
    c.after clock .await =
      { now := clock.wake c.now (c.latest origin + period)
        schedule := (c.schedule.fire (clock.wake c.now (c.latest origin + period))).1
        fired := c.fired ++ [⟨c.now, clock.wake c.now (c.latest origin + period),
          (c.schedule.fire (clock.wake c.now (c.latest origin + period))).2⟩] } := by
  unfold after
  rw [h.wakeTime?]

theorem after_giveUp (patience : Nat) :
    c.after clock (.giveUp patience) =
      { c with
        now := min (clock.wake c.now (c.now + patience))
          (clock.wake c.now (c.latest origin + period)) } := by
  unfold after
  rw [h.wakeTime?]
  rfl

/-- nothing but the time and the pass changes -/
theorem of_eq {c' : Course} (hnow : clock.Offers c'.now) (hfired : c'.fired = c.fired)
    (hschedule : ∃ passStarted, c'.schedule = { c.schedule with passStarted }) :
    c'.Steady clock period origin := by
  obtain ⟨now, schedule, fired⟩ := c'
  obtain ⟨passStarted, rfl⟩ := hschedule
  cases hfired
  exact ⟨hnow, h.period_eq, h.due, h.count, h.timely, h.apart, h.le_latest⟩

theorem await (hclock : clock.Lawful) (hperiod : 0 < period) :
    (c.after clock .await).Steady clock period origin := by
  have htimely := timely_fire hclock (h.period_eq ▸ hperiod) (h.period_eq ▸ h.due) h.offers
    (n := c.fired.length + 1) (by rw [h.count])
  rw [h.period_eq] at htimely
  rw [h.after_await]
  generalize clock.wake c.now (c.latest origin + period) = t at htimely ⊢
  obtain ⟨hoffers, hdue, -⟩ := htimely.first.1
  have hinstants : instants origin ⟨t, (c.schedule.fire t).1,
      c.fired ++ [⟨c.now, t, (c.schedule.fire t).2⟩]⟩ = c.instants origin ++ [t] := by
    simp [instants]
  have hlatest : latest origin ⟨t, (c.schedule.fire t).1,
      c.fired ++ [⟨c.now, t, (c.schedule.fire t).2⟩]⟩ = t := by
    simp [latest]
  refine ⟨hoffers, h.period_eq, ?_, ?_, ?_, ?_, ?_⟩
  · show some (t + c.schedule.period) = _
    rw [hlatest, h.period_eq]
  · show c.schedule.count + 1 = (c.fired ++ [_]).length
    rw [List.length_append, h.count]
    rfl
  · intro i before f hbefore hf
    rw [hinstants] at hbefore
    have hlength : (c.instants origin).length = c.fired.length + 1 := by simp [instants]
    rcases Nat.lt_trichotomy i c.fired.length with hi | rfl | hi
    · rw [List.getElem?_append_left (by omega)] at hbefore
      rw [List.getElem?_append_left hi] at hf
      exact h.timely i before f hbefore hf
    · rw [List.getElem?_append_left (by omega), getElem?_instants_length] at hbefore
      rw [List.getElem?_concat_length] at hf
      cases hbefore
      cases hf
      exact htimely
    · rw [List.getElem?_eq_none (by rw [List.length_append]; exact hi)] at hf
      cases hf
  · rw [hinstants, List.pairwise_append]
    refine ⟨h.apart, List.pairwise_singleton _ _, fun u hu v hv => ?_⟩
    cases List.mem_singleton.1 hv
    exact (Nat.add_le_add_right (h.le_latest u hu) period).trans hdue
  · intro u hu
    rw [hinstants, List.mem_append, List.mem_singleton] at hu
    rw [hlatest]
    rcases hu with hu | rfl
    · exact (h.le_latest u hu).trans ((Nat.le_add_right _ period).trans hdue)
    · exact Nat.le_refl _

theorem after (hclock : clock.Lawful) (hperiod : 0 < period) (m : Move) :
    (c.after clock m).Steady clock period origin := by
  cases m with
  | await => exact h.await hclock hperiod
  | giveUp patience =>
    rw [h.after_giveUp]
    refine h.of_eq ?_ rfl ⟨c.schedule.passStarted, rfl⟩
    exact Clock.offers_min (hclock.offers_wake h.offers _) (hclock.offers_wake h.offers _)
  | sleep length =>
    exact h.of_eq (hclock.offers_wake h.offers _) rfl ⟨c.schedule.passStarted, rfl⟩
  | endPass => exact h.of_eq h.offers rfl ⟨none, rfl⟩

theorem run (hclock : clock.Lawful) (hperiod : 0 < period) (moves : List Move) :
    (c.run clock moves).Steady clock period origin := by
  induction moves generalizing c with
  | nil => exact h
  | cons m moves ih => exact ih (h.after hclock hperiod m)

/-- A wait that is given up is a sleep. -/
theorem exists_sleep (hclock : clock.Lawful) (patience : Nat) :
    ∃ length, c.after clock (.giveUp patience) = c.after clock (.sleep length) := by
  rw [h.after_giveUp]
  have hle : c.now ≤ min (clock.wake c.now (c.now + patience))
      (clock.wake c.now (c.latest origin + period)) :=
    le_min (hclock.le_wake _ _) (hclock.le_wake _ _)
  have hoffers : clock.Offers (min (clock.wake c.now (c.now + patience))
      (clock.wake c.now (c.latest origin + period))) :=
    Clock.offers_min (hclock.offers_wake h.offers _) (hclock.offers_wake h.offers _)
  generalize min (clock.wake c.now (c.now + patience))
    (clock.wake c.now (c.latest origin + period)) = t at hle hoffers ⊢
  refine ⟨t - c.now, ?_⟩
  rw [after_sleep, Nat.add_sub_cancel' hle, Clock.wake_of_offers hoffers hle]

theorem now_le (hclock : clock.Lawful) (m : Move) : c.now ≤ (c.after clock m).now := by
  cases m with
  | await =>
    rw [h.after_await]
    exact hclock.le_wake _ _
  | giveUp patience =>
    rw [h.after_giveUp]
    exact le_min (hclock.le_wake _ _) (hclock.le_wake _ _)
  | sleep length => exact hclock.le_wake _ _
  | endPass => exact Nat.le_refl _

theorem now_le_run (hclock : clock.Lawful) (hperiod : 0 < period) (moves : List Move) :
    c.now ≤ (c.run clock moves).now := by
  induction moves generalizing c with
  | nil => exact Nat.le_refl _
  | cons m moves ih => exact (h.now_le hclock m).trans (ih (h.after hclock hperiod m))

/-- as many ticks come as are awaited -/
theorem length_fired (hclock : clock.Lawful) (hperiod : 0 < period) (moves : List Move) :
    (c.run clock moves).fired.length = c.fired.length + moves.count .await := by
  induction moves generalizing c with
  | nil => rfl
  | cons m moves ih =>
    show ((c.after clock m).run clock moves).fired.length = _
    rw [ih (h.after hclock hperiod m)]
    cases m with
    | await =>
      rw [h.after_await, List.count_cons_self, List.length_append, List.length_singleton]
      omega
    | giveUp _ => rfl
    | sleep _ => rfl
    | endPass => rfl

end Steady

/-! ## passes -/

/-- the pass of the tick awaited after `earlier` goes on -/
def Underway (moves earlier : List Move) : Prop :=
  ∃ since, moves = earlier ++ .await :: since ∧ ∀ m ∈ since, m ≠ .await ∧ m ≠ .endPass

theorem not_underway_nil (earlier : List Move) : ¬ Underway [] earlier := by
  rintro ⟨since, h, -⟩
  exact List.append_ne_nil_of_right_ne_nil earlier (List.cons_ne_nil _ since) h.symm

theorem underway_concat_iff {moves earlier : List Move} {m : Move} :
    Underway (moves ++ [m]) earlier ↔
      m = .await ∧ earlier = moves ∨ m ≠ .await ∧ m ≠ .endPass ∧ Underway moves earlier := by
  constructor
  · rintro ⟨since, h, hsince⟩
    rcases List.eq_nil_or_concat since with rfl | ⟨since, last, rfl⟩
    · obtain ⟨rfl, rfl⟩ := List.append_singleton_inj.1 h
      exact .inl ⟨rfl, rfl⟩
    · rw [List.concat_eq_append] at h hsince
      rw [← List.cons_append, ← List.append_assoc] at h
      obtain ⟨hmoves, rfl⟩ := List.append_singleton_inj.1 h
      obtain ⟨hawait, hend⟩ := hsince m (List.mem_append_right _ (List.mem_singleton_self m))
      exact .inr ⟨hawait, hend, since, hmoves, fun x hx => hsince x (List.mem_append_left _ hx)⟩
  · rintro (⟨rfl, rfl⟩ | ⟨hawait, hend, since, rfl, hsince⟩)
    · exact ⟨[], rfl, List.forall_mem_nil _⟩
    · refine ⟨since ++ [m], by simp, fun x hx => ?_⟩
      rcases List.mem_append.1 hx with hx | hx
      · exact hsince x hx
      · cases List.mem_singleton.1 hx
        exact ⟨hawait, hend⟩

/-- A pass goes on from its tick until it is ended, or until the next tick. -/
theorem Steady.passStarted_run (h : c.Steady clock period origin) (hclock : clock.Lawful)
    (hperiod : 0 < period) (hnone : c.schedule.passStarted = none) (moves : List Move) (t : Nat) :
    (c.run clock moves).schedule.passStarted = some t ↔
      ∃ earlier, Underway moves earlier ∧ (c.run clock (earlier ++ [.await])).now = t := by
  induction moves using List.reverseRecOn with
  | nil =>
    show c.schedule.passStarted = _ ↔ _
    rw [hnone]
    constructor
    · rintro ⟨⟩
    · rintro ⟨earlier, hunderway, -⟩
      exact absurd hunderway (not_underway_nil earlier)
  | append_singleton moves m ih =>
    have hrun := h.run hclock hperiod moves
    simp only [underway_concat_iff]
    rw [run_concat]
    cases m with
    | await =>
      have hstarted : ((c.run clock moves).after clock .await).schedule.passStarted =
          some ((c.run clock moves).after clock .await).now := by
        rw [hrun.after_await]
        rfl
      rw [hstarted, Option.some.injEq]
      constructor
      · rintro rfl
        exact ⟨moves, .inl ⟨rfl, rfl⟩, by rw [run_concat]⟩
      · rintro ⟨earlier, ⟨-, rfl⟩ | ⟨hne, -⟩, rfl⟩
        · rw [run_concat]
        · exact absurd rfl hne
    | giveUp patience =>
      rw [hrun.after_giveUp]
      simpa using ih
    | sleep length =>
      rw [after_sleep]
      simpa using ih
    | endPass =>
      rw [after_endPass]
      simp [Schedule.endPass]

/-- What the end of a pass answers: how long ago its tick came. -/
theorem Steady.endPass_eq_some_iff (h : c.Steady clock period origin) (hclock : clock.Lawful)
    (hperiod : 0 < period) (hnone : c.schedule.passStarted = none) (moves : List Move) (d : Nat) :
    ((c.run clock moves).schedule.endPass (c.run clock moves).now).2 = some d ↔
      ∃ earlier, Underway moves earlier ∧
        (c.run clock (earlier ++ [.await])).now + d = (c.run clock moves).now := by
  have hstarted := h.passStarted_run hclock hperiod hnone moves
  show (c.run clock moves).schedule.passStarted.map _ = some d ↔ _
  rw [Option.map_eq_some_iff]
  constructor
  · rintro ⟨t, ht, rfl⟩
    obtain ⟨earlier, hunderway, rfl⟩ := (hstarted t).1 ht
    refine ⟨earlier, hunderway, Nat.add_sub_cancel' ?_⟩
    obtain ⟨since, rfl, -⟩ := hunderway
    have hwas := h.run hclock hperiod (earlier ++ [.await])
    have hle := hwas.now_le_run hclock hperiod since
    rwa [← run_append, ← List.append_cons] at hle
  · rintro ⟨earlier, hunderway, hd⟩
    refine ⟨_, (hstarted _).2 ⟨earlier, hunderway, rfl⟩, ?_⟩
    rw [← hd, Nat.add_sub_cancel_left]

/-! ## the course of a schedule -/

/-- **Ticks keep to their schedule.**  Whatever its owner does, and however late: every wait that
is not given up ends with a tick; the ticks are counted from one; each comes at the first instant
that is neither before the wait for it nor less than a period after the tick before it, and says
how many whole periods went by in between; a wait that is given up comes to no more than a sleep;
and the end of a pass is told how long ago the tick was, once. -/
theorem ticks_keep_schedule (clock : Clock) (hclock : clock.Lawful) (s : Settings)
    (hperiod : 0 < s.period) (jitter creation : Nat) (hcreation : clock.Offers creation)
    (moves : List Move) :
    let c := (opened s jitter creation).run clock moves
    c.fired.length = moves.count .await ∧
    (∀ i before (f : Firing), (c.instants (creation + jitter))[i]? = some before →
      c.fired[i]? = some f → f.Timely clock s.period before (i + 1)) ∧
    (c.instants (creation + jitter)).Pairwise (fun t u => t + s.period ≤ u) ∧
    (∀ earlier patience later, moves = earlier ++ .giveUp patience :: later →
      let was := (opened s jitter creation).run clock earlier
      (∃ now, was.after clock (.giveUp patience) = { was with now }) ∧
      ∃ length, c = (opened s jitter creation).run clock (earlier ++ .sleep length :: later)) ∧
    ∀ d, (c.schedule.endPass c.now).2 = some d ↔
      ∃ earlier, Underway moves earlier ∧
        ((opened s jitter creation).run clock (earlier ++ [.await])).now + d = c.now := by
  have h := steady_opened hperiod jitter hcreation
  have hrun := h.run hclock hperiod moves
  refine ⟨?_, hrun.timely, hrun.apart, ?_, h.endPass_eq_some_iff hclock hperiod rfl moves⟩
  · rw [h.length_fired hclock hperiod]
    exact Nat.zero_add _
  · rintro earlier patience later rfl
    have hwas := h.run hclock hperiod earlier
    refine ⟨⟨_, hwas.after_giveUp patience⟩, ?_⟩
    obtain ⟨length, hlength⟩ := hwas.exists_sleep hclock patience
    refine ⟨length, ?_⟩
    rw [run_append, run_append]
    show Course.run clock (Course.after clock _ _) later =
      Course.run clock (Course.after clock _ _) later
    rw [hlength]

/-- late for the first tick, then impatient, then late with the end of the first pass -/
def lateMoves : List Move :=
  [.sleep (6100 * nanosPerMilli), .await, .giveUp (500 * nanosPerMilli), .endPass, .endPass, .await]

theorem ticks_keep_schedule_sample :
    let s : Settings := { period := 2000 * nanosPerMilli }
    let c := (opened s (250 * nanosPerMilli) 0).run .millis lateMoves
    let second : Firing := ⟨6600 * nanosPerMilli, 8100 * nanosPerMilli, 2, 0⟩
    0 < s.period ∧ Clock.millis.Offers 0 ∧
    c.fired = [⟨6100 * nanosPerMilli, 6100 * nanosPerMilli, 1, 1⟩, second] ∧
    second.Timely .millis s.period (6100 * nanosPerMilli) 2 ∧
    ∃ earlier, Underway lateMoves earlier ∧
      ((opened s (250 * nanosPerMilli) 0).run .millis (earlier ++ [.await])).now + 0 = c.now := by
  have hperiod : 0 < ({ period := 2000 * nanosPerMilli } : Settings).period := by decide
  have hfired : ((opened { period := 2000 * nanosPerMilli } (250 * nanosPerMilli) 0).run .millis
      lateMoves).fired = [⟨6100 * nanosPerMilli, 6100 * nanosPerMilli, 1, 1⟩,
        ⟨6600 * nanosPerMilli, 8100 * nanosPerMilli, 2, 0⟩] := by
    decide +kernel
  obtain ⟨-, htimely, -, -, hend⟩ := ticks_keep_schedule .millis Clock.lawful_millis
    { period := 2000 * nanosPerMilli } hperiod (250 * nanosPerMilli) 0 rfl lateMoves
  refine ⟨hperiod, rfl, hfired, htimely 1 (6100 * nanosPerMilli) _ ?_ ?_, (hend 0).1 ?_⟩
  · rw [instants, hfired]
    rfl
  · rw [hfired]
    rfl
  · decide +kernel

end Course
end Matchmaker.Tick
