import Mathlib.Data.List.Induction
import Matchmaker.Client.Outbound

/-!
# What is accepted is written, in order

Responses are put into the queue of a client, and its writer takes its turns, in any order and
together with whatever else can happen to the way out: it is started, closed or told that the
process shuts down, and writes and pings begin to fail.  Each of these is an `Event`.

The queue and the connection share the accepted responses between them (`Shares`).  What was
written comes first, and as long as the client is open what waits is all the rest.  So a response
can only be lost by closing the client, or by a write or a ping that fails, which closes it as well
(`closed_run`).  A writer that stops for another reason has written everything.
-/

namespace Matchmaker.Client.Outbound

open Protocol (Response)

/-- what happens to the way out of a client without being interrupted -/
inductive Event where
  | send (r : Response)
  | start (now : Nat)
  | close
  | shutDown
  /-- the writer takes a turn, if it has anything to do -/
  | turn (now : Nat)
  /-- from now on writes or pings fail, or work again -/
  | fail (writeFails pingFails : Bool)
  deriving DecidableEq

def next (o : Outbound) : Event → Outbound
  | .send r =>
    match o.send r with
    | .ok p => p
    | .error _ => o
  | .start now => o.start now
  | .close => o.close
  | .shutDown => o.shutDown
  | .turn now => (o.turn? now).getD o
  | .fail writeFails pingFails => { o with link := { o.link with writeFails, pingFails } }

def run (o : Outbound) (es : List Event) : Outbound := es.foldl next o

theorem run_concat (o : Outbound) (es : List Event) (e : Event) :
    o.run (es ++ [e]) = (o.run es).next e := List.foldl_append

/-- the response that an event puts into the queue -/
def accepts (o : Outbound) : Event → List Response
  | .send r =>
    match o.send r with
    | .ok _ => [r]
    | .error _ => []
  | _ => []

/-- the responses accepted in a run, the first of them first -/
def accepted (o : Outbound) : List Event → List Response
  | [] => []
  | e :: es => o.accepts e ++ (o.next e).accepted es

theorem accepted_concat (o : Outbound) (es : List Event) (e : Event) :
    o.accepted (es ++ [e]) = o.accepted es ++ (o.run es).accepts e := by
  induction es generalizing o with
  | nil => exact List.append_nil _
  | cons f es ih =>
    show o.accepts f ++ (o.next f).accepted (es ++ [e]) = _
    rw [ih, ← List.append_assoc]
    rfl

/-- the writer writes or pings, and that fails -/
def fails (o : Outbound) : Event → Bool
  | .turn now =>
    match o.writer with
    | .running pingDue =>
      !o.closed && match o.queue with
        | r :: _ => !(o.link.write r.text).2
        | [] => !o.shutdown && pingDue ≤ now && !o.link.ping.2
    | _ => false
  | _ => false

/-- a write or a ping fails in a run -/
def failsIn (o : Outbound) : List Event → Bool
  | [] => false
  | e :: es => o.fails e || (o.next e).failsIn es

/-- The writer waits for something to do, or has stopped. -/
def Rests (o : Outbound) (now : Nat) : Prop :=
  (∃ pingDue, o.writer = .running pingDue ∧ o.turn? now = none) ∨ o.writer = .stopped

/-! ## one event -/

variable {o : Outbound} {r : Response} {owner : SteamId} {now limit : Nat}

theorem send_of_room (hopen : o.closed = false) (hwriter : o.writer ≠ .stopped)
    (hroom : o.queue.length < o.capacity) :
    o.send r = .ok { o with queue := o.queue ++ [r] } := by
  have hstopped : o.isStopped = false := beq_eq_false_iff_ne.2 hwriter
  unfold send
  rw [hopen, hstopped, Bool.or_self, if_neg Bool.false_ne_true, if_pos hroom]

theorem send_of_full (hopen : o.closed = false) (hwriter : o.writer ≠ .stopped)
    (hfull : ¬ o.queue.length < o.capacity) : o.send r = .error (.queueFull o.owner) := by
  have hstopped : o.isStopped = false := beq_eq_false_iff_ne.2 hwriter
  unfold send
  rw [hopen, hstopped, Bool.or_self, if_neg Bool.false_ne_true, if_neg hfull]

theorem send_of_over (hover : o.closed = true ∨ o.writer = .stopped) :
    o.send r = .error .closed := by
  have hrefuses : (o.closed || o.isStopped) = true := by
    rcases hover with h | h
    · rw [h, Bool.true_or]
    · rw [isStopped, h, beq_self_eq_true, Bool.or_true]
  unfold send
  rw [if_pos hrefuses]

/-- Sending adds to the queue while there is room, and does nothing else. -/
theorem sent_or_refused (o : Outbound) (r : Response) :
    (o.closed = false ∧ o.writer ≠ .stopped ∧ o.queue.length < o.capacity ∧
      o.send r = .ok { o with queue := o.queue ++ [r] }) ∨ ∃ e, o.send r = .error e := by
  by_cases hover : o.closed = true ∨ o.writer = .stopped
  · exact .inr ⟨_, send_of_over hover⟩
  · obtain ⟨hopen, hwriter⟩ := not_or.1 hover
    have hopen : o.closed = false := Bool.eq_false_iff.2 hopen
    by_cases hroom : o.queue.length < o.capacity
    · exact .inl ⟨hopen, hwriter, hroom, send_of_room hopen hwriter hroom⟩
    · exact .inr ⟨_, send_of_full hopen hwriter hroom⟩

theorem next_of_sent {p : Outbound} (h : o.send r = .ok p) :
    o.next (.send r) = p ∧ o.accepts (.send r) = [r] := by
  unfold next accepts
  simp only [h, and_self]

/-- A response that is refused might as well not have been sent. -/
theorem next_of_refused {e : ClientError} (h : o.send r = .error e) :
    o.next (.send r) = o ∧ o.accepts (.send r) = [] := by
  unfold next accepts
  simp only [h, and_self]

theorem exists_queue_of_send (o : Outbound) (r : Response) :
    ∃ queue, o.next (.send r) = { o with queue } := by
  rcases sent_or_refused o r with ⟨-, -, -, hsent⟩ | ⟨e, hrefused⟩
  · exact ⟨_, (next_of_sent hsent).1⟩
  · exact ⟨o.queue, (next_of_refused hrefused).1⟩

/-- what a turn of the writer can be -/
inductive Taken (o : Outbound) (now : Nat) : Outbound → Prop where
  | stops (pingDue : Nat) (hrunning : o.writer = .running pingDue)
      (hwhy : o.closed = true ∨ o.closed = false ∧ o.queue = [] ∧ o.shutdown = true) :
      Taken o now o.stop
  | writes (pingDue : Nat) (hrunning : o.writer = .running pingDue) (hopen : o.closed = false)
      (r : Response) (rest : List Response) (hqueue : o.queue = r :: rest) :
      Taken o now ({ o with queue := rest }.write r)
  | pings (pingDue : Nat) (hrunning : o.writer = .running pingDue) (hopen : o.closed = false)
      (hqueue : o.queue = []) (hgoesOn : o.shutdown = false) (hdue : pingDue ≤ now) :
      Taken o now (o.ping now)
  | closes (hwriter : ∀ pingDue, o.writer ≠ .running pingDue) (hclosing : o.closing = true) :
      Taken o now { o with closing := false, link := o.link.close }

theorem taken_of_turn? {p : Outbound} (h : o.turn? now = some p) : Taken o now p := by
  unfold turn? at h
  split at h
  · rename_i pingDue hrunning
    split at h
    · rename_i hclosed
      cases h
      exact .stops pingDue hrunning (.inl hclosed)
    · rename_i hopen
      have hopen : o.closed = false := Bool.eq_false_iff.2 hopen
      split at h
      · rename_i r rest hqueue
        cases h
        exact .writes pingDue hrunning hopen r rest hqueue
      · rename_i hqueue
        split at h
        · rename_i hshutdown
          cases h
          exact .stops pingDue hrunning (.inr ⟨hopen, hqueue, hshutdown⟩)
        · rename_i hgoesOn
          split at h
          · rename_i hdue
            cases h
            exact .pings pingDue hrunning hopen hqueue (Bool.eq_false_iff.2 hgoesOn) hdue
          · cases h
  · rename_i hwriter
    split at h
    · rename_i hclosing
      cases h
      exact .closes hwriter hclosing
    · cases h

theorem taken_turn (o : Outbound) (now : Nat) :
    o.next (.turn now) = o ∨ Taken o now (o.next (.turn now)) := by
  show (o.turn? now).getD o = o ∨ Taken o now ((o.turn? now).getD o)
  cases h : o.turn? now with
  | none => exact .inl rfl
  | some p => exact .inr (taken_of_turn? h)

/-! ## the writer and the connection -/

/-- how much waits, what a stopped writer has left, and how often the connection was closed -/
structure Sound (owner : SteamId) (limit : Nat) (o : Outbound) : Prop where
  owner : o.owner = owner
  capacity : o.capacity = limit
  period : 0 < o.period
  room : o.queue.length ≤ limit
  emptied : o.writer = .stopped → o.queue = []
  released : o.writer = .stopped → o.closed = false → o.shutdown = true
  closing : o.closing = true → o.closed = true
  closes : o.link.closes + o.closing.toNat = o.isStopped.toNat

theorem sound_new (owner : SteamId) (s : Settings) :
    Sound owner (max 1 s.outboundCapacity) (.new owner s) where
  owner := rfl
  capacity := Nat.max_comm s.outboundCapacity 1
  period := Nat.lt_of_lt_of_le (by decide) (Nat.le_max_right s.keepaliveInterval minPeriod)
  room := Nat.zero_le _
  emptied _ := rfl
  released h := by cases h
  closing h := by cases h
  closes := rfl

theorem closes_write (l : Link) (text : String) : (l.write text).1.closes = l.closes := by
  unfold Link.write
  split <;> rfl

theorem closes_ping (l : Link) : l.ping.1.closes = l.closes := by
  unfold Link.ping
  split <;> rfl

theorem isStopped_of_running {pingDue : Nat} (h : o.writer = .running pingDue) :
    o.isStopped = false := by
  rw [isStopped, h]
  rfl

theorem Sound.taken (h : Sound owner limit o) {p : Outbound} (ht : Taken o now p) :
    Sound owner limit p := by
  have hcloses := h.closes
  cases ht with
  | stops pingDue hrunning hwhy =>
    rw [isStopped_of_running hrunning] at hcloses
    refine ⟨h.owner, h.capacity, h.period, Nat.zero_le _, fun _ => rfl, fun _ hopen => ?_,
      h.closing, ?_⟩
    · change o.closed = false at hopen
      rcases hwhy with hclosed | ⟨-, -, hshutdown⟩
      · rw [hclosed] at hopen
        cases hopen
      · exact hshutdown
    · show o.link.closes + 1 + o.closing.toNat = 1
      have hnone : o.link.closes + o.closing.toNat = 0 := hcloses
      omega
  | writes pingDue hrunning hopen r rest hqueue =>
    have hroom : rest.length + 1 ≤ limit := by
      have := h.room
      rwa [hqueue] at this
    have hwriter : o.writer ≠ .stopped := by rw [hrunning]; exact fun h => by cases h
    have hclosing : o.closing = true → (o.closed || !(o.link.write r.text).2) = true := fun hc => by
      rw [h.closing hc, Bool.true_or]
    refine ⟨h.owner, h.capacity, h.period, Nat.le_of_succ_le hroom, fun hw => absurd hw hwriter,
      fun hw => absurd hw hwriter, hclosing, ?_⟩
    show (o.link.write r.text).1.closes + o.closing.toNat = o.isStopped.toNat
    rw [closes_write, hcloses]
  | pings pingDue hrunning hopen hqueue hgoesOn hdue =>
    have hclosing : o.closing = true → (o.closed || !o.link.ping.2) = true := fun hc => by
      rw [h.closing hc, Bool.true_or]
    refine ⟨h.owner, h.capacity, h.period, h.room, fun hw => (by cases hw), fun hw => (by cases hw),
      hclosing, ?_⟩
    rw [isStopped_of_running hrunning] at hcloses
    show o.link.ping.1.closes + o.closing.toNat = 0
    rw [closes_ping]
    exact hcloses
  | closes hwriter hclosing =>
    refine ⟨h.owner, h.capacity, h.period, h.room, h.emptied, h.released,
      fun hc => (by cases hc), ?_⟩
    rw [hclosing] at hcloses
    exact hcloses

theorem Sound.next (h : Sound owner limit o) (e : Event) : Sound owner limit (o.next e) := by
  cases e with
  | send r =>
    rcases sent_or_refused o r with ⟨-, hwriter, hroom, hsent⟩ | ⟨e, hrefused⟩
    · rw [(next_of_sent hsent).1]
      refine ⟨h.owner, h.capacity, h.period, ?_, fun hw => absurd hw hwriter,
        fun hw => absurd hw hwriter, h.closing, h.closes⟩
      rw [h.capacity] at hroom
      rw [List.length_append]
      exact hroom
    · rw [(next_of_refused hrefused).1]
      exact h
  | start now =>
    show Sound owner limit (o.start now)
    unfold start
    split
    · rename_i hidle
      have hcloses := h.closes
      rw [isStopped, hidle] at hcloses
      exact ⟨h.owner, h.capacity, h.period, h.room, fun hw => (by cases hw),
        fun hw => (by cases hw), h.closing, hcloses⟩
    · exact h
  | close =>
    show Sound owner limit o.close
    unfold close
    split
    · rename_i hidle
      have hcloses := h.closes
      rw [isStopped, hidle] at hcloses
      have hnone : o.link.closes + o.closing.toNat = 0 := hcloses
      refine ⟨h.owner, h.capacity, h.period, Nat.zero_le _, fun _ => rfl,
        fun _ hopen => (by cases hopen), fun _ => rfl, ?_⟩
      show o.link.closes + 1 = 1
      omega
    · exact ⟨h.owner, h.capacity, h.period, h.room, h.emptied, fun _ hopen => (by cases hopen),
        fun _ => rfl, h.closes⟩
  | shutDown =>
    exact ⟨h.owner, h.capacity, h.period, h.room, h.emptied, fun _ _ => rfl, h.closing, h.closes⟩
  | turn now =>
    rcases taken_turn o now with hsame | htaken
    · rw [hsame]
      exact h
    · exact h.taken htaken
  | fail writeFails pingFails =>
    exact ⟨h.owner, h.capacity, h.period, h.room, h.emptied, h.released, h.closing, h.closes⟩

theorem sound_run (h : Sound owner limit o) (es : List Event) : Sound owner limit (o.run es) := by
  induction es generalizing o with
  | nil => exact h
  | cons e es ih => exact ih (h.next e)

/-! ## what becomes of accepted responses -/

/-- Of the accepted responses the first were written, and the last wait.  Those in between are lost,
and as long as the client is open there are none. -/
def Shares (accepted : List Response) (o : Outbound) : Prop :=
  ∃ done rest, accepted = done ++ rest ∧ o.link.written = done.map Response.text ∧
    o.queue <:+ rest ∧ (o.closed = false → rest = o.queue)

theorem written_write (l : Link) (text : String) :
    (l.write text).1.written = if (l.write text).2 then l.written ++ [text] else l.written := by
  unfold Link.write
  split <;> rfl

theorem written_ping (l : Link) : l.ping.1.written = l.written := by
  unfold Link.ping
  split <;> rfl

theorem shares_taken {accepted : List Response} {p : Outbound} (h : Shares accepted o)
    (ht : Taken o now p) : Shares accepted p := by
  obtain ⟨done, rest, hsplit, hwritten, hwaits, hall⟩ := h
  cases ht with
  | stops pingDue hrunning hwhy =>
    refine ⟨done, rest, hsplit, hwritten, List.nil_suffix, fun hopen => ?_⟩
    change o.closed = false at hopen
    rcases hwhy with hclosed | ⟨-, hqueue, -⟩
    · rw [hclosed] at hopen
      cases hopen
    · exact (hall hopen).trans hqueue
  | writes pingDue hrunning hopen r waiting hqueue =>
    have hrest : rest = r :: waiting := (hall hopen).trans hqueue
    have hafter : (o.link.write r.text).1.written = _ := written_write o.link r.text
    cases hworked : (o.link.write r.text).2 with
    | true =>
      rw [hworked, if_pos rfl, hwritten] at hafter
      refine ⟨done ++ [r], waiting, ?_, ?_, List.suffix_rfl, fun _ => rfl⟩
      · rw [hsplit, hrest, List.append_assoc, List.singleton_append]
      · rw [List.map_append]
        exact hafter
    | false =>
      -- the response is taken and not written, and the client is closed
      rw [hworked, if_neg Bool.false_ne_true, hwritten] at hafter
      refine ⟨done, rest, hsplit, hafter, ?_, fun hstill => ?_⟩
      · rw [hrest]
        exact List.suffix_cons r waiting
      · change (o.closed || !(o.link.write r.text).2) = false at hstill
        rw [hworked, Bool.not_false, Bool.or_true] at hstill
        cases hstill
  | pings pingDue hrunning hopen hqueue hgoesOn hdue =>
    exact ⟨done, rest, hsplit, (written_ping o.link).trans hwritten, hwaits, fun _ => hall hopen⟩
  | closes hwriter hclosing => exact ⟨done, rest, hsplit, hwritten, hwaits, hall⟩

theorem shares_next {accepted : List Response} (h : Shares accepted o) (e : Event) :
    Shares (accepted ++ o.accepts e) (o.next e) := by
  cases e with
  | send r =>
    rcases sent_or_refused o r with ⟨hopen, -, -, hsent⟩ | ⟨e, hrefused⟩
    · obtain ⟨done, rest, hsplit, hwritten, hwaits, hall⟩ := h
      obtain ⟨hnext, haccepts⟩ := next_of_sent hsent
      rw [hnext, haccepts]
      refine ⟨done, o.queue ++ [r], ?_, hwritten, List.suffix_rfl, fun _ => rfl⟩
      rw [hsplit, hall hopen, List.append_assoc]
    · obtain ⟨hnext, haccepts⟩ := next_of_refused hrefused
      rw [hnext, haccepts, List.append_nil]
      exact h
  | start now =>
    show Shares (accepted ++ []) (o.start now)
    rw [List.append_nil]
    unfold start
    split <;> exact h
  | close =>
    obtain ⟨done, rest, hsplit, hwritten, hwaits, hall⟩ := h
    show Shares (accepted ++ []) o.close
    rw [List.append_nil]
    unfold close
    split
    · exact ⟨done, rest, hsplit, hwritten, List.nil_suffix, fun hopen => by cases hopen⟩
    · exact ⟨done, rest, hsplit, hwritten, hwaits, fun hopen => by cases hopen⟩
  | shutDown =>
    show Shares (accepted ++ []) o.shutDown
    rw [List.append_nil]
    exact h
  | turn now =>
    show Shares (accepted ++ []) _
    rw [List.append_nil]
    rcases taken_turn o now with hsame | htaken
    · rw [hsame]
      exact h
    · exact shares_taken h htaken
  | fail writeFails pingFails =>
    show Shares (accepted ++ []) _
    rw [List.append_nil]
    exact h

theorem shares_run (owner : SteamId) (s : Settings) (es : List Event) :
    Shares ((new owner s).accepted es) ((new owner s).run es) := by
  induction es using List.reverseRecOn with
  | nil => exact ⟨[], [], rfl, rfl, List.suffix_rfl, fun _ => rfl⟩
  | append_singleton es e ih =>
    rw [accepted_concat, run_concat]
    exact shares_next ih e

/-! ## what closes a client -/

theorem closed_next (o : Outbound) (e : Event) :
    (o.next e).closed = (o.closed || e == .close || o.fails e) := by
  cases e with
  | send r =>
    obtain ⟨queue, hnext⟩ := exists_queue_of_send o r
    rw [hnext]
    simp [fails]
  | start now =>
    have hsame : (o.start now).closed = o.closed := by unfold start; split <;> rfl
    show (o.start now).closed = _
    rw [hsame]
    simp [fails]
  | close =>
    have hclosed : o.close.closed = true := by unfold close; split <;> rfl
    show o.close.closed = _
    rw [hclosed]
    simp
  | shutDown => simp [next, shutDown, fails]
  | fail writeFails pingFails => simp [next, fails]
  | turn now =>
    show ((o.turn? now).getD o).closed = (o.closed || false || o.fails (.turn now))
    unfold turn? fails
    cases hwriter : o.writer with
    | running pingDue =>
      cases hclosed : o.closed with
      | true => simpa [stop] using hclosed
      | false =>
        cases hqueue : o.queue with
        | cons r rest => simp [write]
        | nil =>
          cases hshutdown : o.shutdown with
          | true => simp [stop, hclosed]
          | false =>
            by_cases hdue : pingDue ≤ now
            · simp [hdue, ping, hclosed]
            · simp [hdue, hclosed]
    | _ => by_cases hclosing : o.closing = true <;> simp [hclosing]

/-- A client is closed from outside, or by a write or a ping that fails. -/
theorem closed_run (o : Outbound) (es : List Event) :
    (o.run es).closed = (o.closed || es.contains .close || o.failsIn es) := by
  induction es generalizing o with
  | nil => simp [run, failsIn]
  | cons e es ih =>
    show ((o.next e).run es).closed = _
    rw [ih, closed_next, List.contains_cons, failsIn, Bool.beq_comm (a := e)]
    simp only [Bool.or_assoc, Bool.or_left_comm]

theorem shutdown_of_taken {p : Outbound} (h : Taken o now p) : p.shutdown = o.shutdown := by
  cases h <;> rfl

theorem shutdown_next (o : Outbound) (e : Event) :
    (o.next e).shutdown = (o.shutdown || e == .shutDown) := by
  cases e with
  | send r =>
    obtain ⟨queue, hnext⟩ := exists_queue_of_send o r
    rw [hnext]
    simp
  | start now => show (o.start now).shutdown = _; unfold start; split <;> simp
  | close => show o.close.shutdown = _; unfold close; split <;> simp
  | shutDown => simp [next, shutDown]
  | fail writeFails pingFails => simp [next]
  | turn now =>
    have hsame : (o.next (.turn now)).shutdown = o.shutdown := by
      rcases taken_turn o now with hsame | htaken
      · rw [hsame]
      · exact shutdown_of_taken htaken
    rw [hsame]
    simp

theorem shutdown_run (o : Outbound) (es : List Event) :
    (o.run es).shutdown = (o.shutdown || es.contains .shutDown) := by
  induction es generalizing o with
  | nil => simp [run]
  | cons e es ih =>
    show ((o.next e).run es).shutdown = _
    rw [ih, shutdown_next, List.contains_cons, Bool.beq_comm (a := e), Bool.or_assoc]

/-! ## coming to rest -/

theorem queue_of_rests (h : Sound owner limit o) (hopen : o.closed = false)
    (hrests : o.Rests now) : o.queue = [] := by
  rcases hrests with ⟨pingDue, hrunning, hnone⟩ | hstopped
  · unfold turn? at hnone
    rw [hrunning] at hnone
    dsimp only at hnone
    rw [hopen, if_neg Bool.false_ne_true] at hnone
    split at hnone
    · cases hnone
    · assumption
  · exact h.emptied hstopped

/-- the turns that are left at an instant, at most -/
def left (o : Outbound) (now : Nat) : Nat :=
  match o.writer with
  | .running pingDue => o.queue.length + if pingDue ≤ now then 3 else 2
  | _ => o.closing.toNat

theorem left_le_work (o : Outbound) (now : Nat) : o.left now ≤ o.work := by
  unfold left work
  cases o.writer with
  | running pingDue => dsimp only; split <;> omega
  | _ => have := o.closing.toNat_le; dsimp only; omega

theorem left_lt_of_taken (hperiod : 0 < o.period) {p : Outbound} (h : Taken o now p) :
    p.left now < o.left now ∧ p.period = o.period := by
  refine ⟨?_, by cases h <;> rfl⟩
  cases h with
  | stops pingDue hrunning hwhy =>
    show o.closing.toNat < o.left now
    have := o.closing.toNat_le
    simp only [left, hrunning]
    split <;> omega
  | writes pingDue hrunning hopen r rest hqueue =>
    simp only [left, write, hrunning, hqueue, List.length_cons]
    omega
  | pings pingDue hrunning hopen hqueue hgoesOn hdue =>
    have hlater : ¬ now + o.period ≤ now := by omega
    simp only [left, ping, hrunning, if_pos hdue, if_neg hlater]
    omega
  | closes hwriter hclosing =>
    simp only [left, hclosing]
    exact Nat.one_pos

theorem turns_of_none (h : o.turn? now = none) (n : Nat) : turns now n o = o := by
  cases n with
  | zero => rfl
  | succ n => unfold turns; rw [h]

theorem turns_of_some {p : Outbound} (h : o.turn? now = some p) (n : Nat) :
    turns now (n + 1) o = turns now n p := by
  conv_lhs => unfold turns
  rw [h]

theorem turn?_turns (hperiod : 0 < o.period) {n : Nat} (hn : o.left now ≤ n) :
    (turns now n o).turn? now = none := by
  induction n generalizing o with
  | zero =>
    show o.turn? now = none
    by_contra hsome
    obtain ⟨p, h⟩ := Option.ne_none_iff_exists'.1 hsome
    have := (left_lt_of_taken hperiod (taken_of_turn? h)).1
    omega
  | succ n ih =>
    cases h : o.turn? now with
    | none => rwa [turns_of_none h]
    | some p =>
      obtain ⟨hless, hsame⟩ := left_lt_of_taken hperiod (taken_of_turn? h)
      rw [turns_of_some h]
      exact ih (hsame ▸ hperiod) (by omega)

/-- Turns that are taken at one instant come to an end. -/
theorem turn?_settle (hperiod : 0 < o.period) (now : Nat) : (o.settle now).turn? now = none :=
  turn?_turns hperiod (left_le_work o now)

theorem turns_eq_run (now n : Nat) (o : Outbound) :
    turns now n o = o.run (List.replicate n (.turn now)) := by
  induction n generalizing o with
  | zero => rfl
  | succ n ih =>
    show turns now (n + 1) o = (o.next (.turn now)).run (List.replicate n (.turn now))
    rw [← ih]
    show _ = turns now n ((o.turn? now).getD o)
    cases h : o.turn? now with
    | some p => exact turns_of_some h n
    | none => rw [Option.getD_none, turns_of_none h, turns_of_none h]

/-! ## every run -/

/-- what a client that is neither closed nor stopped says to a response -/
theorem send_eq_queueFull_iff (h : Sound owner limit o) (hopen : o.closed = false)
    (hlimit : 0 < limit) (r : Response) :
    o.send r = .error (.queueFull owner) ↔ o.queue.length = limit := by
  by_cases hwriter : o.writer = .stopped
  · -- what a writer has left when it stops is dropped, so that nothing waits
    rw [send_of_over (.inr hwriter), h.emptied hwriter, List.length_nil]
    exact iff_of_false (fun hfull => by cases hfull) (by omega)
  · have hroom := h.room
    by_cases hlt : o.queue.length < o.capacity
    · rw [send_of_room hopen hwriter hlt]
      rw [h.capacity] at hlt
      exact iff_of_false (fun hfull => by cases hfull) (by omega)
    · rw [send_of_full hopen hwriter hlt, h.owner]
      rw [h.capacity] at hlt
      exact iff_of_true rfl (by omega)

/-- **What is accepted is written, in order.**  The texts written over a connection are those of the
responses accepted first, in order and each once, and those that wait are the last of them.  Never
more than the capacity wait, and a client that is not closed refuses a response for want of room if
and only if as many do; what is refused has no effect.  If the client was not closed from outside
and no write and no ping has failed, then a writer at rest has written everything that was accepted;
it has stopped only if the process shuts down, and then it has closed the connection once.  And it
comes to rest when it takes its turns. -/
theorem written_in_order (owner : SteamId) (s : Settings) (es : List Event) :
    let o := (new owner s).run es
    let accepted := (new owner s).accepted es
    (∃ done, done <+: accepted ∧ o.link.written = done.map Response.text) ∧
      (o.queue <:+ accepted ∧ o.queue.length ≤ max 1 s.outboundCapacity) ∧
      (o.closed = false → ∀ r,
        (o.send r = .error (.queueFull owner) ↔ o.queue.length = max 1 s.outboundCapacity)) ∧
      (∀ r e, o.send r = .error e → ∀ later,
        o.run (.send r :: later) = o.run later ∧ o.accepted (.send r :: later) = o.accepted later) ∧
      (Event.close ∉ es → (new owner s).failsIn es = false → ∀ now, o.Rests now →
        o.link.written = accepted.map Response.text ∧
          (o.writer = .stopped → Event.shutDown ∈ es ∧ o.link.closes = 1)) ∧
      ∀ now, ∃ n, (o.run (List.replicate n (.turn now))).turn? now = none := by
  intro o accepted
  have hsound : Sound owner (max 1 s.outboundCapacity) o := sound_run (sound_new owner s) es
  obtain ⟨done, rest, hsplit, hwritten, hwaits, hall⟩ : Shares accepted o := shares_run owner s es
  refine ⟨⟨done, ⟨rest, hsplit.symm⟩, hwritten⟩, ⟨?_, hsound.room⟩, ?_, ?_, ?_, ?_⟩
  · exact hwaits.trans ⟨done, hsplit.symm⟩
  · intro hopen r
    exact send_eq_queueFull_iff hsound hopen (by omega) r
  · intro r e hrefused later
    obtain ⟨hnext, haccepts⟩ := next_of_refused hrefused
    constructor
    · show (o.next (.send r)).run later = _
      rw [hnext]
    · show o.accepts (.send r) ++ (o.next (.send r)).accepted later = _
      rw [hnext, haccepts, List.nil_append]
  · intro hclose hfails now hrests
    have hopen : o.closed = false := by
      have hclosed : o.closed = (false || es.contains .close || (new owner s).failsIn es) :=
        closed_run (new owner s) es
      rw [hclosed, hfails]
      simpa using hclose
    have hempty : rest = [] := (hall hopen).trans (queue_of_rests hsound hopen hrests)
    refine ⟨?_, fun hstopped => ⟨?_, ?_⟩⟩
    · rw [hwritten, hsplit, hempty, List.append_nil]
    · have hshutdown : o.shutdown = (false || es.contains .shutDown) :=
        shutdown_run (new owner s) es
      rw [hsound.released hstopped hopen] at hshutdown
      simpa using hshutdown.symm
    · have hclosing : o.closing = false := by
        cases hc : o.closing with
        | false => rfl
        | true => rw [hsound.closing hc] at hopen; cases hopen
      have hcloses := hsound.closes
      rw [hclosing, isStopped, hstopped] at hcloses
      exact hcloses
  · intro now
    refine ⟨o.work, ?_⟩
    rw [← turns_eq_run]
    exact turn?_settle hsound.period now

namespace Sample

/-- One response may wait.  The second is refused, and the third is sent when the first was written;
the process shuts down while it waits. -/
def events : List Event :=
  [.send (.bye "a"), .send (.bye "b"), .start 0, .turn 0, .send (.bye "c"), .shutDown, .turn 0,
    .turn 0]

def settings : Settings := { outboundCapacity := 0 }

end Sample

open Matchmaker.Client.Outbound.Sample in
theorem written_in_order_sample :
    let o := (new ⟨76561197960265729⟩ settings).run events
    (new ⟨76561197960265729⟩ settings).accepted events = [.bye "a", .bye "c"] ∧
      o.link.written = [Response.bye "a", .bye "c"].map Response.text ∧ o.link.closes = 1 := by
  have haccepted : (new ⟨76561197960265729⟩ settings).accepted events = [.bye "a", .bye "c"] := rfl
  have hstopped : ((new ⟨76561197960265729⟩ settings).run events).writer = .stopped := rfl
  obtain ⟨-, -, -, -, hrest, -⟩ := written_in_order ⟨76561197960265729⟩ settings events
  obtain ⟨hwritten, honce⟩ := hrest (by decide) rfl 0 (.inr hstopped)
  exact ⟨haccepted, hwritten.trans (congrArg _ haccepted), (honce hstopped).2⟩

end Matchmaker.Client.Outbound
