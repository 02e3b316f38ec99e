import Matchmaker.Proofs.Client.Delivery

/-!
# A connection is closed once

A client is closed in two steps: first everyone can see that it is closed (`cancel`), and then a
writer that was not started is given up (`forgo`).  Sending has two steps as well, the look whether
the client is open and the push into the queue.  Other calls and the writer come between the steps of
a call, so here they are events of their own (`Part`), and `closers` counts the calls of `close` that
are between their steps.

Who closes the connection is decided by the state of the writer.  The connection was closed, or is
about to be by a task of its own, exactly if the writer is stopped (`Sound.closes`), and a closed
client whose writer may still be started has a call of `close` that will give it up
(`Sane.given_up`).  At rest nothing is left in between.
-/

namespace Matchmaker.Client.Outbound

open Protocol (Response)

/-! ## calls in steps -/

/-- Everyone sees from now on that the client is closed. -/
def cancel (o : Outbound) : Outbound := { o with closed := true }

/-- A writer that was not started never will be, and the connection is left to a task of its own. -/
def forgo (o : Outbound) : Outbound :=
  match o.writer with
  | .idle => { o with writer := .stopped, queue := [], closing := true }
  | _ => o

/-- Puts a response into the queue, for a sender who has found the client open. -/
def push (o : Outbound) (r : Response) : Outbound :=
  if !o.isStopped && decide (o.queue.length < o.capacity) then { o with queue := o.queue ++ [r] }
  else o

section
variable {o : Outbound} {owner : SteamId} {limit now : Nat}

theorem close_eq (o : Outbound) : o.close = o.cancel.forgo := by
  unfold close forgo cancel
  cases o.writer <;> rfl

@[simp] theorem closed_forgo (o : Outbound) : o.forgo.closed = o.closed := by
  unfold forgo
  split <;> rfl

@[simp] theorem shutdown_forgo (o : Outbound) : o.forgo.shutdown = o.shutdown := by
  unfold forgo
  split <;> rfl

theorem writer_forgo_ne (o : Outbound) : o.forgo.writer ≠ .idle := by
  unfold forgo
  split
  · exact nofun
  · assumption

/-- A push adds to the queue while there is room and a writer may come, and else does nothing. -/
theorem push_cases (o : Outbound) (r : Response) :
    o.push r = o ∨ o.isStopped = false ∧ o.queue.length < o.capacity ∧
      o.push r = { o with queue := o.queue ++ [r] } := by
  unfold push
  split
  · rename_i h
    rw [Bool.and_eq_true, Bool.not_eq_true', decide_eq_true_eq] at h
    exact .inr ⟨h.1, h.2, rfl⟩
  · exact .inl rfl

theorem exists_queue_of_push (o : Outbound) (r : Response) :
    ∃ queue, o.push r = { o with queue } := by
  rcases push_cases o r with hsame | ⟨-, -, hpushed⟩
  · exact ⟨o.queue, hsame⟩
  · exact ⟨_, hpushed⟩

theorem push_of_stopped (h : o.writer = .stopped) (r : Response) : o.push r = o := by
  rcases push_cases o r with hsame | ⟨hgoes, -, -⟩
  · exact hsame
  · rw [isStopped, h, beq_self_eq_true] at hgoes
    cases hgoes

/-! ## soundness and the single steps -/

theorem Sound.cancel (h : Sound owner limit o) : Sound owner limit o.cancel :=
  ⟨h.owner, h.capacity, h.period, h.room, h.emptied, fun _ hopen => (by cases hopen), fun _ => rfl,
    h.closes⟩

theorem Sound.forgo (h : Sound owner limit o) (hclosed : o.closed = true) :
    Sound owner limit o.forgo := by
  -- of a client that is closed already, the second step is all that closing does
  have hsame : o.cancel = o := by rw [Outbound.cancel, ← hclosed]
  rw [← hsame, ← close_eq]
  exact h.next .close

theorem Sound.push (h : Sound owner limit o) (r : Response) : Sound owner limit (o.push r) := by
  rcases push_cases o r with hsame | ⟨hgoes, hroom, hpushed⟩
  · rw [hsame]
    exact h
  · have hwriter : o.writer ≠ .stopped := beq_eq_false_iff_ne.1 hgoes
    rw [hpushed]
    refine ⟨h.owner, h.capacity, h.period, ?_, fun hw => absurd hw hwriter,
      fun hw => absurd hw hwriter, h.closing, h.closes⟩
    rw [h.capacity] at hroom
    rw [List.length_append]
    exact hroom

/-! ## who may start the writer or give it up -/

theorem writer_of_taken {p : Outbound} (h : Taken o now p) :
    p.writer = .idle ↔ o.writer = .idle := by
  cases h with
  | stops pingDue hrunning hwhy => rw [hrunning]; exact ⟨nofun, nofun⟩
  | writes pingDue hrunning hopen r rest hqueue => exact Iff.rfl
  | pings pingDue hrunning hopen hqueue hgoesOn hdue => rw [hrunning]; exact ⟨nofun, nofun⟩
  | closes hwriter hclosing => exact Iff.rfl

theorem idle_next_iff (o : Outbound) (e : Event) :
    (o.next e).writer = .idle ↔ o.writer = .idle ∧ (∀ now, e ≠ .start now) ∧ e ≠ .close := by
  cases e with
  | send r =>
    obtain ⟨queue, hnext⟩ := exists_queue_of_send o r
    rw [hnext]
    exact ⟨fun h => ⟨h, nofun, nofun⟩, fun h => h.1⟩
  | start now =>
    refine ⟨fun h => ?_, fun h => absurd rfl (h.2.1 now)⟩
    change (o.start now).writer = .idle at h
    unfold start at h
    split at h
    · cases h
    · contradiction
  | close =>
    refine ⟨fun h => ?_, fun h => absurd rfl h.2.2⟩
    change o.close.writer = .idle at h
    rw [close_eq] at h
    exact absurd h (writer_forgo_ne _)
  | shutDown => exact ⟨fun h => ⟨h, nofun, nofun⟩, fun h => h.1⟩
  | fail writeFails pingFails => exact ⟨fun h => ⟨h, nofun, nofun⟩, fun h => h.1⟩
  | turn now =>
    have hsame : (o.next (.turn now)).writer = .idle ↔ o.writer = .idle := by
      rcases taken_turn o now with hnone | htaken
      · rw [hnone]
      · exact writer_of_taken htaken
    rw [hsame]
    exact ⟨fun h => ⟨h, nofun, nofun⟩, fun h => h.1⟩

theorem not_fails_of_idle (h : o.writer = .idle) (e : Event) : o.fails e = false := by
  cases e with
  | turn now => simp only [fails, h]
  | _ => rfl

/-! ## a connection that was closed -/

/-- no writer is left, and the connection was closed -/
structure Over (o : Outbound) : Prop where
  stopped : o.writer = .stopped
  closed : o.closing = false

/-- all that was done with a connection is the same -/
structure Untouched (l k : Link) : Prop where
  written : k.written = l.written
  pings : k.pings = l.pings
  closes : k.closes = l.closes

theorem Untouched.refl (l : Link) : Untouched l l := ⟨rfl, rfl, rfl⟩

theorem Untouched.trans {l k j : Link} (h : Untouched l k) (h' : Untouched k j) : Untouched l j :=
  ⟨h'.written.trans h.written, h'.pings.trans h.pings, h'.closes.trans h.closes⟩

theorem Over.turn?_eq_none (h : Over o) (now : Nat) : o.turn? now = none := by
  unfold turn?
  rw [h.stopped, h.closed]
  rfl

theorem Over.next (h : Over o) (e : Event) :
    Over (o.next e) ∧ Untouched o.link (o.next e).link := by
  cases e with
  | send r =>
    rw [(next_of_refused (send_of_over (.inr h.stopped))).1]
    exact ⟨h, .refl _⟩
  | start now =>
    have hsame : o.next (.start now) = o := by
      show o.start now = o
      unfold start
      rw [h.stopped]
    rw [hsame]
    exact ⟨h, .refl _⟩
  | close =>
    have hnext : o.next .close = o.cancel := by
      show o.close = o.cancel
      unfold close Outbound.cancel
      rw [h.stopped]
    rw [hnext]
    exact ⟨⟨h.stopped, h.closed⟩, .refl _⟩
  | shutDown => exact ⟨⟨h.stopped, h.closed⟩, .refl _⟩
  | turn now =>
    have hsame : o.next (.turn now) = o := by
      show (o.turn? now).getD o = o
      rw [h.turn?_eq_none, Option.getD_none]
    rw [hsame]
    exact ⟨h, .refl _⟩
  | fail writeFails pingFails => exact ⟨⟨h.stopped, h.closed⟩, ⟨rfl, rfl, rfl⟩⟩

theorem Sound.over_iff (h : Sound owner limit o) : o.link.closes = 1 ↔ Over o := by
  have hcloses := h.closes
  constructor
  · intro honce
    rw [honce] at hcloses
    have hstopped := o.isStopped.toNat_le
    have hclosing : o.closing.toNat = 0 := by omega
    refine ⟨?_, by simpa using hclosing⟩
    have : o.isStopped = true := by
      rw [hclosing] at hcloses
      simpa using hcloses.symm
    exact eq_of_beq this
  · intro hover
    rw [hover.closed, isStopped, hover.stopped] at hcloses
    exact hcloses

end

/-! ## calls that come between one another -/

/-- a client whose calls come between one another -/
structure Shared where
  outbound : Outbound
  /-- the calls of `close` that are between their two steps -/
  closers : Nat := 0

/-- what happens to a client without being interrupted -/
inductive Part where
  | whole (e : Event)
  | cancel
  /-- a call of `close` takes its second step, if there is one that has taken the first -/
  | forgo
  | push (r : Response)
  deriving DecidableEq

namespace Part

/-- a call of `close` begins -/
def isClose : Part → Bool
  | .whole .close => true
  | .cancel => true
  | _ => false

def isStart : Part → Bool
  | .whole (.start _) => true
  | _ => false

end Part

namespace Shared

def next (s : Shared) : Part → Shared
  | .whole e => { s with outbound := s.outbound.next e }
  | .cancel => ⟨s.outbound.cancel, s.closers + 1⟩
  | .forgo =>
    match s.closers with
    | 0 => s
    | n + 1 => ⟨s.outbound.forgo, n⟩
  | .push r => { s with outbound := s.outbound.push r }

def run (s : Shared) (ps : List Part) : Shared := ps.foldl next s

theorem run_concat (s : Shared) (ps : List Part) (p : Part) :
    s.run (ps ++ [p]) = (s.run ps).next p := List.foldl_append

theorem run_append (s : Shared) (ps qs : List Part) : s.run (ps ++ qs) = (s.run ps).run qs :=
  List.foldl_append

theorem run_whole (s : Shared) (es : List Event) :
    s.run (es.map .whole) = { s with outbound := s.outbound.run es } := by
  induction es generalizing s with
  | nil => rfl
  | cons e es ih => exact ih (s.next (.whole e))

/-- the writer writes or pings, and that fails -/
def fails (s : Shared) : Part → Bool
  | .whole e => s.outbound.fails e
  | _ => false

/-- a write or a ping fails in a run -/
def failsIn (s : Shared) : List Part → Bool
  | [] => false
  | p :: ps => s.fails p || (s.next p).failsIn ps

/-- No call of `close` is between its steps, and no task has anything to do. -/
def Rests (s : Shared) (now : Nat) : Prop := s.closers = 0 ∧ s.outbound.turn? now = none

variable {s : Shared} {owner : SteamId} {limit now : Nat}

theorem next_forgo_cases (s : Shared) :
    (s.closers = 0 ∧ s.next .forgo = s) ∨
      ∃ n, s.closers = n + 1 ∧ s.next .forgo = ⟨s.outbound.forgo, n⟩ := by
  unfold next
  dsimp only
  split
  · exact .inl ⟨‹_›, rfl⟩
  · exact .inr ⟨_, ‹_›, rfl⟩

/-! ## what a run leaves behind -/

theorem closed_next (s : Shared) (p : Part) :
    (s.next p).outbound.closed = (s.outbound.closed || p.isClose || s.fails p) := by
  cases p with
  | whole e =>
    show (s.outbound.next e).closed = _
    rw [Outbound.closed_next]
    cases e <;> rfl
  | cancel => simp [next, Outbound.cancel, Part.isClose]
  | forgo =>
    rcases next_forgo_cases s with ⟨-, hnext⟩ | ⟨n, -, hnext⟩ <;>
      simp [hnext, Part.isClose, fails]
  | push r =>
    obtain ⟨queue, hpush⟩ := exists_queue_of_push s.outbound r
    simp [next, hpush, Part.isClose, fails]

/-- A client is closed by a call of `close`, or by a write or a ping that fails. -/
theorem closed_run (s : Shared) (ps : List Part) :
    (s.run ps).outbound.closed = (s.outbound.closed || ps.any Part.isClose || s.failsIn ps) := by
  induction ps generalizing s with
  | nil => simp [run, failsIn]
  | cons p ps ih =>
    show ((s.next p).run ps).outbound.closed = _
    rw [ih, closed_next, List.any_cons, failsIn]
    simp only [Bool.or_assoc, Bool.or_left_comm]

theorem shutdown_next (s : Shared) (p : Part) :
    (s.next p).outbound.shutdown = (s.outbound.shutdown || p == .whole .shutDown) := by
  cases p with
  | whole e =>
    show (s.outbound.next e).shutdown = _
    rw [Outbound.shutdown_next]
    congr 1
    rw [Bool.eq_iff_iff, beq_iff_eq, beq_iff_eq, Part.whole.injEq]
  | cancel => simp [next, Outbound.cancel]
  | forgo => rcases next_forgo_cases s with ⟨-, hnext⟩ | ⟨n, -, hnext⟩ <;> simp [hnext]
  | push r =>
    obtain ⟨queue, hpush⟩ := exists_queue_of_push s.outbound r
    simp [next, hpush]

theorem shutdown_run (s : Shared) (ps : List Part) :
    (s.run ps).outbound.shutdown = (s.outbound.shutdown || ps.contains (.whole .shutDown)) := by
  induction ps generalizing s with
  | nil => simp [run]
  | cons p ps ih =>
    show ((s.next p).run ps).outbound.shutdown = _
    rw [ih, shutdown_next, List.contains_cons, Bool.beq_comm (a := p), Bool.or_assoc]

theorem not_start_of_idle_next {p : Part} (h : (s.next p).outbound.writer = .idle) :
    s.outbound.writer = .idle ∧ p.isStart = false := by
  cases p with
  | whole e =>
    obtain ⟨hidle, hstart, -⟩ := (idle_next_iff s.outbound e).1 h
    refine ⟨hidle, ?_⟩
    cases e with
    | start now => exact absurd rfl (hstart now)
    | _ => rfl
  | cancel => exact ⟨h, rfl⟩
  | forgo =>
    rcases next_forgo_cases s with ⟨-, hnext⟩ | ⟨n, -, hnext⟩
    · rw [hnext] at h
      exact ⟨h, rfl⟩
    · rw [hnext] at h
      exact absurd h (writer_forgo_ne _)
  | push r =>
    obtain ⟨queue, hpush⟩ := exists_queue_of_push s.outbound r
    simp only [next, hpush] at h
    exact ⟨h, rfl⟩

/-- A writer that may still be started was not started before. -/
theorem not_start_of_idle_run {ps : List Part} (h : (s.run ps).outbound.writer = .idle) :
    s.outbound.writer = .idle ∧ ps.any Part.isStart = false := by
  induction ps generalizing s with
  | nil => exact ⟨h, rfl⟩
  | cons p ps ih =>
    obtain ⟨hidle, hstarts⟩ := ih (s := s.next p) h
    obtain ⟨hidle, hstart⟩ := not_start_of_idle_next hidle
    exact ⟨hidle, by rw [List.any_cons, hstart, hstarts, Bool.or_self]⟩

/-! ## calls of `close` that are not over -/

/-- what the calls of `close` between their steps have done, and what they will do -/
structure Sane (owner : SteamId) (limit : Nat) (s : Shared) : Prop where
  sound : Sound owner limit s.outbound
  closed : s.closers ≠ 0 → s.outbound.closed = true
  given_up : s.outbound.closed = true → s.outbound.writer = .idle → s.closers ≠ 0

theorem Sane.next (h : Sane owner limit s) (p : Part) : Sane owner limit (s.next p) := by
  cases p with
  | whole e =>
    refine ⟨h.sound.next e, fun hclosers => ?_, fun hclosed hidle => ?_⟩
    · rw [closed_next, h.closed hclosers, Bool.true_or, Bool.true_or]
    · obtain ⟨hidle, -, hclose⟩ := (idle_next_iff s.outbound e).1 hidle
      change (s.outbound.next e).closed = true at hclosed
      rw [Outbound.closed_next, not_fails_of_idle hidle, Bool.or_false, beq_false_of_ne hclose,
        Bool.or_false] at hclosed
      exact h.given_up hclosed hidle
  | cancel => exact ⟨h.sound.cancel, fun _ => rfl, fun _ _ => Nat.succ_ne_zero _⟩
  | forgo =>
    rcases next_forgo_cases s with ⟨-, hnext⟩ | ⟨n, hclosers, hnext⟩
    · rw [hnext]
      exact h
    · rw [hnext]
      have hclosed : s.outbound.closed = true :=
        h.closed (by rw [hclosers]; exact Nat.succ_ne_zero n)
      exact ⟨h.sound.forgo hclosed, fun _ => (closed_forgo _).trans hclosed,
        fun _ hidle => absurd hidle (writer_forgo_ne _)⟩
  | push r =>
    obtain ⟨queue, hpush⟩ := exists_queue_of_push s.outbound r
    have hsound := h.sound.push r
    simp only [Shared.next]
    rw [hpush] at hsound ⊢
    exact ⟨hsound, h.closed, h.given_up⟩

theorem Sane.run (h : Sane owner limit s) (ps : List Part) : Sane owner limit (s.run ps) := by
  induction ps generalizing s with
  | nil => exact h
  | cons p ps ih => exact ih (h.next p)

theorem sane_new (owner : SteamId) (settings : Settings) :
    Sane owner (max 1 settings.outboundCapacity) ⟨new owner settings, 0⟩ :=
  ⟨sound_new owner settings, fun h => absurd rfl h, nofun⟩

/-- A writer is no longer to be started because it was, or because the client is closed. -/
theorem Sane.start_or_closed (h : Sane owner limit s) (hidle : s.outbound.writer = .idle)
    {ps : List Part} (hgone : (s.run ps).outbound.writer ≠ .idle) :
    ps.any Part.isStart = true ∨ (s.run ps).outbound.closed = true := by
  induction ps using List.reverseRecOn with
  | nil => exact absurd hidle hgone
  | append_singleton ps p ih =>
    rw [run_concat] at hgone ⊢
    rw [closed_next, List.any_append, Bool.or_eq_true]
    by_cases hbefore : (s.run ps).outbound.writer = .idle
    · cases p with
      | whole e =>
        have hleaves := mt (idle_next_iff (s.run ps).outbound e).2 hgone
        cases e with
        | start now => exact .inl (.inr rfl)
        | close => exact .inr (by simp [Part.isClose])
        | _ => exact absurd ⟨hbefore, nofun, nofun⟩ hleaves
      | cancel => exact absurd hbefore hgone
      | forgo =>
        rcases next_forgo_cases (s.run ps) with ⟨-, hnext⟩ | ⟨n, hclosers, hnext⟩
        · rw [hnext] at hgone
          exact absurd hbefore hgone
        · have hclosed := (h.run ps).closed (by rw [hclosers]; exact Nat.succ_ne_zero n)
          exact .inr (by rw [hclosed, Bool.true_or, Bool.true_or])
      | push r =>
        obtain ⟨queue, hpush⟩ := exists_queue_of_push (s.run ps).outbound r
        simp only [Shared.next, hpush] at hgone
        exact absurd hbefore hgone
    · rcases ih hbefore with hstart | hclosed
      · exact .inl (.inl hstart)
      · exact .inr (by rw [hclosed, Bool.true_or, Bool.true_or])

/-! ## rest -/

theorem stopped_of_rests (hrests : s.Rests now) {pingDue : Nat}
    (hrunning : s.outbound.writer = .running pingDue) :
    s.outbound.closed = false ∧ s.outbound.shutdown = false := by
  have hnone := hrests.2
  unfold turn? at hnone
  rw [hrunning] at hnone
  dsimp only at hnone
  split at hnone
  · cases hnone
  · rename_i hopen
    refine ⟨Bool.eq_false_iff.2 hopen, ?_⟩
    split at hnone
    · cases hnone
    · split at hnone
      · cases hnone
      · rename_i hgoesOn
        exact Bool.eq_false_iff.2 hgoesOn

/-- At rest, the connection was closed if the client is closed, or was started and shut down. -/
theorem Sane.over_of_rests (h : Sane owner limit s) (hrests : s.Rests now)
    (hwhy : s.outbound.closed = true ∨ s.outbound.writer ≠ .idle ∧ s.outbound.shutdown = true) :
    Over s.outbound := by
  have hstopped : s.outbound.writer = .stopped := by
    cases hwriter : s.outbound.writer with
    | stopped => rfl
    | idle =>
      rcases hwhy with hclosed | ⟨hgone, -⟩
      · exact absurd hrests.1 (h.given_up hclosed hwriter)
      · exact absurd hwriter hgone
    | running pingDue =>
      obtain ⟨hopen, hgoesOn⟩ := stopped_of_rests hrests hwriter
      rcases hwhy with hclosed | ⟨-, hshutdown⟩
      · rw [hopen] at hclosed
        cases hclosed
      · rw [hgoesOn] at hshutdown
        cases hshutdown
  refine ⟨hstopped, ?_⟩
  have hnone := hrests.2
  unfold turn? at hnone
  rw [hstopped] at hnone
  dsimp only at hnone
  split at hnone
  · cases hnone
  · rename_i hclosing
    exact Bool.eq_false_iff.2 hclosing

theorem over_next (h : Over s.outbound) (p : Part) :
    Over (s.next p).outbound ∧ Untouched s.outbound.link (s.next p).outbound.link := by
  cases p with
  | whole e => exact h.next e
  | cancel => exact ⟨⟨h.stopped, h.closed⟩, .refl _⟩
  | forgo =>
    have hsame : s.outbound.forgo = s.outbound := by
      unfold Outbound.forgo
      rw [h.stopped]
    rcases next_forgo_cases s with ⟨-, hnext⟩ | ⟨n, -, hnext⟩
    · rw [hnext]
      exact ⟨h, .refl _⟩
    · rw [hnext, hsame]
      exact ⟨h, .refl _⟩
  | push r =>
    show Over (s.outbound.push r) ∧ Untouched s.outbound.link (s.outbound.push r).link
    rw [push_of_stopped h.stopped]
    exact ⟨h, .refl _⟩

/-- A connection that was closed is left alone. -/
theorem over_run (h : Over s.outbound) (ps : List Part) :
    Over (s.run ps).outbound ∧ Untouched s.outbound.link (s.run ps).outbound.link := by
  induction ps generalizing s with
  | nil => exact ⟨h, .refl _⟩
  | cons p ps ih =>
    obtain ⟨hover, hsame⟩ := over_next h p
    obtain ⟨hover', hsame'⟩ := ih hover
    exact ⟨hover', hsame.trans hsame'⟩

theorem closers_run_forgo {n : Nat} (h : s.closers = n) :
    (s.run (List.replicate n .forgo)).closers = 0 := by
  induction n generalizing s with
  | zero => exact h
  | succ n ih =>
    have hnext : (s.next .forgo).closers = n := by simp only [next, h]
    exact ih hnext

/-- Calls that have begun end, and the writer takes its turns, until all is at rest. -/
theorem Sane.comes_to_rest (h : Sane owner limit s) (now : Nat) :
    ∃ m n,
      (s.run (List.replicate m .forgo ++ List.replicate n (.whole (.turn now)))).Rests now := by
  let t := s.run (List.replicate s.closers .forgo)
  refine ⟨s.closers, t.outbound.work, ?_⟩
  rw [run_append, ← List.map_replicate, run_whole, ← turns_eq_run]
  exact ⟨closers_run_forgo rfl, turn?_settle (h.run _).sound.period now⟩

/-- **A connection is closed once.**  Whatever happens to a client, in whatever order and between the
steps of whichever calls, its connection is closed at most once.  At rest it was closed if and only
if `close` was called, or the writer was started and the process shut down, or a write or a ping
failed; and calls and tasks come to rest by going on.  Once the connection was closed it is left
alone, and no response is accepted any more. -/
theorem closed_once (owner : SteamId) (settings : Settings) (ps : List Part) :
    let s := (⟨new owner settings, 0⟩ : Shared).run ps
    s.outbound.link.closes ≤ 1 ∧
      (∀ now, s.Rests now →
        (s.outbound.link.closes = 1 ↔
          ps.any Part.isClose = true ∨
            ps.any Part.isStart = true ∧ Part.whole .shutDown ∈ ps ∨
              failsIn ⟨new owner settings, 0⟩ ps = true)) ∧
      (s.outbound.link.closes = 1 → ∀ later,
        let t := s.run later
        (∀ r, t.outbound.send r = .error .closed) ∧ t.outbound.link.closes = 1 ∧
          t.outbound.link.written = s.outbound.link.written ∧
          t.outbound.link.pings = s.outbound.link.pings) ∧
      ∀ now, ∃ m n,
        (s.run (List.replicate m .forgo ++ List.replicate n (.whole (.turn now)))).Rests now := by
  intro s
  have hnew := sane_new owner settings
  have hsane : Sane owner (max 1 settings.outboundCapacity) s := hnew.run ps
  have hclosed : s.outbound.closed = _ := closed_run ⟨new owner settings, 0⟩ ps
  have hshutdown : s.outbound.shutdown = _ := shutdown_run ⟨new owner settings, 0⟩ ps
  refine ⟨?_, fun now hrests => ?_, fun honce later => ?_, hsane.comes_to_rest⟩
  · have hcloses := hsane.sound.closes
    have := s.outbound.isStopped.toNat_le
    omega
  · rw [hsane.sound.over_iff]
    have hclosed_iff : s.outbound.closed = true ↔
        ps.any Part.isClose = true ∨ failsIn ⟨new owner settings, 0⟩ ps = true := by
      rw [hclosed]
      simp [new]
    have hshutdown_iff : s.outbound.shutdown = true ↔ Part.whole .shutDown ∈ ps := by
      rw [hshutdown]
      simp [new]
    constructor
    · intro hover
      by_cases hclosed : s.outbound.closed = true
      · rcases hclosed_iff.1 hclosed with hclose | hfails
        · exact .inl hclose
        · exact .inr (.inr hfails)
      · have hstopped : s.outbound.writer ≠ .idle := by rw [hover.stopped]; exact nofun
        have hstart := (hnew.start_or_closed rfl hstopped).resolve_right hclosed
        have hreleased := hsane.sound.released hover.stopped (Bool.eq_false_iff.2 hclosed)
        exact .inr (.inl ⟨hstart, hshutdown_iff.1 hreleased⟩)
    · rintro (hclose | ⟨hstart, hdown⟩ | hfails)
      · exact hsane.over_of_rests hrests (.inl (hclosed_iff.2 (.inl hclose)))
      · refine hsane.over_of_rests hrests (.inr ⟨fun hidle => ?_, hshutdown_iff.2 hdown⟩)
        have hnever := (not_start_of_idle_run hidle).2
        rw [hstart] at hnever
        cases hnever
      · exact hsane.over_of_rests hrests (.inl (hclosed_iff.2 (.inr hfails)))
  · obtain ⟨hover, hsame⟩ := over_run (hsane.sound.over_iff.1 honce) later
    exact ⟨fun r => send_of_over (.inr hover.stopped), hsame.closes.trans honce, hsame.written,
      hsame.pings⟩

namespace Race

/-- The writer is started between the steps of a call of `close`, finds the client closed, and closes
the connection; a second call comes when it is over. -/
def parts : List Part :=
  [.push (.bye "a"), .cancel, .whole (.start 0), .forgo, .whole (.turn 0), .whole .close,
    .whole .shutDown]

end Race

theorem closed_once_sample :
    let s := (⟨new ⟨76561197960265729⟩ {}, 0⟩ : Shared).run Race.parts
    s.Rests 0 ∧ s.outbound.link.closes = 1 ∧
      (s.run Race.parts).outbound.send (.bye "b") = .error .closed := by
  have hrests : ((⟨new ⟨76561197960265729⟩ {}, 0⟩ : Shared).run Race.parts).Rests 0 := ⟨rfl, rfl⟩
  obtain ⟨-, hiff, hafter, -⟩ := closed_once ⟨76561197960265729⟩ {} Race.parts
  have honce := (hiff 0 hrests).2 (.inl rfl)
  exact ⟨hrests, honce, (hafter honce Race.parts).1 (.bye "b")⟩

end Shared

end Matchmaker.Client.Outbound
