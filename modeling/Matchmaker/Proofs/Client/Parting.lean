import Matchmaker.Client.Basic
import Matchmaker.Proofs.Client.Delivery
import Matchmaker.Proofs.Client.Tokens
import Matchmaker.Proofs.Protocol.Wire

/-!
# What a closed client still reads

Whoever asks a closed client for the next request should be told that it is closed.  But the call waits
for a frame and for a token, and where one of these is there it may be seen first, so that the call goes
on (`Outruns`).  In this way a frame that waits when the client is closed may still become a request.

A call of a closed client never waits on, and it is told that the client is closed unless it outruns
that (`Inbound.exists_ended`).  Were closing always seen first, nothing would be read any more
(`Reader.run_biased`).
-/

namespace Matchmaker

open Client (Arrival Favour Inbound Outbound Progress Quantity TokenBucket Waiting)
open Protocol (Request)

variable {κ : Type} [Quantity κ]

/-! ## calls of closed clients -/

namespace Client.Inbound
variable {i : Inbound κ} {clock : Clock} {forFrame forToken : Favour} {now wall : Nat} {w : Waiting}

/-- No token is needed, or there is one and it is seen first. -/
def Admits (i : Inbound κ) (forToken : Favour) (now : Nat) : Prop :=
  ∀ b, i.limiter = some b → forToken = .goingOn ∧ (b.tryAcquire now).2 = true

/-- what a call comes to before it sees that the client is closed -/
inductive Outruns (i : Inbound κ) (forFrame forToken : Favour) (now : Nat) :
    Waiting → Except ClientError Request → Prop where
  | frame {bytes : ByteArray} {rest : List Arrival} (first : i.arrivals = .frame bytes :: rest)
      (seen : forFrame = .goingOn) (admitted : i.Admits forToken now) :
      Outruns i forFrame forToken now .frame (decode bytes)
  | failure {reason : String} {rest : List Arrival} (first : i.arrivals = .failure reason :: rest)
      (seen : forFrame = .goingOn) :
      Outruns i forFrame forToken now .frame (.error (.transport reason))
  | token {bytes : ByteArray} {wake : Nat} (due : wake ≤ now) (admitted : i.Admits forToken now) :
      Outruns i forFrame forToken now (.token bytes wake) (decode bytes)

theorem admits_of_none (h : i.limiter = none) (forToken : Favour) (now : Nat) :
    i.Admits forToken now := by
  intro b hb
  rw [h] at hb
  cases hb

theorem admits_iff {b : TokenBucket κ} (h : i.limiter = some b) :
    i.Admits forToken now ↔ forToken = .goingOn ∧ (b.tryAcquire now).2 = true := by
  constructor
  · exact fun hadmits => hadmits b h
  · rintro hsome b' hb'
    rw [← Option.some.inj (h.symm.trans hb')]
    exact hsome

theorem outruns_frame {bytes : ByteArray} {rest : List Arrival} {answer : Except ClientError Request}
    (first : i.arrivals = .frame bytes :: rest) :
    i.Outruns .goingOn forToken now .frame answer ↔
      i.Admits forToken now ∧ answer = decode bytes := by
  constructor
  · intro h
    cases h with
    | frame head _ admitted =>
      rw [first] at head
      cases head
      exact ⟨admitted, rfl⟩
    | failure head =>
      rw [first] at head
      cases head
  · rintro ⟨admitted, rfl⟩
    exact .frame first rfl admitted

theorem outruns_token {bytes : ByteArray} {wake : Nat} {answer : Except ClientError Request}
    (due : wake ≤ now) :
    i.Outruns forFrame forToken now (.token bytes wake) answer ↔
      i.Admits forToken now ∧ answer = decode bytes := by
  constructor
  · intro h
    cases h with
    | token _ admitted => exact ⟨admitted, rfl⟩
  · rintro ⟨admitted, rfl⟩
    exact .token due admitted

/-- Of a closed client a frame is decoded if it is admitted, and lost if it is not. -/
theorem exists_pay (i : Inbound κ) (clock : Clock) (forToken : Favour) (now : Nat) (bytes : ByteArray) :
    ∃ after answer, i.pay clock true forToken now bytes = (after, .ended answer) ∧
      (i.Admits forToken now ∧ answer = decode bytes ∨
        answer = .error .closed ∧ ∀ other, ¬ (i.Admits forToken now ∧ other = decode bytes)) := by
  unfold pay
  cases hlimiter : i.limiter with
  | none => exact ⟨_, _, rfl, .inl ⟨admits_of_none hlimiter forToken now, rfl⟩⟩
  | some b =>
    rw [admits_iff hlimiter]
    cases forToken with
    | closed => exact ⟨_, _, rfl, .inr ⟨rfl, nofun⟩⟩
    | goingOn =>
      cases htry : b.tryAcquire now with
      | mk left took =>
        dsimp only
        rw [if_neg (by decide), htry]
        cases took with
        | true => exact ⟨_, _, rfl, .inl ⟨⟨rfl, rfl⟩, rfl⟩⟩
        | false => exact ⟨_, _, rfl, .inr ⟨rfl, nofun⟩⟩

/-- A call of a closed client ends, and is told that it is closed unless it outruns that. -/
theorem exists_ended (i : Inbound κ) (clock : Clock) (forFrame forToken : Favour) (now wall : Nat)
    (w : Waiting) :
    ∃ after answer, i.goOn clock true forFrame forToken now wall w = (after, .ended answer) ∧
      (i.Outruns forFrame forToken now w answer ∨
        answer = .error .closed ∧ ∀ other, ¬ i.Outruns forFrame forToken now w other) := by
  cases w with
  | frame =>
    cases forFrame with
    | closed => exact ⟨i, _, rfl, .inr ⟨rfl, fun other h => by cases h <;> contradiction⟩⟩
    | goingOn =>
      unfold goOn
      cases harrivals : i.arrivals with
      | nil =>
        refine ⟨i, .error .closed, by cases i.hungUp <;> rfl, .inr ⟨rfl, fun other h => ?_⟩⟩
        cases h with
        | frame first => rw [harrivals] at first; cases first
        | failure first => rw [harrivals] at first; cases first
      | cons a rest =>
        cases a with
        | failure reason => exact ⟨_, _, rfl, .inl (.failure harrivals rfl)⟩
        | frame bytes =>
          simp only [outruns_frame harrivals]
          exact exists_pay { i with arrivals := rest, touched := wall } clock forToken now bytes
  | token bytes wake =>
    unfold goOn
    dsimp only
    by_cases hearly : now < wake
    · rw [if_pos hearly, if_pos rfl]
      refine ⟨i, .error .closed, rfl, .inr ⟨rfl, fun other h => ?_⟩⟩
      cases h with
      | token due => omega
    · rw [if_neg hearly]
      simp only [outruns_token (Nat.le_of_not_lt hearly)]
      exact exists_pay i clock forToken now bytes

/-! ## who waits for a token -/

/-- Tokens are waited for only where requests are limited. -/
def Needs (i : Inbound κ) : Progress → Prop
  | .waiting (.token _ _) => i.limiter.isSome = true
  | _ => True

omit [Quantity κ] in
theorem Needs.of_limiter {j : Inbound κ} {p : Progress} (h : i.Needs p) (hsame : j.limiter = i.limiter) :
    j.Needs p := by
  unfold Needs at h ⊢
  rw [hsame]
  exact h

theorem needs_pay (i : Inbound κ) (clock : Clock) (closed : Bool) (forToken : Favour) (now : Nat)
    (bytes : ByteArray) :
    (i.pay clock closed forToken now bytes).1.Needs (i.pay clock closed forToken now bytes).2 := by
  unfold pay
  cases i.limiter with
  | none => trivial
  | some b =>
    dsimp only
    split
    · trivial
    · split
      · trivial
      · cases closed
        · rfl
        · trivial

theorem needs_goOn (h : i.Needs (.waiting w)) (clock : Clock) (closed : Bool)
    (forFrame forToken : Favour) (now wall : Nat) :
    (i.goOn clock closed forFrame forToken now wall w).1.Needs
      (i.goOn clock closed forFrame forToken now wall w).2 := by
  unfold goOn
  cases w with
  | frame =>
    dsimp only
    split
    · trivial
    · split
      · exact needs_pay _ clock closed forToken now _
      · trivial
      · cases i.hungUp <;> trivial
  | token bytes wake =>
    dsimp only
    split
    · cases closed
      · exact h
      · trivial
    · exact needs_pay i clock closed forToken now bytes

/-- What is closed cannot be outrun where that is always seen first. -/
theorem not_outruns (h : i.Needs (.waiting w)) (answer : Except ClientError Request) :
    ¬ i.Outruns .closed .closed now w answer := by
  rintro (⟨_, seen, _⟩ | ⟨_, seen⟩ | ⟨_, admitted⟩)
  · cases seen
  · cases seen
  · obtain ⟨b, hlimiter⟩ := Option.isSome_iff_exists.1 h
    cases (admitted b hlimiter).1

end Client.Inbound

/-! ## readers -/

/-- a client, what the call for its next request waits for if there is one, the time, and what the calls
came to so far -/
structure Reader (κ : Type) where
  client : Client κ
  call : Option Waiting := none
  now : Nat
  answers : List (Except ClientError Request) := []

namespace Reader

inductive Step where
  /-- the connection delivers something -/
  | arrive (a : Arrival)
  | hangUp
  /-- something happens on the way out; closing is one such thing -/
  | wayOut (e : Outbound.Event)
  /-- the next request is asked for, unless it is already -/
  | ask
  /-- The call goes on as far as it can.  Should the client be closed, the choices are for the wait for a
  frame and the wait for a token. -/
  | goOn (forFrame forToken : Favour)
  | giveUp
  | pass (till : Nat)

/-- just made -/
def made (connection : Nat) (p : Profile) (s : Client.Settings) (now : Nat) : Reader κ :=
  { client := .new connection p s now now, now }

/-- The call has come this far. -/
def after (r : Reader κ) (inbound : Inbound κ) : Progress → Reader κ
  | .waiting w => { r with client := { r.client with inbound }, call := some w }
  | .ended answer =>
    { r with client := { r.client with inbound }, call := none, answers := r.answers ++ [answer] }

def next (clock : Clock) (r : Reader κ) : Step → Reader κ
  | .arrive a => { r with client := { r.client with inbound := r.client.inbound.deliver a } }
  | .hangUp => { r with client := { r.client with inbound := r.client.inbound.hangUp } }
  | .wayOut e => { r with client := { r.client with outbound := r.client.outbound.next e } }
  | .ask => { r with call := some (r.call.getD .frame) }
  | .goOn forFrame forToken =>
    match r.call with
    | none => r
    | some w =>
      let (inbound, progress) :=
        r.client.inbound.goOn clock r.client.outbound.closed forFrame forToken r.now r.now w
      r.after inbound progress
  | .giveUp => { r with call := none }
  | .pass till => { r with now := max r.now till }

def run (clock : Clock) (r : Reader κ) (steps : List Step) : Reader κ := steps.foldl (next clock) r

def closed (r : Reader κ) : Bool := r.client.outbound.closed

variable {r : Reader κ} {clock : Clock} {w : Waiting}

theorem run_append (clock : Clock) (r : Reader κ) (xs ys : List Step) :
    r.run clock (xs ++ ys) = (r.run clock xs).run clock ys := List.foldl_append

/-- Closed clients stay closed. -/
theorem closed_next (h : r.closed = true) (clock : Clock) (x : Step) :
    (r.next clock x).closed = true := by
  cases x with
  | wayOut e =>
    show (r.client.outbound.next e).closed = true
    rw [Outbound.closed_next, show r.client.outbound.closed = true from h, Bool.true_or, Bool.true_or]
  | goOn forFrame forToken =>
    unfold next
    dsimp only
    split
    · exact h
    · unfold after
      split <;> exact h
  | _ => exact h

theorem closed_run (h : r.closed = true) (clock : Clock) (steps : List Step) :
    (r.run clock steps).closed = true := by
  induction steps generalizing r with
  | nil => exact h
  | cons x steps ih => exact ih (closed_next h clock x)

/-- A client is closed once it was told to. -/
theorem closed_of_mem (clock : Clock) {steps : List Step} (h : .wayOut .close ∈ steps) :
    (r.run clock steps).closed = true := by
  obtain ⟨before, later, rfl⟩ := List.append_of_mem h
  rw [run_append]
  refine closed_run ?_ clock later
  show ((r.run clock before).client.outbound.next .close).closed = true
  rw [Outbound.closed_next, beq_self_eq_true, Bool.or_true, Bool.true_or]

/-- Who waits for a token needs one. -/
def Needy (r : Reader κ) : Prop := ∀ w, r.call = some w → r.client.inbound.Needs (.waiting w)

theorem Needy.next (h : r.Needy) (clock : Clock) (x : Step) : (r.next clock x).Needy := by
  cases x with
  | arrive a =>
    have hlimiter : (r.client.inbound.deliver a).limiter = r.client.inbound.limiter := by
      unfold Inbound.deliver
      split <;> rfl
    exact fun w hw => (h w hw).of_limiter hlimiter
  | ask =>
    intro w hw
    change some (r.call.getD .frame) = some w at hw
    cases hcall : r.call with
    | none =>
      rw [hcall] at hw
      cases hw
      trivial
    | some v =>
      rw [hcall] at hw
      exact h w (hcall.trans hw)
  | goOn forFrame forToken =>
    unfold Reader.next
    dsimp only
    split
    · exact h
    · rename_i v hcall
      have hneeds := Inbound.needs_goOn (h v hcall) clock r.client.outbound.closed forFrame forToken
        r.now r.now
      generalize r.client.inbound.goOn clock _ forFrame forToken r.now r.now v = went at hneeds
      obtain ⟨inbound, progress⟩ := went
      cases progress with
      | waiting v' => rintro w ⟨⟩; exact hneeds
      | ended answer => exact nofun
  | giveUp => exact nofun
  | _ => exact h

theorem needy_run (h : r.Needy) (clock : Clock) (steps : List Step) : (r.run clock steps).Needy := by
  induction steps generalizing r with
  | nil => exact h
  | cons x steps ih => exact ih (h.next clock x)

/-- A call of a closed client is over as soon as it goes on. -/
theorem exists_answer (hclosed : r.closed = true) (hcall : r.call = some w) (clock : Clock)
    (forFrame forToken : Favour) :
    ∃ answer, (r.next clock (.goOn forFrame forToken)).call = none ∧
      (r.next clock (.goOn forFrame forToken)).answers = r.answers ++ [answer] ∧
      (r.client.inbound.Outruns forFrame forToken r.now w answer ∨
        answer = .error .closed ∧
          ∀ other, ¬ r.client.inbound.Outruns forFrame forToken r.now w other) := by
  obtain ⟨inbound, answer, hended, hanswer⟩ :=
    r.client.inbound.exists_ended clock forFrame forToken r.now r.now w
  refine ⟨answer, ?_, ?_, hanswer⟩
  all_goals
    unfold next
    dsimp only
    rw [hcall, show r.client.outbound.closed = true from hclosed]
    dsimp only
    rw [hended]
    rfl

/-- Closing is seen first. -/
def Step.Biased : Step → Prop
  | .goOn forFrame forToken => forFrame = .closed ∧ forToken = .closed
  | _ => True

theorem answers_next (hclosed : r.closed = true) (hneedy : r.Needy) (clock : Clock) {x : Step}
    (hx : x.Biased) : (r.next clock x).answers = r.answers ∨
      (r.next clock x).answers = r.answers ++ [.error .closed] := by
  cases x with
  | goOn forFrame forToken =>
    obtain ⟨rfl, rfl⟩ := hx
    cases hcall : r.call with
    | none =>
      refine .inl ?_
      unfold next
      rw [hcall]
    | some w =>
      obtain ⟨answer, -, hanswers, houtruns | ⟨rfl, -⟩⟩ :=
        exists_answer hclosed hcall clock .closed .closed
      · exact absurd houtruns (Inbound.not_outruns (hneedy w hcall) answer)
      · exact .inr hanswers
  | _ => exact .inl rfl

/-- Where closing is always seen first, a closed client is read no more. -/
theorem run_biased (hclosed : r.closed = true) (hneedy : r.Needy) (clock : Clock) {steps : List Step}
    (hsteps : ∀ x ∈ steps, x.Biased) :
    ∃ n, (r.run clock steps).answers = r.answers ++ List.replicate n (.error .closed) := by
  induction steps generalizing r with
  | nil => exact ⟨0, (List.append_nil _).symm⟩
  | cons x steps ih =>
    obtain ⟨hx, hrest⟩ := List.forall_mem_cons.1 hsteps
    obtain ⟨n, hrun⟩ := ih (closed_next hclosed clock x) (hneedy.next clock x) hrest
    rcases answers_next hclosed hneedy clock hx with hsame | hone
    · rw [hsame] at hrun
      exact ⟨n, hrun⟩
    · rw [hone, List.append_assoc] at hrun
      exact ⟨n + 1, hrun⟩

/-- **A closed client is told so unless that is outrun.**  In every run, a client that was told to close
is closed.  Whoever asks a closed client for a request, or was asking when it was closed, gets an answer
as soon as the call goes on.  The answer is that the client is closed, unless a frame or a failure is
there and is seen first, and no token is missing or the token is there and is seen first too.  If closing
is always seen first, there are no other answers from then on. -/
theorem told_unless_outrun (clock : Clock) (connection : Nat) (p : Profile) (s : Client.Settings)
    (start : Nat) (steps : List Step) :
    let r := (made (κ := κ) connection p s start).run clock steps
    (.wayOut .close ∈ steps → r.closed = true) ∧
      (r.closed = true →
        (∀ w, r.call = some w → ∀ forFrame forToken, ∃ answer,
          (r.next clock (.goOn forFrame forToken)).call = none ∧
          (r.next clock (.goOn forFrame forToken)).answers = r.answers ++ [answer] ∧
          (r.client.inbound.Outruns forFrame forToken r.now w answer ∨
            answer = .error .closed ∧
              ∀ other, ¬ r.client.inbound.Outruns forFrame forToken r.now w other)) ∧
        ∀ later : List Step, (∀ x ∈ later, x.Biased) →
          ∃ n, (r.run clock later).answers = r.answers ++ List.replicate n (.error .closed)) := by
  intro r
  have hneedy : r.Needy := needy_run (fun _ hcall => by cases hcall) clock steps
  exact ⟨closed_of_mem clock, fun hclosed =>
    ⟨fun _ hcall forFrame forToken => exists_answer hclosed hcall clock forFrame forToken,
      fun later hbiased => run_biased hclosed hneedy clock hbiased⟩⟩

/-- A frame that waits is not paid for any more, if closing is seen before the token. -/
theorem told_unless_outrun_sample :
    let r := (made (κ := Rat) 7 (.regular (.ofNat 1) "") {} 0).run .millis
      [.arrive (.frame .empty), .wayOut .close, .ask]
    r.closed = true ∧ r.call = some .frame ∧
      (r.next .millis (.goOn .goingOn .closed)).answers = [.error .closed] := by
  obtain ⟨hclosed, htold⟩ := told_unless_outrun (κ := Rat) .millis 7 (.regular (.ofNat 1) "") {} 0
    [.arrive (.frame .empty), .wayOut .close, .ask]
  have hshut := hclosed (.tail _ (.head _))
  refine ⟨hshut, rfl, ?_⟩
  obtain ⟨answer, -, hanswers, houtruns | ⟨rfl, -⟩⟩ := (htold hshut).1 .frame rfl .goingOn .closed
  · cases houtruns with
    | frame _ _ admitted => cases (admitted _ rfl).1
    | failure first => cases first
  · exact hanswers

end Reader

/-! ## requests of closed clients -/

namespace Sample

def lastWish : Request := .joinQueue [⟨1⟩]

/-- a client whose requests are not limited, closed while a frame waits -/
def shutEarly (bytes : ByteArray) : Reader Rat :=
  (Reader.made 7 (.regular (.ofNat 1) "") { rateLimitBurst := 0 } 0).run .millis
    [.arrive (.frame bytes), .wayOut .close]

/-- a client that is closed just when the token is due for which its second frame waits -/
def shutLate (bytes : ByteArray) : Reader Rat :=
  (Reader.made 7 (.regular (.ofNat 1) "") {} 0).run .millis
    [.arrive (.frame bytes), .arrive (.frame bytes), .ask, .goOn .closed .closed, .ask,
      .goOn .closed .closed, .pass 5000000000, .wayOut .close]

end Sample

namespace Reader
open Sample

/-- The first frame is paid for at once, the second one waits for five seconds. -/
theorem answers_shutLate (bytes : ByteArray) :
    (shutLate bytes).closed = true ∧ (shutLate bytes).call = some (.token bytes 5000000000) ∧
      ((shutLate bytes).run .millis [.goOn .goingOn .goingOn]).answers =
        [Inbound.decode bytes, Inbound.decode bytes] := by
  have hprice : (5000000000 : Nat) ≠ 0 := by decide
  have hmade : Inbound.new {} 0 0 =
      ({ limiter := some (.exact 1 5000000000 5000000000 0), touched := 0 } : Inbound Rat) :=
    congrArg (fun limiter => ({ limiter, touched := 0 } : Inbound Rat))
      (TokenBucket.full?_exact Nat.one_ne_zero hprice 0)
  have hpaid : (TokenBucket.exact 1 5000000000 5000000000 0).tryAcquire 0 =
      (.exact 1 5000000000 0 0, true) := TokenBucket.tryAcquire_exact hprice (by decide) 0 0
  have hmissing : (TokenBucket.exact 1 5000000000 0 0).tryAcquire 0 =
      (.exact 1 5000000000 0 0, false) := TokenBucket.tryAcquire_exact hprice (by decide) 0 0
  have hwake : Clock.millis.wake 0 (TokenBucket.exact 1 5000000000 0 0).shortage = 5000000000 := by
    rw [TokenBucket.shortage_exact hprice (by decide)]
    decide
  have hdue : (TokenBucket.exact 1 5000000000 0 0).tryAcquire 5000000000 =
      (.exact 1 5000000000 0 5000000000, true) :=
    TokenBucket.tryAcquire_exact hprice (by decide) 0 5000000000
  simp [shutLate, made, Client.new, hmade, run, next, Inbound.goOn, Inbound.pay, Inbound.deliver,
    after, hpaid, hmissing, hwake, hdue, closed, Outbound.next, Outbound.close, Outbound.new]

/-- Neither of the two is told: the one is asked for a request after it was closed, the other before. -/
theorem closed_client_not_told :
    let early := shutEarly lastWish.text.toUTF8
    let late := shutLate lastWish.text.toUTF8
    early.closed = true ∧ early.call = none ∧
      (early.run .millis [.ask, .goOn .goingOn .goingOn]).answers = [.ok lastWish] ∧
      late.closed = true ∧ late.call = some (.token lastWish.text.toUTF8 5000000000) ∧
      (late.run .millis [.goOn .goingOn .goingOn]).answers = [.ok lastWish, .ok lastWish] := by
  have hread := Protocol.Frame.read_chars (f := lastWish.toFrame) lastWish.op.code_range
    lastWish.fits_payload
  have hdecoded : Request.decodeStaged lastWish.text.toUTF8 = .ok lastWish :=
    (Request.decode_of_frame hread lastWish.ofFrame_settled).1
  have hdecode : Inbound.decode lastWish.text.toUTF8 = .ok lastWish := by
    rw [Inbound.decode, hdecoded]
  have hearly : ∀ bytes, ((shutEarly bytes).run .millis [.ask, .goOn .goingOn .goingOn]).answers =
      [Inbound.decode bytes] := fun _ => rfl
  have hlate := answers_shutLate lastWish.text.toUTF8
  rw [hdecode] at hlate
  refine ⟨rfl, rfl, ?_, hlate⟩
  rw [hearly, hdecode]

end Reader

end Matchmaker
