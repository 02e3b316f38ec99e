import Matchmaker.Proofs.Protocol.Wire
import Matchmaker.Proofs.Server.Alike
import Matchmaker.Proofs.Server.Attendance

/-!
# Frames that are no requests

A frame that does not decode to a request is read and dropped, and that is all.  So whatever comes
over a connection, in whatever pieces, the server ends up as if the requests among it had been handled
one after the other (`goOn_reads`), and leaving out all other frames makes no difference.
-/

namespace Matchmaker

open Chat (DateBlind)
open Coordinator (Outcome)
open Protocol (Request Response)

/-- the request in a frame, if there is one -/
def Protocol.Request.ofBytes? (bytes : ByteArray) : Option Request :=
  (Request.decodeStaged bytes).toOption

/-- A request that is sent is one. -/
theorem Protocol.Request.ofBytes?_text (q : Request) : Request.ofBytes? q.text.toUTF8 = some q := by
  have hread := Protocol.Frame.read_chars (f := q.toFrame) q.op.code_range q.fits_payload
  have hdecoded : decodeStaged q.text.toUTF8 = .ok q := (decode_of_frame hread q.ofFrame_settled).1
  rw [ofBytes?, hdecoded]
  rfl

namespace Served
variable {κ : Type} [Client.Quantity κ]

/-- with other responses in its queue -/
def withQueue (v : Served κ) (queue : List Response) : Served κ :=
  { v with client := { v.client with outbound := { v.client.outbound with queue } } }

theorem exists_withQueue_take (v : Served κ) (r : Response) :
    ∃ queue, Endpoint.take v r = v.withQueue queue := by
  by_cases h : v.client.Accepts
  · refine ⟨v.client.outbound.queue ++ [r], ?_⟩
    show ({ v with client := Endpoint.take v.client r } : Served κ) = _
    rw [Client.take_of_accepts h]
    rfl
  · refine ⟨v.client.outbound.queue, ?_⟩
    show ({ v with client := Endpoint.take v.client r } : Served κ) = _
    rw [Client.take_of_not_accepts h]
    rfl

theorem exists_withQueue_foldl (v : Served κ) (rs : List Response) :
    ∃ queue, rs.foldl Endpoint.take v = v.withQueue queue := by
  induction rs generalizing v with
  | nil => exact ⟨v.client.outbound.queue, rfl⟩
  | cons r rs ih =>
    obtain ⟨queue, hqueue⟩ := exists_withQueue_take v r
    obtain ⟨queue', hqueue'⟩ := ih (v.withQueue queue)
    refine ⟨queue', ?_⟩
    rw [List.foldl_cons, hqueue, hqueue']
    rfl

end Served

namespace Server
variable {σ π κ : Type} [Client.Quantity κ] [ChatStore σ] {s t : Server σ π κ} {n k : Nat}
  {c d : Client κ} {v : Served κ}

/-! ## what a request leaves alone -/

theorem handle_cases (hs : s.AtRest) (m : Moment) (e : Session) (q : Request) :
    s.handle m e q = s ∨ ∃ c store as, (∀ a ∈ as, ∃ n r, a = .deliver n r) ∧
      s.handle m e q = (s.left c store as).carryOut m := by
  cases q with
  | joinQueue servers =>
    exact .inr ⟨_, _, _, Coordinator.onlyTells_join s.lookup _ e.steamId servers, rfl⟩
  | leaveQueue servers =>
    exact .inr ⟨_, _, _, Coordinator.onlyTells_leave _ e.steamId servers, rfl⟩
  | message body =>
    unfold Server.handle
    dsimp only
    split
    · rename_i x hx
      rw [call_addMessage hs]
      split
      · exact .inr ⟨_, _, _, Coordinator.onlyTells_message _ _, rfl⟩
      · exact .inl rfl
    · exact .inl rfl

/-- A request puts responses into queues, and changes nothing else about a connection. -/
theorem exists_get?_handle (hs : s.AtRest) (hget : s.served.get? n = some v) (m : Moment)
    (e : Session) (q : Request) :
    ∃ queue, (s.handle m e q).served.get? n = some (v.withQueue queue) := by
  rcases handle_cases hs m e q with hsame | ⟨c, store, as, has, hleft⟩
  · refine ⟨v.client.outbound.queue, ?_⟩
    rw [hsame]
    exact hget
  · have heffects : (s.left c store as).service.effects = as := congrArg (· ++ as) hs
    obtain ⟨queue, hqueue⟩ := v.exists_withQueue_foldl (Effect.responses n as)
    refine ⟨queue, ?_⟩
    rw [hleft]
    show (s.served.applyAll m.now (s.left c store as).service.effects).get? n = _
    rw [heffects, Endpoints.get?_applyAll, hget, Option.map_some,
      Effect.foldl_upon_of_deliver has, hqueue]

/-! ## reading -/

/-- The handler of a connection waits for a frame, with these still to be read, and requests over it
are not limited. -/
structure Reading (s : Server σ π κ) (n : Nat) (c : Client κ) (frames : List ByteArray) : Prop where
  served : s.served.get? n = some ⟨c, some .frame⟩
  arrivals : c.inbound.arrivals = frames.map Client.Arrival.frame
  limiter : c.inbound.limiter = none
  atRest : s.AtRest

/-- the server with another client on a connection, and its handler waiting for a frame -/
def withClient (s : Server σ π κ) (c : Client κ) : Server σ π κ :=
  { s with served := s.served.insert ⟨c, some .frame⟩ }

/-- the client when a frame was read, and these are left -/
def afterFrame (c : Client κ) (m : Moment) (rest : List ByteArray) : Client κ :=
  { c with
    inbound := { c.inbound with arrivals := rest.map Client.Arrival.frame, touched := m.wall }
    activity := some m.wall }

section
variable {frames : List ByteArray} {m : Moment} {b : ByteArray}

omit [ChatStore σ] in
theorem Reading.connection (h : s.Reading n c frames) : c.session.connection = n :=
  (Ascending.get?_eq_some_iff.1 h.served).2

omit [ChatStore σ] in
theorem Reading.withClient (h : s.Reading n c frames) {rest : List ByteArray}
    (hsession : d.session = c.session) (harrivals : d.inbound.arrivals = rest.map .frame)
    (hlimiter : d.inbound.limiter = none) : (s.withClient d).Reading n d rest where
  served := by
    show (s.served.insert ⟨d, some .frame⟩).get? n = _
    rw [Ascending.get?_insert]
    exact if_pos ((congrArg Session.connection hsession).trans h.connection)
  arrivals := harrivals
  limiter := hlimiter
  atRest := h.atRest

/-- A request leaves what is still to be read alone. -/
theorem Reading.handle (h : s.Reading n c frames) (e : Session) (q : Request) :
    ∃ queue,
      (s.handle m e q).Reading n { c with outbound := { c.outbound with queue } } frames := by
  obtain ⟨queue, hqueue⟩ := exists_get?_handle h.atRest h.served m e q
  exact ⟨queue, hqueue, h.arrivals, h.limiter, atRest_handle h.atRest m e q⟩

/-- A frame is read, and handled if it is a request. -/
theorem goOn_frame (h : s.Reading n c (b :: frames)) (hopen : c.outbound.closed = false) :
    goOn m n (k + 1) s =
      goOn m n k (match Request.ofBytes? b with
        | some q => (s.withClient (afterFrame c m frames)).handle m c.session q
        | none => s.withClient (afterFrame c m frames)) := by
  have hread : c.inbound.goOn s.clock c.outbound.closed .closed .closed m.now m.wall .frame =
      ((afterFrame c m frames).inbound, .ended (Client.Inbound.decode b)) := by
    unfold Client.Inbound.goOn
    rw [hopen, h.arrivals]
    show Client.Inbound.pay { c.inbound with arrivals := _, touched := _ } _ _ _ _ b = _
    unfold Client.Inbound.pay afterFrame
    dsimp only
    rw [h.limiter]
  have hheard : (Client.Waiting.frame.reads && !c.inbound.arrivals.isEmpty) = true := by
    rw [h.arrivals]
    rfl
  rw [goOn, h.served]
  unfold Client.goOn
  dsimp only
  rw [hread, hheard]
  unfold Request.ofBytes? Client.Inbound.decode
  cases Request.decodeStaged b <;> rfl

/-- What a client has not read, and what its handler waits for, make no difference. -/
theorem alike_insert [DateBlind σ] {w : Served κ} (hget : s.served.get? n = some v)
    (hsession : w.client.session = v.client.session)
    (houtbound : w.client.outbound = v.client.outbound) :
    Alike ({ s with served := s.served.insert w } : Server σ π κ) s := by
  refine ⟨rfl, rfl, rfl, rfl, fun k => ?_⟩
  show ((s.served.insert w).get? k).map Served.sent = _
  rw [Ascending.get?_insert]
  split
  · rename_i hk
    have hn : k = n := by
      rw [← hk]
      exact (congrArg Session.connection hsession).trans (Ascending.get?_eq_some_iff.1 hget).2
    rw [hn, hget]
    exact congrArg some (Prod.ext hsession (congrArg Client.Outbound.undated houtbound))
  · rfl

/-- The handler reads all frames, and the server is then as if the requests among them had been
handled. -/
theorem goOn_reads [DateBlind σ] (h : s.Reading n c frames) (hopen : c.outbound.closed = false)
    (hk : frames.length < k) :
    ∃ j t d, goOn m n k s = goOn m n (j + 1) t ∧ t.Reading n d [] ∧ d.session = c.session ∧
      d.outbound.closed = false ∧ d.inbound.hungUp = c.inbound.hungUp ∧
      Alike t (s.serve c.session ((frames.filterMap Request.ofBytes?).map (m, ·))) := by
  induction frames generalizing s c k with
  | nil =>
    obtain ⟨j, rfl⟩ : ∃ j, k = j + 1 := ⟨k - 1, by omega⟩
    exact ⟨j, s, c, rfl, h, rfl, hopen, rfl, .refl s⟩
  | cons b frames ih =>
    obtain ⟨k, rfl⟩ : ∃ j, k = j + 1 := ⟨k - 1, by omega⟩
    have hk' : frames.length < k := Nat.lt_of_succ_lt_succ hk
    have hafter := h.withClient (d := afterFrame c m frames) rfl rfl h.limiter
    have halike : Alike (s.withClient (afterFrame c m frames)) s := alike_insert h.served rfl rfl
    rw [goOn_frame h hopen, List.filterMap_cons]
    cases hb : Request.ofBytes? b with
    | none =>
      obtain ⟨j, t, d, hgoOn, ht, hsession, hclosed, hhungUp, hsame⟩ := ih hafter hopen hk'
      exact ⟨j, t, d, hgoOn, ht, hsession, hclosed, hhungUp,
        hsame.trans (halike.serve hafter.atRest h.atRest _ rfl)⟩
    | some q =>
      obtain ⟨queue, hhandled⟩ := hafter.handle (m := m) c.session q
      obtain ⟨j, t, d, hgoOn, ht, hsession, hclosed, hhungUp, hsame⟩ := ih hhandled hopen hk'
      refine ⟨j, t, d, hgoOn, ht, hsession, hclosed, hhungUp, hsame.trans ?_⟩
      exact (halike.handle hafter.atRest h.atRest m m c.session q).serve hhandled.atRest
        (atRest_handle h.atRest ..) _ rfl

omit [Client.Quantity κ] [ChatStore σ] in
theorem foldl_deliver {i : Client.Inbound κ} (h : i.hungUp = false) (frames : List ByteArray) :
    frames.foldl (fun i b => i.deliver (.frame b)) i =
      { i with arrivals := i.arrivals ++ frames.map Client.Arrival.frame } := by
  induction frames generalizing i with
  | nil => rw [List.map_nil, List.append_nil]; rfl
  | cons b frames ih =>
    have hb : i.deliver (.frame b) = { i with arrivals := i.arrivals ++ [.frame b] } :=
      if_neg (by rw [h]; exact Bool.false_ne_true)
    rw [List.foldl_cons, hb, ih (by exact h), List.map_cons]
    simp

/-- The handler of a connection waits for a frame and has read all that came, and more may come. -/
structure Listening (s : Server σ π κ) (n : Nat) (c : Client κ) : Prop
    extends s.Reading n c [] where
  hungUp : c.inbound.hungUp = false

/-- the client when more has come -/
def delivered (c : Client κ) (frames : List ByteArray) : Client κ :=
  { c with inbound := { c.inbound with arrivals := frames.map Client.Arrival.frame } }

omit [ChatStore σ] in
theorem Listening.deliver_eq (h : s.Listening n c) (frames : List ByteArray) :
    s.deliver n frames = s.withClient (delivered c frames) := by
  unfold Server.deliver
  rw [h.served]
  dsimp only
  rw [foldl_deliver h.hungUp, h.arrivals]
  rfl

omit [ChatStore σ] in
theorem Reading.hangUp_eq (h : s.Reading n c frames) :
    s.hangUp n = s.withClient { c with inbound := c.inbound.hangUp } := by
  unfold Server.hangUp
  rw [h.served]
  rfl

theorem Reading.attend_eq (h : s.Reading n c frames) :
    s.attend m n = goOn m n (frames.length + 1) s := by
  unfold Server.attend
  rw [h.served]
  dsimp only
  rw [h.arrivals, List.length_map]

/-! ## when all has been read -/

theorem goOn_waits (h : s.Listening n c) (hopen : c.outbound.closed = false) :
    goOn m n (k + 1) s = s.withClient c := by
  have hread : c.inbound.goOn s.clock c.outbound.closed .closed .closed m.now m.wall .frame =
      (c.inbound, .waiting .frame) := by
    unfold Client.Inbound.goOn
    rw [hopen, h.arrivals, h.hungUp]
    rfl
  rw [goOn, h.served]
  unfold Client.goOn
  dsimp only
  rw [hread, h.arrivals]
  rfl

/-- the handler of a connection has returned -/
def Returned (s : Server σ π κ) (n : Nat) : Prop := ∃ v, s.served.get? n = some v ∧ v.waiting = none

theorem returned_insert [DateBlind σ] {w : Served κ} (hget : s.served.get? n = some v)
    (hwaiting : w.waiting = none) (hsession : w.client.session = v.client.session)
    (houtbound : w.client.outbound = v.client.outbound) :
    let t : Server σ π κ := { s with served := s.served.insert w }
    t.Returned n ∧ Alike t s := by
  have hn : w.client.session.connection = n :=
    (congrArg Session.connection hsession).trans (Ascending.get?_eq_some_iff.1 hget).2
  have hw : (s.served.insert w).get? n = some w := (Ascending.get?_insert ..).trans (if_pos hn)
  exact ⟨⟨w, hw, hwaiting⟩, alike_insert hget hsession houtbound⟩

omit [ChatStore σ] in
theorem Returned.step (h : s.Returned n) (m : Moment) (f : Coordinator → Outcome) :
    (s.step m f).Returned n := by
  obtain ⟨v, hget, hv⟩ := h
  have hstage : v.stage = .returned (.ok ()) := by
    unfold Served.stage
    rw [hv]
  have hsame : (s.step m f).stage? n = s.stage? n := congrFun (stage?_carryOut _ m) n
  rw [stage?_of_get? hget, hstage] at hsame
  obtain ⟨w, hw, hwstage⟩ := Option.map_eq_some_iff.1 hsame
  refine ⟨w, hw, ?_⟩
  unfold Served.stage at hwstage
  split at hwstage
  · cases hwstage
  · assumption

/-- The other side has hung up, or the client is closed: the handler returns, and takes its session
out. -/
theorem goOn_returns [DateBlind σ] (h : s.Reading n c frames)
    (hend : c.outbound.closed = true ∨ c.inbound.hungUp = true ∧ frames = []) :
    (goOn m n (k + 1) s).Returned n ∧
      Alike (goOn m n (k + 1) s) (s.step m (·.disconnect c.session.steamId n)) := by
  have hread : c.inbound.goOn s.clock c.outbound.closed .closed .closed m.now m.wall .frame =
      (c.inbound, .ended (.error .closed)) := by
    unfold Client.Inbound.goOn
    cases hclosed : c.outbound.closed with
    | true => rfl
    | false =>
      obtain ⟨hhungUp, rfl⟩ := hend.resolve_left (by rw [hclosed]; exact Bool.false_ne_true)
      rw [h.arrivals, hhungUp]
      rfl
  let d : Client κ :=
    { c with
      activity := if Client.Waiting.frame.reads && !c.inbound.arrivals.isEmpty then some m.wall
        else c.activity }
  let t : Server σ π κ := { s with served := s.served.insert ⟨d, none⟩ }
  have hgoOn : goOn m n (k + 1) s = t.step m (·.disconnect c.session.steamId n) := by
    rw [goOn, h.served]
    unfold Client.goOn
    dsimp only
    rw [hread]
    rfl
  obtain ⟨hreturned, halike⟩ : t.Returned n ∧ Alike t s := returned_insert h.served rfl rfl rfl
  rw [hgoOn]
  exact ⟨hreturned.step m _, halike.disconnect h.atRest h.atRest m m c.session.steamId n⟩

/-- A handler that has returned does nothing more. -/
theorem Returned.attend_eq (h : s.Returned n) (m : Moment) : s.attend m n = s := by
  obtain ⟨⟨c, w⟩, hget, hv⟩ := h
  cases (hv : w = none)
  unfold Server.attend
  rw [hget]
  dsimp only
  rw [goOn, hget]

end

/-! ## whole sessions -/

/-- frames that come over a connection, and the moment at which its handler goes on with them -/
abbrev Batch := Moment × List ByteArray

/-- the requests among the frames, which are handled at that moment -/
def Batch.requests (b : Batch) : List (Moment × Request) :=
  (b.2.filterMap Request.ofBytes?).map (b.1, ·)

/-- Frames come over a connection, and its handler goes on as far as it can. -/
def receive (s : Server σ π κ) (n : Nat) (b : Batch) : Server σ π κ :=
  (s.deliver n b.2).attend b.1 n

def receiveAll (s : Server σ π κ) (n : Nat) (bs : List Batch) : Server σ π κ :=
  bs.foldl (fun s b => s.receive n b) s

/-- The last frames come, and then the other side hangs up. -/
def finish (s : Server σ π κ) (n : Nat) (b : Batch) : Server σ π κ :=
  ((s.deliver n b.2).hangUp n).attend b.1 n

section
variable [DateBlind σ]

omit [ChatStore σ] [DateBlind σ] in
theorem Listening.reading (h : s.Listening n c) (frames : List ByteArray) :
    (s.deliver n frames).Reading n (delivered c frames) frames := by
  rw [h.deliver_eq]
  exact h.toReading.withClient rfl rfl h.limiter

theorem Listening.alike_deliver (h : s.Listening n c) (frames : List ByteArray) :
    Alike (s.deliver n frames) s := by
  rw [h.deliver_eq]
  exact alike_insert h.served rfl rfl

/-- A batch is read to the end, whatever is in it. -/
theorem Listening.receive (h : s.Listening n c) (hopen : c.outbound.closed = false) (b : Batch) :
    ∃ d, (s.receive n b).Listening n d ∧ d.session = c.session ∧ d.outbound.closed = false ∧
      Alike (s.receive n b) (s.serve c.session b.requests) := by
  have hreading := h.reading b.2
  obtain ⟨j, t, d, hgoOn, ht, hsession, hclosed, hhungUp, hsame⟩ :=
    goOn_reads (m := b.1) hreading hopen (Nat.lt_succ_self _)
  have hlistening : t.Listening n d := ⟨ht, hhungUp.trans h.hungUp⟩
  have hreceived : s.receive n b = t.withClient d := by
    show (s.deliver n b.2).attend b.1 n = _
    rw [hreading.attend_eq, hgoOn, goOn_waits hlistening hclosed]
  rw [hreceived]
  refine ⟨d, ⟨ht.withClient rfl ht.arrivals ht.limiter, hhungUp.trans h.hungUp⟩, hsession,
    hclosed, ?_⟩
  exact ((alike_insert ht.served rfl rfl).trans hsame).trans
    ((h.alike_deliver b.2).serve hreading.atRest h.atRest _ rfl)

/-- **Nothing that comes over a connection ends its session.**  All of it is read, and the requests
among it are handled in their order. -/
theorem Listening.receiveAll (h : s.Listening n c) (hopen : c.outbound.closed = false)
    (bs : List Batch) :
    ∃ d, (s.receiveAll n bs).Listening n d ∧ d.session = c.session ∧ d.outbound.closed = false ∧
      Alike (s.receiveAll n bs) (s.serve c.session (bs.flatMap Batch.requests)) := by
  induction bs generalizing s c with
  | nil => exact ⟨c, h, rfl, hopen, .refl s⟩
  | cons b bs ih =>
    obtain ⟨d, hd, hsession, hclosed, hsame⟩ := h.receive hopen b
    obtain ⟨d', hd', hsession', hclosed', hsame'⟩ := ih hd hclosed
    refine ⟨d', hd', hsession'.trans hsession, hclosed', hsame'.trans ?_⟩
    rw [hsession, List.flatMap_cons, Server.serve, Server.serve, List.foldl_append]
    exact hsame.serve hd.atRest (atRest_serve h.atRest c.session b.requests) c.session rfl

omit [ChatStore σ] [DateBlind σ] in
/-- what is there when the last frames have come and the other side has hung up -/
theorem Listening.hungUp_reading (h : s.Listening n c) (frames : List ByteArray) :
    ∃ d, ((s.deliver n frames).hangUp n).Reading n d frames ∧ d.session = c.session ∧
      d.outbound = c.outbound ∧ d.inbound.hungUp = true := by
  have hreading := h.reading frames
  rw [hreading.hangUp_eq]
  exact ⟨_, hreading.withClient rfl rfl h.limiter, rfl, rfl, rfl⟩

theorem Listening.alike_hangUp (h : s.Listening n c) (frames : List ByteArray) :
    Alike ((s.deliver n frames).hangUp n) s := by
  have hreading := h.reading frames
  have hhungUp : Alike ((s.deliver n frames).hangUp n) (s.deliver n frames) := by
    rw [hreading.hangUp_eq]
    exact alike_insert hreading.served rfl rfl
  exact hhungUp.trans (h.alike_deliver frames)

/-- The session ends with the hang-up, when the last requests have been handled. -/
theorem Listening.finish (h : s.Listening n c) (hopen : c.outbound.closed = false) (b : Batch) :
    Alike (s.finish n b)
      ((s.serve c.session b.requests).step b.1 (·.disconnect c.session.steamId n)) := by
  obtain ⟨e, hreading, hesession, heoutbound, hhungUp⟩ := h.hungUp_reading b.2
  have heopen : e.outbound.closed = false := by rwa [heoutbound]
  obtain ⟨j, t, d, hgoOn, ht, hsession, hclosed, hdhungUp, hsame⟩ :=
    goOn_reads (m := b.1) hreading heopen (Nat.lt_succ_self _)
  have hfinish : s.finish n b = goOn b.1 n (j + 1) t := by
    show ((s.deliver n b.2).hangUp n).attend b.1 n = _
    rw [hreading.attend_eq, hgoOn]
  have hserved := atRest_serve (e := c.session) h.atRest b.requests
  rw [hfinish]
  refine (goOn_returns ht (.inr ⟨hdhungUp.trans hhungUp, rfl⟩)).2.trans ?_
  rw [hsession, hesession]
  rw [hesession] at hsame
  refine Alike.disconnect ?_ ht.atRest hserved b.1 b.1 c.session.steamId n
  exact hsame.trans ((h.alike_hangUp b.2).serve hreading.atRest h.atRest c.session rfl)

/-! ### clients that are closed -/

theorem Returned.deliver (h : s.Returned n) (frames : List ByteArray) :
    (s.deliver n frames).Returned n ∧ Alike (s.deliver n frames) s := by
  obtain ⟨v, hget, hv⟩ := h
  unfold Server.deliver
  rw [hget]
  exact returned_insert hget hv rfl rfl

theorem Returned.hangUp (h : s.Returned n) : (s.hangUp n).Returned n ∧ Alike (s.hangUp n) s := by
  obtain ⟨v, hget, hv⟩ := h
  unfold Server.hangUp
  rw [hget]
  exact returned_insert hget hv rfl rfl

theorem Returned.receiveAll (h : s.Returned n) (bs : List Batch) :
    (s.receiveAll n bs).Returned n ∧ Alike (s.receiveAll n bs) s := by
  induction bs generalizing s with
  | nil => exact ⟨h, .refl s⟩
  | cons b bs ih =>
    obtain ⟨hreturned, hsame⟩ := h.deliver b.2
    have hreceive : s.receive n b = s.deliver n b.2 := hreturned.attend_eq b.1
    obtain ⟨hreturned', hsame'⟩ := ih hreturned
    show (Server.receiveAll (s.receive n b) n bs).Returned n ∧
      Alike (Server.receiveAll (s.receive n b) n bs) s
    rw [hreceive]
    exact ⟨hreturned', hsame'.trans hsame⟩

theorem Returned.finish (h : s.Returned n) (b : Batch) : Alike (s.finish n b) s := by
  obtain ⟨hreturned, hsame⟩ := h.deliver b.2
  obtain ⟨hreturned', hsame'⟩ := hreturned.hangUp
  have hfinish : s.finish n b = (s.deliver n b.2).hangUp n := hreturned'.attend_eq b.1
  rw [hfinish]
  exact hsame'.trans hsame

/-- Over the connection of a client that is closed nothing is read any more. -/
theorem Listening.of_closed (h : s.Listening n c) (hclosed : c.outbound.closed = true)
    (bs : List Batch) (last : Batch) (m : Moment) :
    Alike ((s.receiveAll n bs).finish n last) (s.step m (·.disconnect c.session.steamId n)) := by
  cases bs with
  | nil =>
    obtain ⟨e, hreading, hsession, houtbound, -⟩ := h.hungUp_reading last.2
    obtain ⟨-, hsame⟩ := goOn_returns (m := last.1) (k := last.2.length) hreading
      (.inl (by rwa [houtbound]))
    rw [hsession] at hsame
    show Alike (((s.deliver n last.2).hangUp n).attend last.1 n) _
    rw [hreading.attend_eq]
    exact hsame.trans ((h.alike_hangUp last.2).disconnect hreading.atRest h.atRest ..)
  | cons b bs =>
    have hreading := h.reading b.2
    obtain ⟨hreturned, hsame⟩ := goOn_returns (m := b.1) (k := b.2.length) hreading (.inl hclosed)
    have hreceive : s.receive n b = goOn b.1 n (b.2.length + 1) (s.deliver n b.2) :=
      hreading.attend_eq
    rw [← hreceive] at hreturned hsame
    obtain ⟨hreturned', hsame'⟩ := hreturned.receiveAll bs
    refine ((hreturned'.finish last).trans hsame').trans (hsame.trans ?_)
    exact (h.alike_deliver b.2).disconnect hreading.atRest h.atRest ..

/-! ### with and without the other frames -/

/-- all frames that come, one after the other -/
def frames (bs : List Batch) : List ByteArray := bs.flatMap Prod.snd

/-- Which requests are handled is a matter of the frames, however they come. -/
theorem requests_eq (bs : List Batch) :
    (bs.flatMap Batch.requests).map Prod.snd = (frames bs).filterMap Request.ofBytes? := by
  have hbatch : ∀ b : Batch, b.requests.map Prod.snd = b.2.filterMap Request.ofBytes? := fun b => by
    rw [Batch.requests, List.map_map]
    exact List.map_id _
  rw [frames, List.map_flatMap, List.filterMap_flatMap]
  exact congrArg (List.flatMap · bs) (funext hbatch)

/-- Frames that are no requests can be left out. -/
theorem filterMap_filter_isSome (bytes : List ByteArray) :
    (bytes.filter fun b => (Request.ofBytes? b).isSome).filterMap Request.ofBytes? =
      bytes.filterMap Request.ofBytes? := by
  rw [List.filterMap_filter]
  refine congrArg (List.filterMap · bytes) (funext fun b => ?_)
  cases Request.ofBytes? b <;> rfl

/-- A session that ends with a hang-up comes to the requests that came, one after the other, and to
being taken out. -/
theorem Listening.session (h : s.Listening n c) (hopen : c.outbound.closed = false)
    (bs : List Batch) (last : Batch) :
    Alike ((s.receiveAll n bs).finish n last)
      ((s.serve c.session ((bs ++ [last]).flatMap Batch.requests)).step last.1
        (·.disconnect c.session.steamId n)) := by
  obtain ⟨d, hlistening, hsession, hclosed, hreceived⟩ := h.receiveAll hopen bs
  have hfinished := hlistening.finish hclosed last
  have hbefore := atRest_serve (e := c.session) h.atRest (bs.flatMap Batch.requests)
  have hserved : Alike ((s.receiveAll n bs).serve c.session last.requests) _ :=
    hreceived.serve hlistening.atRest hbefore c.session rfl
  have hserve : s.serve c.session ((bs ++ [last]).flatMap Batch.requests) =
      (s.serve c.session (bs.flatMap Batch.requests)).serve c.session last.requests := by
    rw [List.flatMap_append, List.flatMap_singleton, Server.serve, List.foldl_append]
    rfl
  rw [hsession] at hfinished
  rw [hserve]
  exact hfinished.trans (hserved.disconnect (atRest_serve hlistening.atRest ..)
    (atRest_serve hbefore ..) last.1 last.1 c.session.steamId n)

/-- **Frames that are no requests have no effect.**  Whatever comes over a connection before the
other side hangs up, nothing of it ends the session, and all of it comes to the requests among it,
handled in their order, and to the session being taken out.  So had only the frames come that are
requests, in whatever pieces and whenever, everything would be the same but for the times of
messages. -/
theorem malformed_frames_have_no_effect (h : s.Listening n c) (bs : List Batch) (last : Batch) :
    (c.outbound.closed = false →
      (∃ d, (s.receiveAll n bs).Listening n d ∧ d.outbound.closed = false) ∧
        Alike ((s.receiveAll n bs).finish n last)
          ((s.serve c.session ((bs ++ [last]).flatMap Batch.requests)).step last.1
            (·.disconnect c.session.steamId n))) ∧
      ∀ (bs' : List Batch) (last' : Batch),
        frames (bs' ++ [last']) =
          (frames (bs ++ [last])).filter (fun b => (Request.ofBytes? b).isSome) →
        Alike ((s.receiveAll n bs).finish n last) ((s.receiveAll n bs').finish n last') := by
  refine ⟨fun hopen => ⟨?_, h.session hopen bs last⟩, fun bs' last' hframes => ?_⟩
  · obtain ⟨d, hlistening, -, hclosed, -⟩ := h.receiveAll hopen bs
    exact ⟨d, hlistening, hclosed⟩
  · cases hclosed : c.outbound.closed with
    | true =>
      exact (h.of_closed hclosed bs last last.1).trans (h.of_closed hclosed bs' last' last.1).symm
    | false =>
      have hrequests : ((bs ++ [last]).flatMap Batch.requests).map Prod.snd =
          ((bs' ++ [last']).flatMap Batch.requests).map Prod.snd := by
        rw [requests_eq, requests_eq, hframes, filterMap_filter_isSome]
      have hserved := (Alike.refl s).serve h.atRest h.atRest c.session hrequests
      have htakenOut := hserved.disconnect (atRest_serve h.atRest ..) (atRest_serve h.atRest ..)
        last.1 last'.1 c.session.steamId n
      exact ((h.session hclosed bs last).trans htakenOut).trans (h.session hclosed bs' last').symm

end

end Server

namespace Sample

def unlimited : Client.Settings := { rateLimitBurst := 0 }

def client : Client Rat := .new 1 (.regular ⟨76561197960265729⟩ "a") unlimited 0 0

def listener : Client Rat := .new 2 (.regular ⟨76561197960265730⟩ "b") unlimited 0 0

/-- Two players are connected, and have sent nothing yet.  There is a lobby. -/
def welcoming : Server Chat.Log Unit Rat :=
  let service : Service Chat.Log Unit := .new {} .empty () fun _ _ => false
  let lobby : LobbyInfo := ⟨⟨7⟩, "", "", "", 0, "", 0, 2⟩
  { service := { service with
      coordinator := { (service.coordinator.reconcile [lobby]).state with
        clients := .ofList [client.session, listener.session] } }
    authenticator := Server.byIdentity
    lookup := fun _ => .ok []
    clock := id
    settings := unlimited
    allowedOrigins := []
    served := .ofList [⟨client, some .frame⟩, ⟨listener, some .frame⟩] }

def garbage : ByteArray := (String.ofList ['x']).toUTF8

theorem ofBytes?_garbage : Request.ofBytes? garbage = none := by
  rw [Request.ofBytes?, Request.decodeStaged, Protocol.Frame.decode, garbage, Text.chars_toUTF8,
    String.toList_ofList]
  rfl

def written (q : Request) : ByteArray := q.text.toUTF8

theorem ofBytes?_written (q : Request) : Request.ofBytes? (written q) = some q :=
  Request.ofBytes?_text q

/-- to wait for the lobby, to say something, and to wait no longer -/
def wish : Request := .joinQueue [⟨7⟩]
def word : Request := .message "hi"
def regret : Request := .leaveQueue [⟨7⟩]

def moment (n : Nat) : Moment := ⟨n, n, { midnight with day := n }⟩

/-- how the message is stored -/
def spoken : ChatEntry :=
  ⟨1, client.session.steamId, midnight, "a", "", 10, "hi", false⟩

end Sample

namespace Server

open Sample in
/-- Requests between frames that are none come to the same as the requests alone on another day.
Everything happens as they ask: the other player is told that somebody waits, gets the message, and
is told that nobody waits any more; at last that player is alone. -/
theorem malformed_frames_have_no_effect_sample :
    let bs : List Batch := [(moment 1, [garbage, written wish, garbage, written word])]
    let last : Batch := (moment 2, [garbage, written regret])
    let t := (welcoming.receiveAll 1 bs).finish 1 last
    Alike t ((welcoming.receiveAll 1 []).finish 1 (moment 3, [wish, word, regret].map written)) ∧
      DateBlind.undated t.service.store = ⟨[spoken.undated]⟩ ∧
      (t.served.get? 2).map (·.client.outbound.undated.queue) = some [
        .stateUpdate ⟨false, true, [⟨⟨7⟩, [client.session.steamId]⟩], []⟩,
        .message spoken.undated,
        .stateUpdate ⟨false, true, [⟨⟨7⟩, []⟩], []⟩,
        .stateUpdate ⟨true, true, [⟨⟨7⟩, []⟩], [listener.session.member]⟩] := by
  intro bs last t
  have h : welcoming.Listening 1 client := ⟨⟨rfl, rfl, rfl, rfl⟩, rfl⟩
  obtain ⟨hreads, hsame⟩ := malformed_frames_have_no_effect h bs last
  have hrequests : (bs ++ [last]).flatMap Batch.requests =
      [(moment 1, wish), (moment 1, word), (moment 2, regret)] := by
    simp [bs, last, Batch.requests, ofBytes?_garbage, ofBytes?_written]
  obtain ⟨-, hserved⟩ := hreads rfl
  rw [hrequests] at hserved
  refine ⟨hsame [] _ ?_, hserved.store.trans ?_, ?_⟩
  · simp [frames, bs, last, ofBytes?_garbage, ofBytes?_written]
  · decide +kernel
  · have hsent := congrArg (Option.map (·.2.queue)) (hserved.sent 2)
    rw [Option.map_map, Option.map_map] at hsent
    refine hsent.trans ?_
    decide +kernel

end Server

end Matchmaker
