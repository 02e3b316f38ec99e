import Matchmaker.Proofs.Client.Outbound
import Matchmaker.Proofs.Coordinator.Chatless

/-!
# Servers that are the same but for times

Two servers are `Alike` if their coordinators, what is stored and what was sent over every connection
differ at most in the times of messages.  What their handlers wait for and what they have not read yet
does not matter.

A request comes to the same on both, whenever it is handled (`Alike.handle`): none of the steps that a
client can ask for looks at times, and what they ask of connections does not depend on them either.
-/

namespace Matchmaker

open Chat (DateBlind)
open Coordinator (Chatless OnlyTells Outcome)
open Protocol (Request Response)

/-! ## what was sent -/

def Client.Outbound.undated (o : Client.Outbound) : Client.Outbound :=
  { o with queue := o.queue.map Response.undated }

theorem Client.Outbound.undated_close (o : Client.Outbound) :
    o.close.undated = o.undated.close := by
  obtain ⟨_, _, _, _, writer, _, _, _, _⟩ := o
  cases writer <;> rfl

namespace Served
variable {κ : Type} [Client.Quantity κ] {v w : Served κ}

/-- whose connection it is, and what was sent over it or waits to be -/
def sent (v : Served κ) : Session × Client.Outbound := (v.client.session, v.client.outbound.undated)

omit [Client.Quantity κ] in
theorem accepts_iff_sent (v : Served κ) : v.client.Accepts ↔
    v.sent.2.closed = false ∧ v.sent.2.isStopped = false ∧
      v.sent.2.queue.length < v.sent.2.capacity := by
  show _ ↔ _ ∧ _ ∧ (v.client.outbound.queue.map _).length < _
  rw [List.length_map]
  exact Iff.rfl

theorem sent_take (h : v.sent = w.sent) {r r' : Response} (hr : r.undated = r'.undated) :
    (Endpoint.take v r).sent = (Endpoint.take w r').sent := by
  have htake : ∀ (v : Served κ) r, (Endpoint.take v r).sent =
      ((Endpoint.take v.client r).session, (Endpoint.take v.client r).outbound.undated) :=
    fun _ _ => rfl
  have hqueued : ∀ (v : Served κ) (r : Response),
      ((v.client.enqueue r).session, (v.client.enqueue r).outbound.undated) =
        (v.sent.1, { v.sent.2 with queue := v.sent.2.queue ++ [r.undated] }) := fun v r => by
    simp [Client.enqueue, Client.Outbound.undated, sent]
  rw [htake, htake]
  by_cases hv : v.client.Accepts
  · have hw : w.client.Accepts := by
      rwa [accepts_iff_sent, ← h, ← accepts_iff_sent]
    rw [Client.take_of_accepts hv, Client.take_of_accepts hw, hqueued, hqueued, h, hr]
  · have hw : ¬ w.client.Accepts := by
      rwa [accepts_iff_sent, ← h, ← accepts_iff_sent]
    rw [Client.take_of_not_accepts hv, Client.take_of_not_accepts hw]
    exact h

theorem sent_close (v : Served κ) : (Endpoint.close v).sent = (v.sent.1, v.sent.2.close) :=
  congrArg (Prod.mk v.client.session) v.client.outbound.undated_close

/-- Effects that are the same but for times come to the same, unless a writer starts. -/
theorem sent_upon (h : v.sent = w.sent) {a b : Effect} (hab : a.undated = b.undated)
    (ha : ∀ n, a ≠ .start n) (now now' n : Nat) :
    (a.upon now n v).sent = (b.upon now' n w).sent := by
  cases a with
  | start c => exact absurd rfl (ha c)
  | deliver c r =>
    cases b with
    | deliver c' r' =>
      injection hab with hc hr
      subst hc
      show (if c = n then Endpoint.take v r else v).sent =
        (if c = n then Endpoint.take w r' else w).sent
      split
      · exact sent_take h hr
      · exact h
    | _ => cases hab
  | close c =>
    cases b with
    | close c' =>
      injection hab with hc
      subst hc
      show (if c = n then Endpoint.close v else v).sent =
        (if c = n then Endpoint.close w else w).sent
      split
      · rw [sent_close, sent_close, h]
      · exact h
    | _ => cases hab
  | release =>
    cases b with
    | release =>
      show (v.sent.1, { v.sent.2 with shutdown := true }) =
        (w.sent.1, { w.sent.2 with shutdown := true })
      rw [h]
    | _ => cases hab

theorem sent_foldl_upon (h : v.sent = w.sent) {as bs : List Effect}
    (hab : as.map Effect.undated = bs.map Effect.undated) (has : ∀ a ∈ as, ∀ n, a ≠ .start n)
    (now now' n : Nat) :
    (as.foldl (Effect.upon now n) v).sent = (bs.foldl (Effect.upon now' n) w).sent := by
  induction as generalizing bs v w with
  | nil =>
    cases bs with
    | nil => exact h
    | cons b bs => cases hab
  | cons a as ih =>
    cases bs with
    | nil => cases hab
    | cons b bs =>
      obtain ⟨ha, has⟩ := List.forall_mem_cons.1 has
      injection hab with hab hrest
      exact ih (sent_upon h hab ha now now' n) hrest has

end Served

/-! ## servers -/

namespace Server
variable {σ π κ : Type} [Client.Quantity κ] [ChatStore σ] [DateBlind σ] {s t u : Server σ π κ}

/-- the same but for the times of messages, and for what was not read yet -/
structure Alike (s t : Server σ π κ) : Prop where
  lookup : s.lookup = t.lookup
  coordinator : s.service.coordinator.undated = t.service.coordinator.undated
  store : DateBlind.undated s.service.store = DateBlind.undated t.service.store
  profiles : s.service.profiles = t.service.profiles
  sent : ∀ n, (s.served.get? n).map Served.sent = (t.served.get? n).map Served.sent

theorem Alike.refl (s : Server σ π κ) : Alike s s := ⟨rfl, rfl, rfl, rfl, fun _ => rfl⟩

theorem Alike.symm (h : Alike s t) : Alike t s :=
  ⟨h.lookup.symm, h.coordinator.symm, h.store.symm, h.profiles.symm, fun n => (h.sent n).symm⟩

theorem Alike.trans (h : Alike s t) (h' : Alike t u) : Alike s u :=
  ⟨h.lookup.trans h'.lookup, h.coordinator.trans h'.coordinator, h.store.trans h'.store,
    h.profiles.trans h'.profiles, fun n => (h.sent n).trans (h'.sent n)⟩

/-- nothing that the service has asked of connections is still to be carried out -/
def AtRest (s : Server σ π κ) : Prop := s.service.effects = []

omit [ChatStore σ] [DateBlind σ] in
theorem carryOut_of_atRest (hs : s.AtRest) (m : Moment) : s.carryOut m = s := by
  obtain ⟨service, _, _, _, _, _, _, _⟩ := s
  obtain ⟨_, _, _, _, _, _, effects⟩ := service
  cases (hs : effects = [])
  rfl

theorem Alike.carryOut (h : Alike s t)
    (heffects : s.service.effects.map Effect.undated = t.service.effects.map Effect.undated)
    (hstart : ∀ a ∈ s.service.effects, ∀ n, a ≠ .start n) (m m' : Moment) :
    Alike (s.carryOut m) (t.carryOut m') where
  lookup := h.lookup
  coordinator := h.coordinator
  store := h.store
  profiles := h.profiles
  sent n := by
    show ((s.served.applyAll m.now s.service.effects).get? n).map Served.sent =
      ((t.served.applyAll m'.now t.service.effects).get? n).map Served.sent
    have hsent := h.sent n
    rw [Endpoints.get?_applyAll, Endpoints.get?_applyAll, Option.map_map, Option.map_map]
    cases hs : s.served.get? n with
    | none =>
      rw [hs] at hsent
      rw [Option.map_eq_none_iff.1 hsent.symm]
      rfl
    | some v =>
      rw [hs] at hsent
      obtain ⟨w, hw, hvw⟩ := Option.map_eq_some_iff.1 hsent.symm
      rw [hw]
      exact congrArg some (Served.sent_foldl_upon hvw.symm heffects hstart m.now m'.now n)

/-- the server as a call leaves it, which asks something of connections -/
def left (s : Server σ π κ) (c : Coordinator) (store : σ) (effects : List Effect) :
    Server σ π κ :=
  { s with
    service := { s.service with
      coordinator := c, store, effects := s.service.effects ++ effects } }

theorem Alike.left (h : Alike s t) (hs : s.AtRest) (ht : t.AtRest) {c d : Coordinator} {a b : σ}
    {as bs : List Effect} (hcd : c.undated = d.undated)
    (hab : DateBlind.undated a = DateBlind.undated b)
    (heffects : as.map Effect.undated = bs.map Effect.undated)
    (hstart : ∀ x ∈ as, ∀ n, x ≠ .start n) (m m' : Moment) :
    Alike ((s.left c a as).carryOut m) ((t.left d b bs).carryOut m') := by
  have hs' : (s.left c a as).service.effects = as := congrArg (· ++ as) hs
  have ht' : (t.left d b bs).service.effects = bs := congrArg (· ++ bs) ht
  have hleft : Alike (s.left c a as) (t.left d b bs) := ⟨h.lookup, hcd, hab, h.profiles, h.sent⟩
  refine hleft.carryOut ?_ ?_ m m'
  · rw [hs', ht', heffects]
  · rw [hs']
    exact hstart

theorem Alike.step (h : Alike s t) (hs : s.AtRest) (ht : t.AtRest) {f : Coordinator → Outcome}
    (hf : Chatless f) (hstart : ∀ c, ∀ a ∈ (f c).effects, ∀ n, a ≠ .start n) (m m' : Moment) :
    Alike (s.step m f) (t.step m' f) := by
  obtain ⟨hstate, heffects⟩ := hf.undated h.coordinator
  exact h.left hs ht hstate h.store (congrArg (List.map Effect.undated) heffects) (hstart _) m m'

/-- Being taken out comes to the same, whenever it happens. -/
theorem Alike.disconnect (h : Alike s t) (hs : s.AtRest) (ht : t.AtRest) (m m' : Moment)
    (p : SteamId) (n : Nat) : Alike (s.step m (·.disconnect p n)) (t.step m' (·.disconnect p n)) :=
  h.step hs ht (Coordinator.chatless_disconnect p n)
    (fun c => Coordinator.ne_start_disconnect c p n) m m'

/-! ## messages -/

/-- the message as it is stored, and the store with it, unless it is refused -/
def saved? (store : σ) (x : Session) (date : Timestamp) (body : String) : Option (ChatEntry × σ) :=
  (Hall.draft? x date body).bind fun d => (ChatStore.save store d).toOption

omit [DateBlind σ] in
theorem call_addMessage (hs : s.AtRest) (m : Moment) (x : Session) (body : String) :
    (s.call m (Service.addMessage x m.date body)).1 =
      match saved? s.service.store x m.date body with
      | some (e, store) =>
        (s.left (s.service.coordinator.message e).state store
          (s.service.coordinator.message e).effects).carryOut m
      | none => s := by
  show Server.carryOut
    { s with service := ((Service.addMessage x m.date body).run s.service).2 } m = _
  rw [Hall.state_addMessage]
  unfold saved?
  cases Hall.draft? x m.date body with
  | none => exact carryOut_of_atRest hs m
  | some d =>
    dsimp only [Option.bind_some]
    cases ChatStore.save s.service.store d with
    | error e => exact carryOut_of_atRest hs m
    | ok saved => rfl

omit [Client.Quantity κ] [ChatStore σ] [DateBlind σ] in
theorem draft?_undated (x : Session) (date date' : Timestamp) (body : String) :
    (Hall.draft? x date body).map ChatEntry.undated =
      (Hall.draft? x date' body).map ChatEntry.undated := by
  unfold Hall.draft?
  split
  · cases Chat.sanitize body <;> rfl
  · rfl

omit [Client.Quantity κ] in
/-- What is stored is the same but for times. -/
theorem saved?_undated {a b : σ} (hab : DateBlind.undated a = DateBlind.undated b) (x : Session)
    (date date' : Timestamp) (body : String) :
    (saved? a x date body).map (fun saved => (saved.1.undated, DateBlind.undated saved.2)) =
      (saved? b x date' body).map fun saved => (saved.1.undated, DateBlind.undated saved.2) := by
  have hsave : ∀ (a : σ) (d : ChatEntry),
      ((ChatStore.save a d).toOption.map
        fun saved => (saved.1.undated, DateBlind.undated saved.2)) =
        (ChatStore.save (DateBlind.undated a) d.undated).toOption := fun a d => by
    rw [DateBlind.save_undated]
    cases ChatStore.save a d <;> rfl
  have hsaved : ∀ (a : σ) date,
      ((saved? a x date body).map fun saved => (saved.1.undated, DateBlind.undated saved.2)) =
        ((Hall.draft? x date body).map ChatEntry.undated).bind fun d =>
          (ChatStore.save (DateBlind.undated a) d).toOption := fun a date => by
    unfold saved?
    cases Hall.draft? x date body with
    | none => rfl
    | some d => exact hsave a d
  rw [hsaved, hsaved, hab, draft?_undated x date date']

theorem Alike.addMessage (h : Alike s t) (hs : s.AtRest) (ht : t.AtRest) (m m' : Moment)
    (x : Session) (body : String) :
    Alike (s.call m (Service.addMessage x m.date body)).1
      (t.call m' (Service.addMessage x m'.date body)).1 := by
  have hsaved := saved?_undated h.store x m.date m'.date body
  rw [call_addMessage hs, call_addMessage ht]
  cases hs' : saved? s.service.store x m.date body with
  | none =>
    rw [hs'] at hsaved
    rw [Option.map_eq_none_iff.1 hsaved.symm]
    exact h
  | some saved =>
    rw [hs'] at hsaved
    obtain ⟨saved', ht', hsame⟩ := Option.map_eq_some_iff.1 hsaved.symm
    obtain ⟨hentry, hstore⟩ := Prod.mk.inj hsame
    obtain ⟨hstate, heffects⟩ := Coordinator.undated_message h.coordinator hentry.symm
    rw [ht']
    exact h.left hs ht hstate hstore.symm heffects (Coordinator.onlyTells_message _ _).ne_start m m'

/-! ## requests -/

/-- **A request comes to the same but for times**, whenever it is handled. -/
theorem Alike.handle (h : Alike s t) (hs : s.AtRest) (ht : t.AtRest) (m m' : Moment) (e : Session)
    (q : Request) : Alike (s.handle m e q) (t.handle m' e q) := by
  cases q with
  | joinQueue servers =>
    show Alike (s.step m fun c => c.join s.lookup e.steamId servers)
      (t.step m' fun c => c.join t.lookup e.steamId servers)
    rw [← h.lookup]
    exact h.step hs ht (Coordinator.chatless_join s.lookup e.steamId servers)
      (fun c => (Coordinator.onlyTells_join s.lookup c e.steamId servers).ne_start) m m'
  | leaveQueue servers =>
    exact h.step hs ht (Coordinator.chatless_leave e.steamId servers)
      (fun c => (Coordinator.onlyTells_leave c e.steamId servers).ne_start) m m'
  | message body =>
    have hsession : s.service.coordinator.session? e.connection =
        t.service.coordinator.session? e.connection := by
      rw [Coordinator.eq_withChat_of_undated h.coordinator]
      rfl
    unfold Server.handle
    dsimp only
    rw [← hsession]
    split
    · exact h.addMessage hs ht m m' _ body
    · exact h

omit [DateBlind σ] in
theorem atRest_handle (hs : s.AtRest) (m : Moment) (e : Session) (q : Request) :
    (s.handle m e q).AtRest := by
  cases q with
  | joinQueue servers => rfl
  | leaveQueue servers => rfl
  | message body =>
    unfold Server.handle
    dsimp only
    split
    · rfl
    · exact hs

/-! ## one request after the other -/

/-- requests of a session, each handled at its moment -/
def serve (s : Server σ π κ) (e : Session) (qs : List (Moment × Request)) : Server σ π κ :=
  qs.foldl (fun s q => s.handle q.1 e q.2) s

omit [DateBlind σ] in
theorem atRest_serve (hs : s.AtRest) (e : Session) (qs : List (Moment × Request)) :
    (s.serve e qs).AtRest := by
  induction qs generalizing s with
  | nil => exact hs
  | cons q qs ih => exact ih (atRest_handle hs q.1 e q.2)

/-- Requests come to the same but for times, whenever each of them is handled. -/
theorem Alike.serve (h : Alike s t) (hs : s.AtRest) (ht : t.AtRest) (e : Session)
    {qs qs' : List (Moment × Request)} (hqs : qs.map Prod.snd = qs'.map Prod.snd) :
    Alike (s.serve e qs) (t.serve e qs') := by
  induction qs generalizing s t qs' with
  | nil =>
    cases qs' with
    | nil => exact h
    | cons q' qs' => cases hqs
  | cons q qs ih =>
    cases qs' with
    | nil => cases hqs
    | cons q' qs' =>
      obtain ⟨hq, hrest⟩ := List.cons.inj hqs
      have hhandled : Alike (s.handle q.1 e q.2) (t.handle q'.1 e q'.2) := by
        rw [← hq]
        exact h.handle hs ht q.1 q'.1 e q.2
      exact ih hhandled (atRest_handle hs ..) (atRest_handle ht ..) hrest

end Server

end Matchmaker
