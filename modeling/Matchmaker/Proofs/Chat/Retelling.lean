import Matchmaker.Proofs.Chat.Chronology
import Matchmaker.Proofs.Run.Sessions

/-!
# The chat as clients have it

A client that puts every message it is sent at the end of a list, and drops from the list what it is
told to remove, has the recent chat at the end of that list (`chat_retold`).  It may have more, since
the history forgets the oldest messages and clients are not told of that.

Only four actions say anything of the chat (`wordless_outcome`).  Whoever gets access to the chat, by
coming or by a change of status, is sent all of it, and whoever has access keeps up: a message goes
to everyone who may read it, and a removal takes the same messages out of both lists.
-/

namespace Matchmaker

open Protocol (Response)

/-- the chat that a client has when it gets a response -/
def Protocol.Response.retell (told : List ChatEntry) : Response → List ChatEntry
  | .message e => told ++ [e]
  | .purge ids => told.filter fun e => !ids.contains e.messageId
  | _ => told

/-- the chat that a client has after these responses -/
def retold (rs : List Response) : List ChatEntry := rs.foldl Response.retell []

theorem retold_append (rs ts : List Response) :
    retold (rs ++ ts) = ts.foldl Response.retell (retold rs) := List.foldl_append

theorem foldl_retell_messages (told es : List ChatEntry) :
    (es.map Response.message).foldl Response.retell told = told ++ es := by
  induction es generalizing told with
  | nil => exact (List.append_nil told).symm
  | cons e es ih =>
    rw [List.map_cons, List.foldl_cons, ih]
    exact List.append_assoc told [e] es

namespace Effect

/-- says nothing of the chat -/
def Wordless : Effect → Prop
  | .deliver _ (.message _) => False
  | .deliver _ (.purge _) => False
  | _ => True

theorem foldl_retell_of_wordless {es : List Effect} (h : ∀ e ∈ es, e.Wordless) (n : Nat)
    (told : List ChatEntry) : (responses n es).foldl Response.retell told = told := by
  induction es with
  | nil => rfl
  | cons e es ih =>
    have hrest := ih fun x hx => h x (List.mem_cons_of_mem e hx)
    have he : e.Wordless := h e List.mem_cons_self
    have hsplit : responses n (e :: es) = responses n [e] ++ responses n es :=
      responses_append n [e] es
    have hone : (responses n [e]).foldl Response.retell told = told := by
      cases e with
      | deliver m r =>
        by_cases hm : m = n
        · have hresponse : responses n [deliver m r] = [r] := by
            simp [responses, response?, hm]
          rw [hresponse]
          cases r with
          | message e => exact absurd he id
          | purge ids => exact absurd he id
          | _ => rfl
        · have hresponse : responses n [deliver m r] = [] := by
            simp [responses, response?, hm]
          rw [hresponse]
          rfl
      | _ => rfl
    rw [hsplit, List.foldl_append, hone, hrest]

end Effect

namespace Coordinator
variable {c : Coordinator} {n : Nat}

theorem wordless_broadcast (c : Coordinator) (p : Session → Bool) {r : Response}
    (hr : ∀ n, (Effect.deliver n r).Wordless) : ∀ e ∈ c.broadcast r p, e.Wordless := by
  intro e he
  obtain ⟨s, -, -, rfl⟩ := mem_broadcast.1 he
  exact hr s.connection

theorem wordless_announced (d : Coordinator) : ∀ e ∈ (announced d).effects, e.Wordless :=
  d.wordless_broadcast (fun _ => true) fun _ => trivial

/-! ## what a connection is told -/

theorem responses_replay (c : Coordinator) (m n : Nat) :
    Effect.responses n (c.replay m) =
      if m = n then c.chat.entries.map Response.message else [] := by
  unfold replay Effect.responses
  rw [List.filterMap_map]
  by_cases h : m = n
  · rw [if_pos h, ← List.filterMap_eq_map]
    refine List.filterMap_congr fun e _ => ?_
    exact if_pos h
  · rw [if_neg h]
    refine List.filterMap_eq_nil_iff.2 fun e _ => ?_
    exact if_neg h

theorem foldl_retell_replay (c : Coordinator) (m n : Nat) (told : List ChatEntry) :
    (Effect.responses n (c.replay m)).foldl Response.retell told =
      if m = n then told ++ c.chat.entries else told := by
  rw [responses_replay]
  by_cases h : m = n
  · rw [if_pos h, if_pos h]
    exact foldl_retell_messages told _
  · rw [if_neg h, if_neg h]
    rfl

/-- All that is said of the chat when somebody comes is said to the newcomer. -/
theorem effects_connect_replay (c : Coordinator) (s : Session) :
    ∃ before after, (∀ e ∈ before, e.Wordless) ∧ (∀ e ∈ after, e.Wordless) ∧
      (c.connect s).effects = before ++
        (if s.hasMessageAccess then (c.connect s).state.replay s.connection else []) ++ after := by
  refine ⟨((c.client? s.steamId).toList.map fun p => Effect.close p.connection) ++
    [.start s.connection] ++ (if c.released then [.release] else []),
    (c.connect s).state.broadcastAll (c.connect s).state.fullUpdate, ?_,
    (c.connect s).state.wordless_broadcast (fun _ => true) fun _ => trivial, rfl⟩
  intro e he
  rcases List.mem_append.1 he with he | he
  · rcases List.mem_append.1 he with he | he
    · obtain ⟨p, -, rfl⟩ := List.mem_map.1 he
      trivial
    · rw [List.mem_singleton.1 he]
      trivial
  · split at he
    · rw [List.mem_singleton.1 he]
      trivial
    · cases he

/-- Who comes and may read the chat is told all of it, and nobody else is told anything. -/
theorem foldl_retell_connect (c : Coordinator) (s : Session) (n : Nat) (told : List ChatEntry) :
    (Effect.responses n (c.connect s).effects).foldl Response.retell told =
      if s.hasMessageAccess = true ∧ s.connection = n then told ++ c.chat.entries else told := by
  obtain ⟨before, after, hbefore, hafter, heffects⟩ := c.effects_connect_replay s
  rw [heffects, Effect.responses_append, Effect.responses_append, List.foldl_append,
    List.foldl_append, Effect.foldl_retell_of_wordless hbefore,
    Effect.foldl_retell_of_wordless hafter]
  cases haccess : s.hasMessageAccess with
  | true =>
    rw [if_pos rfl, foldl_retell_replay]
    simp only [true_and]
    rfl
  | false => simp [Effect.responses_nil]

/-- Who gets back the access to the chat is told all of it, and nobody else is told anything. -/
theorem foldl_retell_updateChatStatus {p : SteamId} {d : Session} (hd : c.client? p = some d)
    (status : ChatStatus) (reason : String) (n : Nat) (told : List ChatEntry) :
    (Effect.responses n (c.updateChatStatus p status reason).1.effects).foldl Response.retell told =
      if (!d.hasMessageAccess && status.hasMessageAccess) = true ∧ d.connection = n then
        told ++ c.chat.entries
      else told := by
  have hnotice : ∀ e ∈ [Effect.deliver d.connection (.chatStatusChange status reason)],
      e.Wordless := by
    intro e he
    rw [List.mem_singleton.1 he]
    trivial
  rw [updateChatStatus_of_some hd, ← List.singleton_append, Effect.responses_append,
    List.foldl_append, Effect.foldl_retell_of_wordless hnotice]
  cases hregains : !d.hasMessageAccess && status.hasMessageAccess with
  | true =>
    rw [if_pos rfl, foldl_retell_replay]
    simp only [true_and]
    rfl
  | false => simp [Effect.responses_nil]

/-- Who may read the chat is told a new message. -/
theorem foldl_retell_message {owner : Nat → Profile} (h : c.Owned owner) (e : ChatEntry) (n : Nat)
    (told : List ChatEntry) :
    c.Reads n → (Effect.responses n (c.message e).effects).foldl Response.retell told =
      told ++ [e] := by
  intro hreads
  rcases heard_message h e n with ⟨hnot, -⟩ | ⟨-, hone⟩
  · exact absurd hreads hnot
  · rw [hone]
    rfl

/-- Everyone who is registered is told of a removal. -/
theorem foldl_retell_purge {owner : Nat → Profile} (h : c.Owned owner) (ids : List Int)
    (hn : c.Serves n) (told : List ChatEntry) :
    (Effect.responses n (c.purge ids).1.effects).foldl Response.retell told =
      told.filter fun e => !ids.contains e.messageId := by
  cases ids with
  | nil =>
    symm
    exact List.filter_eq_self.2 fun e _ => rfl
  | cons id ids =>
    obtain ⟨e, he, rfl⟩ := hn
    let d : Coordinator := { c with chat := (c.chat.remove (id :: ids)).1 }
    have hone : Effect.responses e.connection (d.broadcastAll (.purge (id :: ids))) =
        [.purge (id :: ids)] := responses_broadcastAll (c := d) h he _
    show (Effect.responses e.connection (d.broadcastAll _)).foldl _ told = _
    rw [hone]
    rfl

end Coordinator

/-- may say something of the chat -/
def Action.isSpoken : Action → Bool
  | .connect _ _ => true
  | .message _ => true
  | .purge _ => true
  | .updateChatStatus _ _ _ => true
  | _ => false

/-- fills the history -/
def Action.isSeed : Action → Bool
  | .seed _ => true
  | _ => false

namespace World
variable {owner : Nat → Profile} {w : World} {a : Action} {n : Nat}

/-! ## one action -/

theorem wordless_outcome (owner : Nat → Profile) (w : World) (ha : a.isSpoken = false) :
    ∀ e ∈ (w.outcome owner a).effects, e.Wordless := by
  have hclose : ∀ m, ∀ e ∈ [Effect.close m], e.Wordless := by
    intro m e he
    rw [List.mem_singleton.1 he]
    trivial
  have hfull : ∀ d : Coordinator, ∀ e ∈ d.broadcastAll d.fullUpdate, e.Wordless :=
    fun d => d.wordless_broadcast (fun _ => true) fun _ => trivial
  cases a with
  | disconnect m =>
    show ∀ e ∈ (w.coordinator.disconnect (owner m).steamId m).effects, e.Wordless
    cases hcurrent : w.coordinator.isCurrent (owner m).steamId m with
    | true =>
      rw [Coordinator.disconnect_of_current hcurrent]
      exact List.forall_mem_append.2 ⟨hfull _, hclose m⟩
    | false =>
      rw [Coordinator.disconnect_of_not_current hcurrent]
      exact hclose m
  | evict now lastSeen =>
    refine List.forall_mem_append.2 ⟨?_, ?_⟩
    · intro e he
      obtain ⟨s, -, rfl⟩ := List.mem_map.1 he
      trivial
    · intro e he
      split at he
      · cases he
      · exact hfull _ e he
  | enqueue p servers =>
    show ∀ e ∈ ((w.coordinator.enqueue? p servers).getD _).effects, e.Wordless
    rw [Coordinator.enqueue?_eq]
    split
    · exact Coordinator.wordless_announced _
    · exact fun e he => absurd he List.not_mem_nil
  | leave p servers =>
    show ∀ e ∈ (w.coordinator.leave p servers).effects, e.Wordless
    rw [Coordinator.leave_eq]
    split
    · exact Coordinator.wordless_announced _
    · exact fun e he => absurd he List.not_mem_nil
  | report feed =>
    cases feed with
    | error e => exact fun e he => absurd he List.not_mem_nil
    | ok feed =>
      show ∀ e ∈ (w.coordinator.reconcile feed).effects, e.Wordless
      rw [Coordinator.reconcile_eq]
      split
      · exact Coordinator.wordless_announced _
      · exact fun e he => absurd he List.not_mem_nil
  | proceed i lookup =>
    show ∀ e ∈ (w.resumed i lookup).1.effects, e.Wordless
    cases hl : w.started? i lookup with
    | none =>
      rw [resumed_of_not_started hl]
      exact fun e he => absurd he List.not_mem_nil
    | some l =>
      obtain ⟨_, address, o, -, -, hstart, hresumed⟩ := resumed_of_started hl
      obtain ⟨-, rfl⟩ := Coordinator.startMatch?_eq_some_iff.1 hstart
      rw [hresumed]
      refine List.forall_mem_append.2 ⟨?_, Coordinator.wordless_announced _⟩
      intro e he
      obtain ⟨s, -, rfl⟩ := List.mem_map.1 he
      trivial
  | shutDown =>
    refine List.forall_mem_append.2
      ⟨w.coordinator.wordless_broadcast (fun _ => true) fun _ => trivial, ?_⟩
    intro e he
    rw [List.mem_singleton.1 he]
    trivial
  | connect m status => cases ha
  | message e => cases ha
  | purge ids => cases ha
  | updateChatStatus p status reason => cases ha
  | _ => exact fun e he => absurd he List.not_mem_nil

/-- A message is sent to those only who may read it at that moment. -/
theorem reads_of_message {e : ChatEntry}
    (h : .deliver n (.message e) ∈ (w.outcome owner a).effects) :
    (w.outcome owner a).state.Reads n := by
  have hreplay : ∀ (d : Coordinator) (m : Nat), .deliver n (.message e) ∈ d.replay m → m = n := by
    intro d m hmem
    obtain ⟨f, -, hf⟩ := List.mem_map.1 hmem
    cases hf
    rfl
  cases ha : a.isSpoken with
  | false => exact absurd (wordless_outcome owner w ha _ h) id
  | true =>
    cases a with
    | connect m status =>
      let s : Session := ⟨m, owner m, status⟩
      change _ ∈ (w.coordinator.connect s).effects at h
      obtain ⟨before, after, hbefore, hafter, heffects⟩ := w.coordinator.effects_connect_replay s
      rw [heffects] at h
      rcases List.mem_append.1 h with h | h
      · rcases List.mem_append.1 h with h | h
        · exact absurd (hbefore _ h) id
        · split at h
          · rename_i haccess
            exact ⟨s, Ascending.mem_insert.2 (.inl rfl), hreplay _ m h, haccess⟩
          · cases h
      · exact absurd (hafter _ h) id
    | message f =>
      obtain ⟨s, hs, haccess, he⟩ := Coordinator.mem_broadcast.1 h
      cases he
      exact ⟨s, hs, rfl, haccess⟩
    | purge ids =>
      change _ ∈ (w.coordinator.purge ids).1.effects at h
      unfold Coordinator.purge at h
      split at h
      · cases h
      · obtain ⟨s, -, -, he⟩ := Coordinator.mem_broadcast.1 h
        cases he
    | updateChatStatus p status reason =>
      change _ ∈ (w.coordinator.updateChatStatus p status reason).1.effects at h
      show (w.coordinator.updateChatStatus p status reason).1.state.Reads n
      cases hd : w.coordinator.client? p with
      | none =>
        rw [Coordinator.updateChatStatus_of_none hd] at h
        cases h
      | some d =>
        rw [Coordinator.updateChatStatus_of_some hd] at h ⊢
        rcases List.mem_cons.1 h with h | h
        · cases h
        · split at h
          · rename_i hregains
            exact ⟨{ d with chatStatus := status }, Ascending.mem_insert.2 (.inl rfl),
              hreplay _ _ h, ((Bool.and_eq_true _ _).mp hregains).2⟩
          · cases h
    | _ => cases ha

/-! ## every run -/

/-- every registered client that may read the chat has been told the recent chat, if `told` is what
was put in for each connection -/
def Retold (w : World) (told : Nat → List Response) : Prop :=
  ∀ e ∈ w.coordinator.clients, e.hasMessageAccess = true →
    w.coordinator.chat.entries <:+ retold (told e.connection)

/-- what was put in for each connection since it was last registered, after one more action -/
def toldNext (owner : Nat → Profile) (w : World) (a : Action) (told : Nat → List Response)
    (n : Nat) : List Response :=
  (if a.connects n then [] else told n) ++ Effect.responses n (w.outcome owner a).effects

theorem retold_toldNext {told : Nat → List Response} (hn : a.connects n = false) :
    retold (toldNext owner w a told n) =
      (Effect.responses n (w.outcome owner a).effects).foldl Response.retell (retold (told n)) := by
  unfold toldNext
  rw [hn, retold_append]
  rfl

theorem Retold.connect {told : Nat → List Response} (h : w.Retold told)
    (howned : w.coordinator.Owned owner) (m : Nat) (status : ChatStatus) :
    (w.next owner (.connect m status)).Retold (toldNext owner w (.connect m status) told) := by
  let s : Session := ⟨m, owner m, status⟩
  intro e he haccess
  have houtcome : ∀ told, (Effect.responses e.connection
      (w.outcome owner (.connect m status)).effects).foldl Response.retell told =
      if s.hasMessageAccess = true ∧ m = e.connection then told ++ w.coordinator.chat.entries
      else told :=
    w.coordinator.foldl_retell_connect s e.connection
  show w.coordinator.chat.entries <:+ _
  rcases Ascending.mem_insert.1 he with rfl | ⟨hold, hkey⟩
  · -- the newcomer is told all of it
    unfold toldNext
    rw [retold_append, houtcome, if_pos ⟨haccess, rfl⟩]
    exact List.suffix_append _ _
  · -- the player on a connection does not change, so this is another one
    have hne : m ≠ e.connection := by
      rintro rfl
      exact hkey (congrArg (fun p : Profile => p.steamId.toNat) (howned e hold))
    have hconnects : (Action.connect m status).connects e.connection = false := beq_false_of_ne hne
    rw [retold_toldNext hconnects, houtcome, if_neg fun hboth => hne hboth.2]
    exact h e hold haccess

theorem Retold.updateChatStatus {told : Nat → List Response} (h : w.Retold told) (p : SteamId)
    (status : ChatStatus) (reason : String) :
    (w.next owner (.updateChatStatus p status reason)).Retold
      (toldNext owner w (.updateChatStatus p status reason) told) := by
  intro e he haccess
  rw [retold_toldNext rfl]
  change e ∈ (w.coordinator.updateChatStatus p status reason).1.state.clients at he
  show (w.coordinator.updateChatStatus p status reason).1.state.chat.entries <:+
    (Effect.responses e.connection
      (w.coordinator.updateChatStatus p status reason).1.effects).foldl _ _
  rw [Coordinator.chat_updateChatStatus]
  cases hd : w.coordinator.client? p with
  | none =>
    rw [Coordinator.updateChatStatus_of_none hd] at he ⊢
    exact h e he haccess
  | some d =>
    rw [Coordinator.foldl_retell_updateChatStatus hd]
    split
    · exact List.suffix_append _ _
    · rename_i hnot
      have hmem := (Coordinator.client?_eq_some_iff.1 hd).1
      rcases Coordinator.mem_clients_updateChatStatus he with ⟨he, -⟩ | ⟨d', hd', hp, rfl⟩
      · exact h e he haccess
      · -- the status has changed, and there was access before
        have hsame : d' = d :=
          Coordinator.session_unique hd' hmem
            (hp.trans (Coordinator.client?_eq_some_iff.1 hd).2.symm)
        subst hsame
        have hbefore : d'.hasMessageAccess = true := by
          by_contra hnone
          refine hnot ⟨?_, rfl⟩
          rw [Bool.eq_false_iff.2 hnone]
          exact haccess
        exact h d' hd' hbefore

theorem Retold.next {told : Nat → List Response} (h : w.Retold told)
    (howned : w.coordinator.Owned owner) (a : Action)
    (hseed : a.isSeed = false ∨ ∀ n, ¬ w.coordinator.Serves n) :
    (w.next owner a).Retold (toldNext owner w a told) := by
  cases ha : a.isSpoken with
  | true =>
    cases a with
    | connect m status => exact h.connect howned m status
    | updateChatStatus p status reason => exact h.updateChatStatus p status reason
    | message f =>
      intro e he haccess
      rw [retold_toldNext rfl]
      show (w.coordinator.chat.push f).1.entries <:+
        (Effect.responses e.connection (w.coordinator.message f).effects).foldl _ _
      rw [Coordinator.foldl_retell_message howned f _ _ ⟨e, he, rfl, haccess⟩]
      refine (Chat.History.entries_push_suffix _ f).trans ?_
      exact (List.suffix_append_inj_of_length_eq rfl).2 ⟨h e he haccess, rfl⟩
    | purge ids =>
      intro e he haccess
      have hclients : (w.outcome owner (.purge ids)).state.clients = w.coordinator.clients :=
        (sessions_outcome owner w rfl).1
      change e ∈ (w.outcome owner (.purge ids)).state.clients at he
      rw [hclients] at he
      rw [retold_toldNext rfl]
      show (w.coordinator.purge ids).1.state.chat.entries <:+
        (Effect.responses e.connection (w.coordinator.purge ids).1.effects).foldl _ _
      rw [Coordinator.entries_purge, Coordinator.foldl_retell_purge howned ids ⟨e, he, rfl⟩]
      exact (h e he haccess).filter _
    | _ => cases ha
  | false =>
    intro e he haccess
    have hconnects : a.connects e.connection = false := by
      cases a with
      | connect m status => cases ha
      | _ => rfl
    have hold : e ∈ w.coordinator.clients := by
      cases origin_of_mem he with
      | stays a he hconnect hstatus => exact he
      | comes n status he => cases ha
      | changes d hd status reason he => cases ha
    have hchat : a.isChat = false := by
      rcases hseed with hseed | hnobody
      · cases a with
        | seed entries => cases hseed
        | message f => cases ha
        | purge ids => cases ha
        | _ => rfl
      · exact absurd ⟨e, hold, rfl⟩ (hnobody e.connection)
    rw [retold_toldNext hconnects,
      Effect.foldl_retell_of_wordless (wordless_outcome owner w ha)]
    change (w.outcome owner a).state.chat.entries <:+ _
    rw [w.chat_outcome owner hchat]
    exact h e hold haccess

/-- Before anybody comes nobody is registered. -/
theorem not_serves_run {config : Config} {as : List Action}
    (has : ∀ a ∈ as, ∀ n, a.connects n = false) (n : Nat) :
    ¬ ((start config).run owner as).coordinator.Serves n := by
  rintro ⟨e, he, -⟩
  have hlast := lastEntrant_run config owner as e he
  have hmem := List.mem_of_getLast? hlast
  obtain ⟨a, ha, hentrant⟩ := List.mem_filterMap.1 hmem
  cases a with
  | connect m status =>
    have := has _ ha m
    rw [Action.connects, beq_self_eq_true] at this
    cases this
  | _ => cases hentrant

theorem retold_run (config : Config) (owner : Nat → Profile) {before after : List Action}
    (hbefore : ∀ a ∈ before, ∀ n, a.connects n = false)
    (hafter : ∀ a ∈ after, a.isSeed = false) :
    ((start config).run owner (before ++ after)).Retold fun n =>
      sent owner n (start config) [] (before ++ after) := by
  induction after using List.reverseRecOn with
  | nil =>
    intro e he
    rw [List.append_nil] at he
    exact absurd ⟨e, he, rfl⟩ (not_serves_run hbefore e.connection)
  | append_singleton after a ih =>
    obtain ⟨hafter, ha⟩ := List.forall_mem_append.1 hafter
    have hnext := (ih hafter).next (owned_run config owner (before ++ after)) a
      (.inl (ha a List.mem_cons_self))
    rw [← List.append_assoc, run_append, run_singleton]
    simp only [sent_concat]
    exact hnext

/-- **Clients can retell the chat.**  If the history is filled only before anybody comes, then the
recent chat is the end of what a registered client has of it that may read it and has accepted all
that it was sent; and a message is sent only to a registered client that may read it at that
moment. -/
theorem chat_retold (config : Config) (owner : Nat → Profile) (before after : List Action)
    (hbefore : ∀ a ∈ before, ∀ n, a.connects n = false)
    (hafter : ∀ a ∈ after, a.isSeed = false) :
    let as := before ++ after
    let w := (start config).run owner as
    (∀ e ∈ w.coordinator.clients, ∀ takes : Nat → Bool,
      (∀ i < (sent owner e.connection (start config) [] as).length, takes i = true) →
      e.chatStatus ≠ .noaccess →
      w.coordinator.chat.entries <:+
        retold (accepted takes (sent owner e.connection (start config) [] as))) ∧
      ∀ a n m, .deliver n (.message m) ∈ (w.outcome owner a).effects →
        (w.next owner a).coordinator.Serves n ∧
          ∀ e ∈ (w.next owner a).coordinator.clients, e.connection = n →
            e.chatStatus ≠ .noaccess := by
  intro as w
  constructor
  · intro e he takes htakes haccess
    rw [accepted_eq_self htakes]
    exact retold_run config owner hbefore hafter e he (bne_iff_ne.2 haccess)
  · intro a n m hm
    obtain ⟨s, hs, rfl, hreads⟩ := reads_of_message hm
    have howned : (w.next owner a).coordinator.Owned owner :=
      (change_outcome owner w a).owned (owned_run config owner as)
    refine ⟨⟨s, hs, rfl⟩, fun e he hconnection => ?_⟩
    rw [howned.connection_injective he hs hconnection]
    exact bne_iff_ne.1 hreads

end World

/-! ## in and out of the chat

A player loses the access, misses a message and a removal, and gets the access back. -/

namespace Sample

def entry (id : Int) : ChatEntry := { Service.draft author midnight "hi" with messageId := id }

def stored : List Action := [.seed [entry 1, entry 2]]

def inAndOut : List Action :=
  [.connect 1 .readonly, .message (entry 3), .updateChatStatus (.ofNat 1) .noaccess "",
    .message (entry 4), .purge [2], .updateChatStatus (.ofNat 1) .readwrite ""]

end Sample

namespace World

theorem chat_retold_sample :
    [Sample.entry 1, Sample.entry 3, Sample.entry 4] <:+
      retold (accepted (fun _ => true)
        (sent Sample.owner 1 (start {}) [] (Sample.stored ++ Sample.inAndOut))) := by
  have he : (⟨1, Sample.owner 1, .readwrite⟩ : Session) ∈
      ((start {}).run Sample.owner (Sample.stored ++ Sample.inAndOut)).coordinator.clients := by
    rw [Ascending.mem_def]
    decide +kernel
  have hchat : ((start {}).run Sample.owner
      (Sample.stored ++ Sample.inAndOut)).coordinator.chat.entries =
        [Sample.entry 1, Sample.entry 3, Sample.entry 4] := by decide +kernel
  have hbefore : ∀ a ∈ Sample.stored, ∀ n, a.connects n = false := by
    simp [Sample.stored, Action.connects]
  have hafter : ∀ a ∈ Sample.inAndOut, a.isSeed = false := by decide
  obtain ⟨htold, -⟩ :=
    chat_retold {} Sample.owner Sample.stored Sample.inAndOut hbefore hafter
  have hend := htold _ he (fun _ => true) (fun _ _ => rfl) (by decide)
  rwa [hchat] at hend

end World

end Matchmaker
