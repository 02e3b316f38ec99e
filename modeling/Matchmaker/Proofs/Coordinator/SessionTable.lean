import Matchmaker.Proofs.Run.Sessions

/-!
# The session of a connection

Whoever serves a connection has its session in hand, registered or not.  Sessions that come, go or
are replaced move between the registry and the side, and none of them is changed by that
(`Placed.session?_connect`, `Placed.session?_remove`).  A change of status changes the registered
session of the player, and those that are aside keep the status that they had.
-/

namespace Matchmaker.Coordinator

/-- a session is of the player on its connection -/
structure Placed (owner : Nat → Profile) (c : Coordinator) : Prop where
  registered : ∀ e ∈ c.clients, e.steamId = (owner e.connection).steamId
  aside : ∀ e ∈ c.aside, e.steamId = (owner e.connection).steamId

variable {owner : Nat → Profile} {c d : Coordinator} {e x y : Session} {n : Nat} {p : SteamId}

theorem placed_new (config : Config) (owner : Nat → Profile) : (new config).Placed owner :=
  ⟨fun e he => absurd he (Ascending.not_mem_empty e), fun e he => absurd he (Ascending.not_mem_empty e)⟩

theorem Placed.connection_injective (h : c.Placed owner) {d : Session} (hd : d ∈ c.clients)
    (he : e ∈ c.clients) (hn : d.connection = e.connection) : d = e := by
  refine session_unique hd he ?_
  rw [h.registered d hd, h.registered e he, hn]

/-! ## looking up -/

theorem Placed.session?_of_mem (h : c.Placed owner) (he : e ∈ c.clients) :
    c.session? e.connection = some e := by
  unfold session?
  cases hfound : c.clients.toList.find? fun s => s.connection == e.connection with
  | none =>
    have := List.find?_eq_none.1 hfound e he
    simp at this
  | some d =>
    have hn : d.connection = e.connection := by simpa using List.find?_some hfound
    rw [h.connection_injective (List.mem_of_find?_eq_some hfound) he hn]
    rfl

theorem session?_of_not_serves (h : ¬ c.Serves n) : c.session? n = c.aside.get? n := by
  have hnone : (c.clients.toList.find? fun s => s.connection == n) = none := by
    refine List.find?_eq_none.2 fun e he hn => h ⟨e, he, ?_⟩
    simpa using hn
  unfold session?
  rw [hnone]
  rfl

/-- The session of a connection is registered, or it is aside. -/
theorem Placed.session?_eq_some (h : c.Placed owner) (hx : c.session? n = some x) :
    x.connection = n ∧ (x ∈ c.clients ∨ ¬ c.Serves n ∧ x ∈ c.aside) := by
  by_cases hn : c.Serves n
  · obtain ⟨e, he, rfl⟩ := hn
    rw [h.session?_of_mem he] at hx
    cases hx
    exact ⟨rfl, .inl he⟩
  · rw [session?_of_not_serves hn] at hx
    obtain ⟨hmem, hconnection⟩ := Ascending.get?_eq_some_iff.1 hx
    exact ⟨hconnection, .inr ⟨hn, hmem⟩⟩

theorem Placed.player (h : c.Placed owner) (hx : c.session? n = some x) :
    x.steamId = (owner n).steamId := by
  obtain ⟨rfl, hmem | ⟨-, hmem⟩⟩ := h.session?_eq_some hx
  · exact h.registered x hmem
  · exact h.aside x hmem

theorem session?_congr (hclients : d.clients = c.clients) (haside : d.aside = c.aside) (n : Nat) :
    d.session? n = c.session? n := by
  unfold session?
  rw [hclients, haside]

theorem Placed.congr (h : c.Placed owner) (hclients : d.clients = c.clients)
    (haside : d.aside = c.aside) : d.Placed owner := by
  refine ⟨?_, ?_⟩
  · rw [hclients]
    exact h.registered
  · rw [haside]
    exact h.aside

/-! ## coming -/

theorem Placed.introduce (h : c.Placed owner) (he : e.steamId = (owner e.connection).steamId) :
    (c.introduce e).Placed owner := by
  refine ⟨h.registered, fun x hx => ?_⟩
  rcases Ascending.mem_insert.1 hx with rfl | ⟨hx, -⟩
  · exact he
  · exact h.aside x hx

theorem Placed.session?_introduce (h : c.Placed owner) (hnew : c.session? e.connection = none)
    (n : Nat) :
    (c.introduce e).session? n = if e.connection = n then some e else c.session? n := by
  by_cases hn : c.Serves n
  · obtain ⟨x, hx, rfl⟩ := hn
    have hne : e.connection ≠ x.connection := by
      intro hconnection
      rw [hconnection, h.session?_of_mem hx] at hnew
      cases hnew
    have hfound := h.session?_of_mem hx
    rw [if_neg hne, hfound, ← hfound]
    unfold session? at hfound ⊢
    show (c.clients.toList.find? _).or _ = (c.clients.toList.find? _).or _
    cases hclient : c.clients.toList.find? fun s => s.connection == x.connection with
    | some s => rfl
    | none =>
      have := List.find?_eq_none.1 hclient x hx
      simp at this
  · have hafter : ¬ (c.introduce e).Serves n := hn
    rw [session?_of_not_serves hafter, session?_of_not_serves hn]
    exact Ascending.get?_insert c.aside e n

/-- the session that is registered for the player of `s` goes aside when `s` is registered -/
theorem aside_connect (c : Coordinator) (s : Session) (hn : n ≠ s.connection) :
    (c.connect s).state.aside.get? n =
      match c.client? s.steamId with
      | some e => if e.connection = n then some e else c.aside.get? n
      | none => c.aside.get? n := by
  unfold connect
  dsimp only
  rw [Ascending.get?_erase, if_neg hn]
  cases c.client? s.steamId with
  | some e => exact Ascending.get?_insert c.aside e n
  | none => rfl

theorem Placed.connect (h : c.Placed owner) (he : e.steamId = (owner e.connection).steamId) :
    (c.connect e).state.Placed owner := by
  constructor
  · intro x hx
    rcases Ascending.mem_insert.1 hx with rfl | ⟨hx, -⟩
    · exact he
    · exact h.registered x hx
  · intro x hx
    unfold Coordinator.connect at hx
    have hx := (Ascending.mem_erase.1 hx).1
    cases hp : c.client? e.steamId with
    | none =>
      rw [hp] at hx
      exact h.aside x hx
    | some p =>
      rw [hp] at hx
      rcases Ascending.mem_insert.1 hx with rfl | ⟨hx, -⟩
      · exact h.registered x (client?_eq_some_iff.1 hp).1
      · exact h.aside x hx

/-- To register a session changes no session. -/
theorem Placed.session?_connect (h : c.Placed owner) (he : c.session? e.connection = some e)
    (n : Nat) : (c.connect e).state.session? n = c.session? n := by
  have hplaced : (c.connect e).state.Placed owner := h.connect (h.player he)
  by_cases hne : n = e.connection
  · subst hne
    rw [he]
    exact hplaced.session?_of_mem (Ascending.mem_insert.2 (.inl rfl))
  by_cases hn : c.Serves n
  · obtain ⟨x, hx, rfl⟩ := hn
    rw [h.session?_of_mem hx]
    by_cases hsame : x.steamId = e.steamId
    · -- this is the session that is replaced
      have hgone : ¬ (c.connect e).state.Serves x.connection := by
        rintro ⟨y, hy, hconnection⟩
        rcases Ascending.mem_insert.1 hy with rfl | ⟨hy, hkey⟩
        · exact hne hconnection.symm
        · rw [h.connection_injective hy hx hconnection] at hkey
          exact hkey (congrArg SteamId.toNat hsame)
      rw [session?_of_not_serves hgone, aside_connect c e hne,
        client?_eq_some_iff.2 ⟨hx, hsame⟩]
      exact if_pos rfl
    · exact hplaced.session?_of_mem (Ascending.mem_insert.2 (.inr ⟨hx, mt SteamId.ext_toNat hsame⟩))
  · have hafter : ¬ (c.connect e).state.Serves n := by
      rintro ⟨y, hy, hconnection⟩
      rcases Ascending.mem_insert.1 hy with rfl | ⟨hy, -⟩
      · exact hne hconnection.symm
      · exact hn ⟨y, hy, hconnection⟩
    rw [session?_of_not_serves hafter, session?_of_not_serves hn, aside_connect c e hne]
    cases hp : c.client? e.steamId with
    | none => rfl
    | some q =>
      have hmem := (client?_eq_some_iff.1 hp).1
      exact if_neg fun hconnection => hn ⟨q, hmem, hconnection⟩

/-! ## going -/

theorem remove_of_none (hp : c.client? p = none) : c.remove p = c := by
  unfold remove
  rw [hp]

theorem remove_of_client? (hp : c.client? p = some e) :
    c.remove p =
      { c with
        clients := c.clients.erase p.toNat
        aside := c.aside.insert e
        lobbies := (c.lobbies.leaveAll p).1 } := by
  unfold remove
  rw [hp]

theorem Placed.remove (h : c.Placed owner) (p : SteamId) : (c.remove p).Placed owner := by
  cases hp : c.client? p with
  | none =>
    rw [remove_of_none hp]
    exact h
  | some e =>
    refine ⟨fun x hx => h.registered x (mem_clients_remove.1 hx).1, fun x hx => ?_⟩
    rw [remove_of_client? hp] at hx
    rcases Ascending.mem_insert.1 hx with rfl | ⟨hx, -⟩
    · exact h.registered x (client?_eq_some_iff.1 hp).1
    · exact h.aside x hx

/-- To take a session out changes no session. -/
theorem Placed.session?_remove (h : c.Placed owner) (p : SteamId) (n : Nat) :
    (c.remove p).session? n = c.session? n := by
  cases hp : c.client? p with
  | none => rw [remove_of_none hp]
  | some e =>
    obtain ⟨hmem, hplayer⟩ := client?_eq_some_iff.1 hp
    have haside : (c.remove p).aside.get? n = if e.connection = n then some e else c.aside.get? n := by
      rw [remove_of_client? hp]
      exact Ascending.get?_insert c.aside e n
    by_cases hn : c.Serves n
    · obtain ⟨x, hx, rfl⟩ := hn
      rw [h.session?_of_mem hx]
      by_cases hsame : x.steamId = p
      · -- this is the session that is taken out
        obtain rfl : x = e := session_unique hx hmem (hsame.trans hplayer.symm)
        have hgone : ¬ (c.remove p).Serves x.connection := by
          rintro ⟨y, hy, hconnection⟩
          obtain ⟨hy, hne⟩ := mem_clients_remove.1 hy
          rw [h.connection_injective hy hx hconnection] at hne
          exact hne hsame
        rw [session?_of_not_serves hgone, haside, if_pos rfl]
      · exact (h.remove p).session?_of_mem (mem_clients_remove.2 ⟨hx, hsame⟩)
    · have hafter : ¬ (c.remove p).Serves n := by
        rintro ⟨y, hy, hconnection⟩
        exact hn ⟨y, (mem_clients_remove.1 hy).1, hconnection⟩
      rw [session?_of_not_serves hafter, session?_of_not_serves hn, haside]
      exact if_neg fun hconnection => hn ⟨e, hmem, hconnection⟩

theorem Placed.removeEach (h : c.Placed owner) (gone : List Session) :
    (c.removeEach gone).Placed owner := by
  induction gone generalizing c with
  | nil => exact h
  | cons e gone ih => exact ih (h.remove e.steamId)

theorem Placed.session?_removeEach (h : c.Placed owner) (gone : List Session) (n : Nat) :
    (c.removeEach gone).session? n = c.session? n := by
  induction gone generalizing c with
  | nil => rfl
  | cons e gone ih => rw [removeEach_cons, ih (h.remove e.steamId), h.session?_remove]

theorem Placed.disconnect (h : c.Placed owner) (p : SteamId) (m : Nat) :
    (c.disconnect p m).state.Placed owner := by
  cases hcurrent : c.isCurrent p m with
  | true =>
    rw [disconnect_of_current hcurrent]
    exact h.remove p
  | false =>
    rw [disconnect_of_not_current hcurrent]
    exact h

theorem Placed.session?_disconnect (h : c.Placed owner) (p : SteamId) (m n : Nat) :
    (c.disconnect p m).state.session? n = c.session? n := by
  cases hcurrent : c.isCurrent p m with
  | true =>
    rw [disconnect_of_current hcurrent]
    exact h.session?_remove p n
  | false => rw [disconnect_of_not_current hcurrent]

/-! ## changes -/

theorem Placed.updateChatStatus (h : c.Placed owner) (p : SteamId) (status : ChatStatus)
    (reason : String) : (c.updateChatStatus p status reason).1.state.Placed owner := by
  refine ⟨fun x hx => ?_, ?_⟩
  · rcases mem_clients_updateChatStatus hx with ⟨hx, -⟩ | ⟨e, he, -, rfl⟩
    · exact h.registered x hx
    · exact h.registered e he
  · cases hp : c.client? p with
    | none =>
      rw [updateChatStatus_of_none hp]
      exact h.aside
    | some e =>
      rw [updateChatStatus_of_some hp]
      exact h.aside

/-- The registered session of the player gets the new status. -/
theorem Placed.session?_updateChatStatus (h : c.Placed owner) (hx : x ∈ c.clients)
    (status : ChatStatus) (reason : String) :
    (c.updateChatStatus x.steamId status reason).1.state.session? x.connection =
      some { x with chatStatus := status } := by
  have hplaced := h.updateChatStatus x.steamId status reason
  refine hplaced.session?_of_mem (e := { x with chatStatus := status }) ?_
  rw [updateChatStatus_of_some (client?_eq_some_iff.2 ⟨hx, rfl⟩)]
  exact Ascending.mem_insert.2 (.inl rfl)

/-- Sessions of others, and those that are aside, stay as they are. -/
theorem Placed.session?_updateChatStatus_of_not (h : c.Placed owner) (p : SteamId)
    (status : ChatStatus) (reason : String) (hnot : ¬ (c.Serves n ∧ (owner n).steamId = p)) :
    (c.updateChatStatus p status reason).1.state.session? n = c.session? n := by
  cases hp : c.client? p with
  | none => rw [updateChatStatus_of_none hp]; rfl
  | some e =>
    have hplaced := h.updateChatStatus p status reason
    rw [updateChatStatus_of_some hp] at hplaced ⊢
    obtain ⟨hmem, hplayer⟩ := client?_eq_some_iff.1 hp
    by_cases hn : c.Serves n
    · obtain ⟨x, hx, rfl⟩ := hn
      have hne : x.steamId ≠ p := by
        rw [h.registered x hx]
        exact fun hsame => hnot ⟨⟨x, hx, rfl⟩, hsame⟩
      rw [h.session?_of_mem hx]
      refine hplaced.session?_of_mem (Ascending.mem_insert.2 (.inr ⟨hx, ?_⟩))
      exact fun hkey => hne ((SteamId.ext_toNat hkey).trans hplayer)
    · have hafter : ¬ (c.withStatus e status).Serves n := by
        rintro ⟨y, hy, hconnection⟩
        rcases Ascending.mem_insert.1 hy with rfl | ⟨hy, -⟩
        · exact hn ⟨e, hmem, hconnection⟩
        · exact hn ⟨y, hy, hconnection⟩
      rw [session?_of_not_serves hafter, session?_of_not_serves hn]
      rfl

end Matchmaker.Coordinator
