import Matchmaker.Proofs.Json.Settling
import Matchmaker.Proofs.Time.Timestamp
import Matchmaker.Protocol.Response

/-!
# Payloads that are written are read back

Each payload is an object whose members were declared in some order, and it is read by name from one
whose members are in ascending order.  `Restores` says of one value what a frame needs of it: its
brackets and numbers can be written, and what is read from it is what it was made of.  The lemmas
follow the types of the payloads, each from those of its members.
-/

namespace Matchmaker

namespace Json

open Value

variable {α : Type} {depth : Nat}

/-- `v` can be written with brackets that deep, and `a` is read from it when it was read back -/
structure Restores (depth : Nat) (read : Value → Option α) (a : α) (v : Value) : Prop where
  fits : v.Fits depth
  read : read v.settled = some a

theorem restores_int {lo hi n : Int} (h : lo ≤ n ∧ n ≤ hi)
    (hrange : Word.minInt64 ≤ lo ∧ hi ≤ Word.maxInt64) :
    Restores depth (asInt? lo hi) n (int n) :=
  ⟨fits_int ⟨Int.le_trans hrange.1 h.1, Int.le_trans h.2 hrange.2⟩, if_pos h⟩

theorem restores_list {read : Value → Option α} {written : α → Value} {l : List α}
    (h : ∀ a ∈ l, Restores depth read a (written a)) :
    Restores (depth + 1) (asListOf? read) l (array (l.map written)) where
  fits v hv := by
    obtain ⟨a, ha, rfl⟩ := List.mem_map.1 hv
    exact (h a ha).fits
  read := asListOf?_settled fun a ha => (h a ha).read

/-- a record of which each member is restored by what reads its fields -/
theorem restores_record {names : List String} {ms : List (String × Value)}
    {next : List (Option Value) → Option α} {a : α} (hnames : ms.map Prod.fst = names)
    (h : names.Nodup) (hfits : ∀ m ∈ ms, m.2.Fits depth)
    (hnext : next (ms.map fun m => some m.2.settled) = some a) :
    Restores (depth + 1) (fun v => v.asFields? names >>= next) a (object ms) where
  fits := hfits
  read := by
    rw [asFields?_settled hnames h]
    exact hnext

end Json

open Json Json.Value

variable (depth : Nat)

/-! ## identities -/

namespace SteamId

theorem plain_of_mem_write {n : Nat} {c : Char} (h : c ∈ Decimal.write n) :
    Text.isBlank c = false ∧ c ≠ '+' := by
  obtain ⟨d, hd, rfl⟩ := List.mem_map.1 h
  obtain ⟨hblank, -, hplus⟩ := Timestamp.digitChar_plain (Decimal.toDigits_lt n d hd)
  exact ⟨hblank, hplus⟩

theorem ofText?_text (p : SteamId) : ofText? p.text = some p := by
  have htrim : Text.trim (Decimal.write p.toNat) = Decimal.write p.toNat :=
    Text.trim_eq_self (fun c hc => (plain_of_mem_write (List.mem_of_mem_head? hc)).1)
      fun c hc => (plain_of_mem_write (List.mem_of_getLast? hc)).1
  have hsign : ∀ s, Decimal.write p.toNat ≠ '+' :: s := fun s hs =>
    (plain_of_mem_write (n := p.toNat) (by rw [hs]; exact List.mem_cons_self)).2 rfl
  rw [ofText?, text, String.toList_ofList, htrim, ofDigits?]
  · rw [Decimal.read?_write]
    exact (if_pos p.val.toNat_lt).trans (congrArg some (ext_toNat (toNat_ofNat p.val.toNat_lt)))
  · exact hsign

theorem restores (p : SteamId) : Restores depth ofValue? p p.toValue :=
  ⟨fits_text _, p.ofText?_text⟩

end SteamId

namespace ServerId

theorem restores (s : ServerId) : Restores depth ofValue? s s.toValue := by
  have hlt : s.toNat < UInt32.size := s.val.toNat_lt
  have hrange : (0 : Int) ≤ s.toNat ∧ (s.toNat : Int) < UInt32.size :=
    ⟨Int.natCast_nonneg _, Int.ofNat_lt.2 hlt⟩
  refine ⟨fits_int ⟨Int.le_trans (by decide) hrange.1, ?_⟩, ?_⟩
  · exact Int.le_trans (Int.le_of_lt hrange.2) (by decide)
  · show ((nat s.toNat).asNat? UInt32.size).map ofNat = some s
    rw [nat, asNat?, if_pos hrange, Int.toNat_natCast]
    exact congrArg some (ext_toNat (toNat_ofNat hlt))

end ServerId

theorem ChatStatus.restores (s : ChatStatus) : Restores depth ofValue? s s.toValue :=
  ⟨fits_text _, ofName?_name s⟩

/-! ## payloads of responses -/

namespace Protocol

theorem Member.restores (m : Member) : Restores (depth + 1) ofValue? m m.toValue := by
  have hid := m.steamId.restores depth
  refine restores_record rfl (by decide) ?_ ?_
  · simp [hid.fits]
  · simp only [List.map]
    rw [hid.read]
    rfl

theorem LobbyState.restores (s : LobbyState) : Restores (depth + 2) ofValue? s s.toValue := by
  have hid := s.serverId.restores (depth + 1)
  have hmembers := restores_list (l := s.members) fun p _ => p.restores depth
  refine restores_record rfl (by decide) ?_ ?_
  · simp [hid.fits, hmembers.fits]
  · simp only [List.map]
    rw [hid.read, hmembers.read]
    rfl

theorem StateUpdate.restores (u : StateUpdate) : Restores (depth + 4) ofValue? u u.toValue := by
  have hservers := restores_list (l := u.servers) fun s _ => s.restores depth
  have husers := restores_list (l := u.users) fun m _ => m.restores (depth + 1)
  refine restores_record rfl (by decide) ?_ ?_
  · simp [hservers.fits, husers.fits]
  · simp only [List.map]
    rw [hservers.read, husers.read]
    rfl

theorem LobbyServer.restores (s : LobbyServer) : Restores (depth + 1) ofValue? s s.toValue :=
  restores_record rfl (by decide) (by simp) rfl

end Protocol

namespace ChatEntry

/-- the numbers of the message are ones that its fields can hold, and its time is outside of leap
seconds and in a year of four digits -/
structure Regular (e : ChatEntry) : Prop where
  messageId : isMessageId e.messageId
  level : Word.minInt32 ≤ e.permissionLevel ∧ e.permissionLevel ≤ Word.maxInt32
  nano : e.createdOn.nano < 1000000000
  year : 0 ≤ (Date.ofDay e.createdOn.day).year ∧ (Date.ofDay e.createdOn.day).year ≤ 9999

theorem restores_messageId {n : Int} (h : isMessageId n) : Restores depth messageId? n (int n) :=
  restores_int h ⟨Int.le_refl _, Int.le_refl _⟩

theorem Regular.restores {e : ChatEntry} (h : e.Regular) :
    Restores (depth + 1) ofValue? e e.toValue := by
  have hid := restores_messageId depth h.messageId
  have hauthor := e.author.restores depth
  have hlevel : Restores depth level? e.permissionLevel (int e.permissionLevel) :=
    restores_int h.level (by decide)
  have hcreated : ((text e.createdOn.write).settled.asText? >>= Timestamp.read?) =
      some e.createdOn :=
    Option.bind_eq_some_iff.2 ⟨_, rfl, Timestamp.read?_write h.nano h.year⟩
  refine restores_record rfl (by decide) ?_ ?_
  · simp [hid.fits, hauthor.fits, hlevel.fits]
  · simp only [List.map]
    rw [hid.read, hauthor.read, hcreated, hlevel.read]
    rfl

end ChatEntry

/-! ## what is asked for and what is sent -/

namespace Protocol

theorem Request.restores_servers (servers : List ServerId) :
    Restores (depth + 2) serversOf? servers (joinQueue servers).payload := by
  have hservers := restores_list (l := servers) fun s _ => s.restores depth
  refine restores_record rfl (by decide) (by simpa using hservers.fits) ?_
  exact hservers.read

theorem Request.restores_body (body : String) :
    Restores (depth + 1) bodyOf? body (message body).payload :=
  restores_record rfl (by decide) (by simp) rfl

namespace Response

/-- every number and every time in the response is one that it can be sent with -/
def Regular : Response → Prop
  | message e => e.Regular
  | purge ids => ∀ n ∈ ids, ChatEntry.isMessageId n
  | _ => True

theorem restores_startGame (server : LobbyServer) (users : List Member) :
    Restores (depth + 3) startGameOf? (startGame server users)
      (startGame server users).payload := by
  have hserver := server.restores (depth + 1)
  have husers := restores_list (l := users) fun m _ => m.restores depth
  refine restores_record rfl (by decide) ?_ ?_
  · simp [hserver.fits, husers.fits]
  · simp only [List.map]
    rw [hserver.read, husers.read]
    rfl

theorem restores_purge {ids : List Int} (h : ∀ n ∈ ids, ChatEntry.isMessageId n) :
    Restores (depth + 2) purgeOf? (purge ids) (purge ids).payload := by
  have hids := restores_list fun n hn => ChatEntry.restores_messageId depth (h n hn)
  refine restores_record rfl (by decide) (by simpa using hids.fits) ?_
  simp only [List.map]
  rw [hids.read]
  rfl

theorem restores_bye (text : String) :
    Restores (depth + 1) byeOf? (bye text) (bye text).payload :=
  restores_record rfl (by decide) (by simp) rfl

theorem restores_chatStatusChange (status : ChatStatus) (reason : String) :
    Restores (depth + 1) chatStatusChangeOf? (chatStatusChange status reason)
      (chatStatusChange status reason).payload := by
  have hstatus := status.restores depth
  refine restores_record rfl (by decide) ?_ ?_
  · simp [hstatus.fits]
  · simp only [List.map]
    rw [hstatus.read]
    rfl

end Response

end Protocol

end Matchmaker
