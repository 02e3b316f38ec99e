import Matchmaker.Lobby.Info

/-!
# How players find a server

The players of a match are told the names of the server, a link with its address and a command with
its host name.  Host name and port can be read off the command (`connectCommand_eq_iff`), so two
records give the same text only if they agree on everything but the number and the places of the
server (`server_eq_iff`).
-/

namespace Matchmaker

/-- A text is parted at its last mark in one way only. -/
theorem Decimal.append_mark_inj {c : Char} (hc : digit? c = none) {s t : List Char} {m n : Nat}
    (h : s ++ c :: write m = t ++ c :: write n) : s = t ∧ m = n := by
  have hm : c ∉ write m := fun hmem => digit?_of_mem_write hmem hc
  have hn : c ∉ write n := fun hmem => digit?_of_mem_write hmem hc
  rcases List.append_eq_append_iff.1 h with ⟨u, ht, hu⟩ | ⟨u, hs, hu⟩
  · cases u with
    | nil =>
      rw [List.nil_append, List.cons.injEq] at hu
      rw [List.append_nil] at ht
      exact ⟨ht.symm, write_injective hu.2⟩
    | cons d u =>
      rw [List.cons_append, List.cons.injEq] at hu
      exact absurd (hu.2 ▸ List.mem_append_right u List.mem_cons_self) hm
  · cases u with
    | nil =>
      rw [List.nil_append, List.cons.injEq] at hu
      rw [List.append_nil] at hs
      exact ⟨hs, write_injective hu.2.symm⟩
    | cons d u =>
      rw [List.cons_append, List.cons.injEq] at hu
      exact absurd (hu.2 ▸ List.mem_append_right u List.mem_cons_self) hn

namespace LobbyInfo
variable {i j : LobbyInfo}

/-- two records name a server in the same way, and put it at the same place -/
structure SameSite (i j : LobbyInfo) : Prop where
  title : i.title = j.title
  shortName : i.shortName = j.shortName
  cc : i.cc = j.cc
  hostname : i.hostname = j.hostname
  port : i.port = j.port

/-! ## what the texts tell -/

theorem toList_connectCommand (i : LobbyInfo) :
    i.connectCommand.toList =
      "connect ".toList ++ i.hostname.toList ++ ':' :: Decimal.write i.port.toNat := by
  simp [connectCommand, portText]

theorem portText_congr (h : i.port = j.port) : i.portText = j.portText := by
  rw [portText, portText, h]

theorem connectCommand_eq_iff :
    i.connectCommand = j.connectCommand ↔ i.hostname = j.hostname ∧ i.port = j.port := by
  constructor
  · intro h
    have hchars := congrArg String.toList h
    rw [toList_connectCommand, toList_connectCommand] at hchars
    obtain ⟨hhost, hport⟩ := Decimal.append_mark_inj (by decide) hchars
    exact ⟨String.toList_inj.1 (List.append_cancel_left hhost), UInt16.toNat_inj.1 hport⟩
  · rintro ⟨hhost, hport⟩
    unfold connectCommand
    rw [hhost, portText_congr hport]

theorem connectUrl_eq_iff (h : i.port = j.port) {a b : Address} :
    i.connectUrl a = j.connectUrl b ↔ a.text = b.text := by
  unfold connectUrl
  rw [portText_congr h, String.append_left_inj, String.append_left_inj, String.append_right_inj]

theorem server_eq_iff {a b : Address} :
    i.server a = j.server b ↔ i.SameSite j ∧ a.text = b.text := by
  constructor
  · intro h
    obtain ⟨hhost, hport⟩ := connectCommand_eq_iff.1 (congrArg Protocol.LobbyServer.connectCommand h)
    exact ⟨⟨congrArg Protocol.LobbyServer.name h, congrArg Protocol.LobbyServer.shortName h,
      congrArg Protocol.LobbyServer.cc h, hhost, hport⟩,
      (connectUrl_eq_iff hport).1 (congrArg Protocol.LobbyServer.connectUrl h)⟩
  · rintro ⟨hsite, htext⟩
    have hcommand : i.connectCommand = j.connectCommand :=
      connectCommand_eq_iff.2 ⟨hsite.hostname, hsite.port⟩
    have hurl : i.connectUrl a = j.connectUrl b := (connectUrl_eq_iff hsite.port).2 htext
    rw [server, server, hsite.title, hsite.shortName, hsite.cc, hcommand, hurl]

/-! ## where a server is -/

theorem resolve_congr (h : i.hostname = j.hostname) (lookup : Lookup) :
    i.resolve lookup = j.resolve lookup := by
  rw [resolve, resolve, h]

/-- Of two records of a server one stands for the other if they name it alike. -/
theorem names_iff {lookup : Lookup} {a : Address} (h : i.resolve lookup = .ok a) :
    (∃ b, j.resolve lookup = .ok b ∧ i.server a = j.server b) ↔ i.SameSite j := by
  constructor
  · rintro ⟨b, -, hserver⟩
    exact (server_eq_iff.1 hserver).1
  · intro hsite
    have hb : j.resolve lookup = .ok a := by rw [← resolve_congr hsite.hostname, h]
    exact ⟨a, hb, server_eq_iff.2 ⟨hsite, rfl⟩⟩

end LobbyInfo

end Matchmaker
