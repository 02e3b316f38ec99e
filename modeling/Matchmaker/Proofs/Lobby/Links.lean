import Matchmaker.Lobby.Info
import Matchmaker.Proofs.Net.Literals

/-!
# Where a link leads

The usual text of an address with a port is `192.0.2.10:27015` for four octets and `[::1]:27015` for
eight groups, whose own colons the brackets keep apart from the one in front of the port.  `socket?`
reads these texts, and `writeSocket` writes them.

The link of a server has no brackets.  So it is the usual text, and can be read, exactly for addresses
of four octets (`link_leads_iff`).
-/

namespace Matchmaker

namespace Address

/-! ## addresses with ports -/

def port? (s : List Char) : Option UInt16 := do
  let n ← mark? ':' s >>= Decimal.read?
  if n < UInt16.size then some (UInt16.ofNat n) else none

/-- the address and the port that a text stands for, where groups are in brackets -/
def socket? : List Char → Option (Address × UInt16)
  | '[' :: s => do
    let (a, s) ← v6? s
    let s ← mark? ']' s
    let port ← port? s
    some (a, port)
  | s => do
    let ((a, b, c, d), s) ← octets? s
    let port ← port? s
    some (v4 a b c d, port)

def writePort (port : UInt16) : List Char := ':' :: Decimal.write port.toNat

def writeSocket (port : UInt16) : Address → List Char
  | v4 a b c d => writeOctets a b c d ++ writePort port
  | v6 groups => '[' :: (writeV6 groups.toList ++ ']' :: writePort port)

theorem port?_writePort (port : UInt16) : port? (writePort port) = some port := by
  have hport : port.toNat < UInt16.size := port.toNat_lt
  have hread : (mark? ':' (writePort port) >>= Decimal.read?) = some port.toNat :=
    Decimal.read?_write port.toNat
  unfold port?
  rw [hread]
  simp [hport]

/-- Without a bracket in front there have to be octets. -/
theorem socket?_of_ne {s : List Char} (h : ∀ r, s ≠ '[' :: r) :
    socket? s = (octets? s).bind fun ((a, b, c, d), r) =>
      (port? r).map fun port => (v4 a b c d, port) := by
  unfold socket?
  split
  · exact absurd rfl (h _)
  · cases octets? s with
    | none => rfl
    | some x =>
      simp only [Option.bind_eq_bind, Option.bind_some]
      cases port? x.2 <;> rfl

theorem socket?_octets (a b c d : UInt8) (port : UInt16) :
    socket? (writeOctets a b c d ++ writePort port) = some (v4 a b c d, port) := by
  have hread := octets?_writeOctets a b c d (stops_colon (Decimal.write port.toNat))
  have hopen : ∀ r, writeOctets a b c d ++ writePort port ≠ '[' :: r := by
    intro r heq
    unfold writePort at heq
    rw [heq] at hread
    cases hread
  rw [socket?_of_ne hopen, writePort, hread, ← writePort]
  simp [port?_writePort]

/-- **The usual text of an address with a port is read back.** -/
theorem socket?_writeSocket (a : Address) (port : UInt16) :
    socket? (writeSocket port a) = some (a, port) := by
  cases a with
  | v4 a b c d => exact socket?_octets a b c d port
  | v6 groups =>
    have hstops : Stops (']' :: writePort port) := stops_cons (by decide) _
    have hread := v6?_writeV6 groups hstops (by simp)
    have hclose : mark? ']' (']' :: writePort port) = some (writePort port) := rfl
    simp only [socket?, writeSocket, hread, hclose, port?_writePort, Option.bind_eq_bind,
      Option.bind_some]

/-! ## groups without brackets -/

/-- The text of groups begins with the digits of a group, or none, and a colon. -/
theorem exists_hex_colon (gs : Vector UInt16 8) :
    ∃ h t, writeV6 gs.toList = h ++ ':' :: t ∧ ∀ c ∈ h, Json.hexDigit? c ≠ none := by
  have hgroups : ∀ (all : List UInt16) (s : List Char),
      ∃ h t, writeGroups all ++ ':' :: s = h ++ ':' :: t ∧ ∀ c ∈ h, Json.hexDigit? c ≠ none := by
    intro all s
    cases all with
    | nil => exact ⟨[], s, rfl, by simp⟩
    | cons g all =>
      have hdigits : ∀ c ∈ hex g, Json.hexDigit? c ≠ none := fun c => hexDigit?_of_mem_hex
      rw [writeGroups_cons, List.append_assoc]
      cases all with
      | nil => exact ⟨hex g, s, rfl, hdigits⟩
      | cons g' all =>
        exact ⟨hex g, hex g' ++ (colonGroups all ++ ':' :: s), by simp [colonGroups], hdigits⟩
  have hlength : gs.toList.length = 8 := by simp
  generalize gs.toList = all at hlength
  unfold writeV6
  split
  · exact ⟨[], _, rfl, by simp⟩
  · dsimp only
    split
    · exact hgroups _ _
    · cases all with
      | nil => cases hlength
      | cons g all =>
        cases all with
        | nil => cases hlength
        | cons g' all => exact ⟨hex g, _, rfl, fun c => hexDigit?_of_mem_hex⟩

/-- There are no octets where groups are written. -/
theorem octets?_writeV6 (gs : Vector UInt16 8) (r : List Char) :
    octets? (writeV6 gs.toList ++ r) = none := by
  obtain ⟨h, t, hgs, hdigits⟩ := exists_hex_colon gs
  have hpoint : '.' ∉ h := fun hmem => hdigits '.' hmem (by decide)
  rw [hgs, List.append_assoc]
  exact octets?_eq_none hpoint (stops_colon (t ++ r))

/-- Groups without brackets are no address with a port, whatever follows them. -/
theorem socket?_writeV6 (gs : Vector UInt16 8) (r : List Char) :
    socket? (writeV6 gs.toList ++ r) = none := by
  have hopen : ∀ s, writeV6 gs.toList ++ r ≠ '[' :: s := by
    obtain ⟨h, t, hgs, hdigits⟩ := exists_hex_colon gs
    intro s heq
    rw [hgs] at heq
    cases h with
    | nil => simp at heq
    | cons c h =>
      have hc : c = '[' := (List.cons.inj heq).1
      exact hdigits c List.mem_cons_self (by rw [hc]; decide)
  rw [socket?_of_ne hopen, octets?_writeV6]
  rfl

/-- **The text of an address is read back.** -/
theorem ofText?_text (a : Address) : ofText? a.text = some a := by
  unfold ofText? text
  rw [String.toList_ofList]
  cases a with
  | v4 a b c d =>
    have hread := octets?_writeOctets a b c d stops_nil
    rw [List.append_nil] at hread
    rw [write, hread]
  | v6 groups =>
    have hoctets := octets?_writeV6 groups []
    have hread := v6?_writeV6 groups stops_nil (by simp)
    rw [List.append_nil] at hoctets hread
    rw [write, hoctets, hread]

end Address

namespace LobbyInfo
open Address

/-- what stands in front of the address in a link -/
def scheme : String := "steam://connect/"

/-- the link leads to the address, at the port of the server -/
def Leads (i : LobbyInfo) (a : Address) : Prop :=
  ∃ s, i.connectUrl a = scheme ++ s ∧ socket? s.toList = some (a, i.port)

theorem resolve_text (i : LobbyInfo) (lookup : Lookup) {a : Address} (h : i.hostname = a.text) :
    i.resolve lookup = .ok a := by
  unfold resolve
  rw [h, ofText?_text]

theorem connectUrl_eq (i : LobbyInfo) (a : Address) :
    i.connectUrl a = scheme ++ String.ofList (a.write ++ writePort i.port) := by
  have hcolon : (":" : String) = String.ofList [':'] := rfl
  unfold connectUrl portText Address.text writePort
  rw [String.append_assoc, String.append_assoc, hcolon, ← String.ofList_append,
    ← String.ofList_append]
  rfl

/-- A link has one way to be read. -/
theorem leads_iff (i : LobbyInfo) (a : Address) :
    i.Leads a ↔ socket? (a.write ++ writePort i.port) = some (a, i.port) := by
  constructor
  · rintro ⟨s, hurl, hread⟩
    rw [connectUrl_eq, String.append_right_inj] at hurl
    rwa [← hurl, String.toList_ofList] at hread
  · intro hread
    exact ⟨_, i.connectUrl_eq a, by rwa [String.toList_ofList]⟩

/-- **A link leads to the address of the server exactly if that has four octets.**  Every address can
be what a server has, and has a usual text with the port that is read back.  The link is that text, and
can be read as the address, for four octets only; of eight groups nothing can be read. -/
theorem link_leads_iff (i : LobbyInfo) (lookup : Lookup) (a : Address) :
    { i with hostname := a.text }.resolve lookup = .ok a ∧
      socket? (writeSocket i.port a) = some (a, i.port) ∧
      (i.connectUrl a = scheme ++ String.ofList (writeSocket i.port a) ↔ a.isV4 = true) ∧
      (i.Leads a ↔ a.isV4 = true) ∧
      (a.isV4 = false → ∀ s, i.connectUrl a = scheme ++ s → socket? s.toList = none) := by
  have hback := socket?_writeSocket a i.port
  refine ⟨resolve_text _ lookup rfl, hback, ?_⟩
  rw [leads_iff, connectUrl_eq, String.append_right_inj, String.ofList_inj]
  cases a with
  | v4 a b c d =>
    have hfour : (v4 a b c d).isV4 = true := rfl
    refine ⟨iff_of_true rfl hfour, iff_of_true hback hfour, ?_⟩
    intro hnot
    cases hnot
  | v6 groups =>
    have hfour : ¬ (v6 groups).isV4 = true := Bool.false_ne_true
    have hnone : socket? ((v6 groups).write ++ writePort i.port) = none :=
      socket?_writeV6 groups (writePort i.port)
    refine ⟨iff_of_false ?_ hfour, iff_of_false ?_ hfour, ?_⟩
    · intro heq
      rw [← heq, hnone] at hback
      cases hback
    · intro hread
      rw [hnone] at hread
      cases hread
    · intro _ s hs
      rw [String.append_right_inj] at hs
      rw [← hs, String.toList_ofList, hnone]

theorem link_leads_iff_sample :
    let i : LobbyInfo :=
      { serverId := ⟨3⟩, title := "t", shortName := "s", hostname := "h", port := 27015, cc := "us"
        playerCount := 4, maxPlayers := 24 }
    let a : Address := v6 #v[0x2001, 0xdb8, 0, 0, 0, 0, 0, 1]
    i.Leads (v4 192 0 2 10) ∧ a.isV4 = false ∧ ¬ i.Leads a ∧
      ∀ s, i.connectUrl a = scheme ++ s → socket? s.toList = none := by
  intro i a
  have lookup : Lookup := fun _ => .ok []
  obtain ⟨-, -, -, hfour, -⟩ := link_leads_iff i lookup (v4 192 0 2 10)
  obtain ⟨-, -, -, height, hnone⟩ := link_leads_iff i lookup a
  refine ⟨hfour.2 rfl, rfl, ?_, hnone rfl⟩
  intro hleads
  cases height.1 hleads

/-- The link of a server at a loopback address leads nowhere. -/
theorem loopback_link_leads_nowhere :
    let i : LobbyInfo :=
      { serverId := ⟨3⟩, title := "t", shortName := "s", hostname := "::1", port := 27015, cc := "us"
        playerCount := 4, maxPlayers := 24 }
    let a : Address := v6 #v[0, 0, 0, 0, 0, 0, 0, 1]
    i.resolve (fun _ => .error "") = .ok a ∧ i.connectUrl a = "steam://connect/::1:27015" ∧
      socket? "[::1]:27015".toList = some (a, i.port) ∧ ¬ i.Leads a := by
  intro i a
  have hname : i.hostname = a.text := by decide +kernel
  have hplain : a.write ++ writePort 27015 = "::1:27015".toList := by decide +kernel
  have hsocket : writeSocket 27015 a = "[::1]:27015".toList := by decide +kernel
  have hurl : i.connectUrl a = "steam://connect/::1:27015" := by
    rw [connectUrl_eq, hplain, String.ofList_toList]
    rfl
  have hnone : socket? (a.write ++ writePort i.port) = none :=
    socket?_writeV6 #v[0, 0, 0, 0, 0, 0, 0, 1] (writePort i.port)
  refine ⟨resolve_text i _ hname, hurl, ?_, ?_⟩
  · rw [← hsocket, socket?_writeSocket]
  · rw [leads_iff, hnone]
    intro hread
    cases hread

end LobbyInfo

end Matchmaker
