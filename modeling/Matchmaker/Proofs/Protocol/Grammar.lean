import Matchmaker.Proofs.Json.Records
import Matchmaker.Proofs.Text.Encoding
import Matchmaker.Protocol.Request

/-!
# What is a request

The payloads of requests have one field each.  `Spells` says which payloads spell out which request,
and reading accepts these and no others (`Request.ofOp_eq_ok`).  The operation code is looked at
first: one that is unknown, or that is only sent to clients, is told whatever the payload is.

A frame may come without a payload, as an object that lacks the member or as a list of the operation
code alone.  Its payload is then null, which spells out nothing.
-/

namespace Matchmaker

open Json Json.Value

namespace Json

/-! ## records of one field -/

/-- a record of one field has that value in it: as a member of an object or as the only item of a
list -/
inductive Carries (name : String) : Value → Value → Prop where
  | member {ms : List (String × Value)} {w : Value} (h : ms.lookup name = some w) :
      Carries name (object ms) w
  | item (w : Value) : Carries name (array [w]) w

theorem asFields?_eq_one {name : String} {v w : Value} :
    v.asFields? [name] = some [some w] ↔ Carries name v w := by
  constructor
  · intro h
    cases v with
    | object ms => exact .member (List.cons.inj (Option.some.inj h)).1
    | array vs =>
      cases vs with
      | nil => cases h
      | cons a vs =>
        cases vs with
        | nil =>
          cases h
          exact .item w
        | cons b vs => cases h
    | _ => cases h
  · rintro (h | _)
    · show some [List.lookup name _] = _
      rw [h]
    · rfl

/-- Of a record with one field, what is read is what is read from the value in it. -/
theorem readField_eq_some {α : Type} {name : String} {v : Value} {read : Value → Option α} {a : α} :
    (do match ← v.asFields? [name] with | [some w] => read w | _ => none) = some a ↔
      ∃ w, Carries name v w ∧ read w = some a := by
  constructor
  · intro h
    obtain ⟨l, hl, h⟩ := Option.bind_eq_some_iff.1 h
    split at h
    · exact ⟨_, asFields?_eq_one.1 hl, h⟩
    · cases h
  · rintro ⟨w, hw, h⟩
    rw [asFields?_eq_one.2 hw]
    exact h

end Json

namespace Protocol

/-! ## payloads -/

/-- a list of numbers of lobbies, each a whole number of 32 bits without sign -/
def IsServerList (v : Value) (servers : List ServerId) : Prop :=
  ∃ ns : List Int, v = array (ns.map int) ∧ (∀ n ∈ ns, 0 ≤ n ∧ n < UInt32.size) ∧
    servers = ns.map fun n => ServerId.ofNat n.toNat

/-- the payload of that operation spells out that request -/
inductive Spells : Op → Value → Request → Prop where
  | joinQueue {v w : Value} {servers : List ServerId} (hcarries : Carries "servers" v w)
      (hlist : IsServerList w servers) : Spells .joinQueue v (.joinQueue servers)
  | leaveQueue {v w : Value} {servers : List ServerId} (hcarries : Carries "servers" v w)
      (hlist : IsServerList w servers) : Spells .leaveQueue v (.leaveQueue servers)
  | message {v : Value} {body : String} (hcarries : Carries "body_md" v (text body)) :
      Spells .message v (.message body)

theorem serverId_eq_some {v : Value} {s : ServerId} :
    ServerId.ofValue? v = some s ↔
      ∃ n : Int, v = int n ∧ (0 ≤ n ∧ n < UInt32.size) ∧ s = ServerId.ofNat n.toNat := by
  constructor
  · intro h
    obtain ⟨k, hk, hs⟩ := Option.map_eq_some_iff.1 h
    cases v with
    | num x =>
      cases x with
      | int n =>
        simp only [asNat?] at hk
        split at hk
        · cases hk
          exact ⟨n, rfl, ‹_›, hs.symm⟩
        · cases hk
      | real x => cases hk
    | _ => cases hk
  · rintro ⟨n, rfl, hn, rfl⟩
    exact congrArg (Option.map ServerId.ofNat) (if_pos hn)

/-- The lists that are read as lobbies are those of numbers of lobbies. -/
theorem serverList_eq_some {v : Value} {servers : List ServerId} :
    v.asListOf? ServerId.ofValue? = some servers ↔ IsServerList v servers := by
  constructor
  · intro h
    cases v with
    | array vs =>
      change vs.mapM ServerId.ofValue? = some servers at h
      induction vs generalizing servers with
      | nil =>
        cases h
        exact ⟨[], rfl, nofun, rfl⟩
      | cons v vs ih =>
        rw [List.mapM_cons] at h
        obtain ⟨s, hs, h⟩ := Option.bind_eq_some_iff.1 h
        obtain ⟨rest, hrest, h⟩ := Option.bind_eq_some_iff.1 h
        cases h
        obtain ⟨n, rfl, hn, rfl⟩ := serverId_eq_some.1 hs
        obtain ⟨ns, hvs, hns, rfl⟩ := ih hrest
        cases hvs
        exact ⟨n :: ns, rfl, List.forall_mem_cons.2 ⟨hn, hns⟩, rfl⟩
    | _ => cases h
  · rintro ⟨ns, rfl, hns, rfl⟩
    show (ns.map int).mapM ServerId.ofValue? = _
    induction ns with
    | nil => rfl
    | cons n ns ih =>
      obtain ⟨hn, hns⟩ := List.forall_mem_cons.1 hns
      rw [List.map_cons, List.mapM_cons, serverId_eq_some.2 ⟨n, rfl, hn, rfl⟩, ih hns]
      rfl

theorem asText?_eq_some {v : Value} {s : String} : v.asText? = some s ↔ v = text s := by
  cases v with
  | text t =>
    exact ⟨fun h => congrArg text (Option.some.inj h), fun h => congrArg some (Value.text.inj h)⟩
  | _ => exact ⟨nofun, nofun⟩

namespace Request

theorem serversOf?_eq_some {v : Value} {servers : List ServerId} :
    serversOf? v = some servers ↔ ∃ w, Carries "servers" v w ∧ IsServerList w servers := by
  have h : serversOf? v = some servers ↔
      ∃ w, Carries "servers" v w ∧ asListOf? ServerId.ofValue? w = some servers := readField_eq_some
  simp only [serverList_eq_some] at h
  exact h

theorem bodyOf?_eq_some {v : Value} {body : String} :
    bodyOf? v = some body ↔ Carries "body_md" v (.text body) := by
  have h : bodyOf? v = some body ↔ ∃ w, Carries "body_md" v w ∧ asText? w = some body :=
    readField_eq_some
  simp only [asText?_eq_some, exists_eq_right] at h
  exact h

theorem orPayload_map_eq_ok {α : Type} {op : Op} {x : Option α} {f : α → Request} {q : Request} :
    orPayload op (x.map f) = .ok q ↔ ∃ a, x = some a ∧ q = f a := by
  cases x with
  | none => exact ⟨nofun, nofun⟩
  | some a =>
    exact ⟨fun h => ⟨a, rfl, (Except.ok.inj h).symm⟩, fun ⟨_, ha, hq⟩ => by cases ha; rw [hq]; rfl⟩

/-- Of the operations that a client may ask for, what is accepted is what spells out a request. -/
theorem ofOp_eq_ok {op : Op} {v : Value} {q : Request} : ofOp op v = .ok q ↔ Spells op v q := by
  constructor
  · intro h
    cases op with
    | joinQueue =>
      obtain ⟨servers, hservers, rfl⟩ := orPayload_map_eq_ok.1 h
      obtain ⟨w, hcarries, hlist⟩ := serversOf?_eq_some.1 hservers
      exact .joinQueue hcarries hlist
    | leaveQueue =>
      obtain ⟨servers, hservers, rfl⟩ := orPayload_map_eq_ok.1 h
      obtain ⟨w, hcarries, hlist⟩ := serversOf?_eq_some.1 hservers
      exact .leaveQueue hcarries hlist
    | message =>
      obtain ⟨body, hbody, rfl⟩ := orPayload_map_eq_ok.1 h
      exact .message (bodyOf?_eq_some.1 hbody)
    | _ => cases h
  · intro h
    cases h with
    | joinQueue hcarries hlist =>
      exact orPayload_map_eq_ok.2 ⟨_, serversOf?_eq_some.2 ⟨_, hcarries, hlist⟩, rfl⟩
    | leaveQueue hcarries hlist =>
      exact orPayload_map_eq_ok.2 ⟨_, serversOf?_eq_some.2 ⟨_, hcarries, hlist⟩, rfl⟩
    | message hcarries =>
      exact orPayload_map_eq_ok.2 ⟨_, bodyOf?_eq_some.2 hcarries, rfl⟩

/-- the refusal of a payload, of the operations that a client may ask for -/
theorem ofOp_eq_error {op : Op} {v : Value} (hop : op.code < 3) (h : ¬ ∃ q, Spells op v q) :
    ofOp op v = .error (.payload op) := by
  have hnone : ∀ {α : Type} {x : Option α} {f : α → Request},
      (∀ q, orPayload op (x.map f) ≠ .ok q) → orPayload op (x.map f) = .error (.payload op) := by
    intro α x f hx
    cases x with
    | none => rfl
    | some a => exact absurd rfl (hx (f a))
  have hrefused : ∀ q, ofOp op v ≠ .ok q := fun q hq => h ⟨q, ofOp_eq_ok.1 hq⟩
  cases op with
  | joinQueue => exact hnone hrefused
  | leaveQueue => exact hnone hrefused
  | message => exact hnone hrefused
  | _ => exact absurd hop (by decide)

end Request

/-! ## frames without a payload -/

namespace Frame

/-- the text is an object without the member, or a list that is closed behind its first item -/
def LacksPayload (s : Input) : Prop :=
  (∃ names, memberNames s = .ok names ∧ "payload" ∉ names) ∨
    ∃ t u w, token s = some '[' :: t ∧ skip t = .ok u ∧ token u = some ']' :: w

theorem skip_of_read_field {f : Field} (hf : f ∈ fields) (hname : f.name ≠ "payload") {depth : Nat}
    {s r : Input} {v : Value} (h : f.read depth s = .ok (v, r)) : skip s = .ok r := by
  rcases List.mem_cons.1 hf with rfl | hf
  · exact skip_of_read_int h
  · rcases List.mem_cons.1 hf with rfl | hf
    · exact absurd rfl hname
    · cases hf

theorem payload_of_ofValue? {n k : String} {op payload : Value} {f : Frame}
    (h : ofValue? (.object [(n, op), (k, payload)]) = some f) : f.payload = payload := by
  unfold ofValue? at h
  split at h
  · rename_i heq
    cases heq
    cases h
    rfl
  · cases h

theorem payload_of_object {s r : Input} {f : Frame} {names : List String}
    (hread : read s = .ok (f, r)) (hnames : memberNames s = .ok names) (hk : "payload" ∉ names) :
    f.payload = .null := by
  unfold memberNames at hnames
  split at hnames
  · rename_i t htoken
    obtain ⟨⟨v, u⟩, hrecord, hshaped⟩ := bind_eq_ok.1 hread
    rw [show maxDepth = 126 + 1 from rfl, readRecord_object htoken] at hrecord
    obtain ⟨⟨found, u'⟩, hfound, hrecord⟩ := bind_eq_ok.1 hrecord
    obtain ⟨ms, harrange, hrecord⟩ := bind_eq_ok.1 hrecord
    have habsent : found.lookup "payload" = none :=
      lookup_readNamed (fun f hf hname _ _ _ => skip_of_read_field hf hname) hfound hnames hk rfl
    rw [fields, arrange_cons, arrange_cons] at harrange
    obtain ⟨op, -, harrange⟩ := bind_eq_ok.1 harrange
    obtain ⟨rest, hrest, harrange⟩ := bind_eq_ok.1 harrange
    obtain ⟨payload, hpayload, hrest⟩ := bind_eq_ok.1 hrest
    rw [show (Field.any "payload").name = "payload" from rfl, habsent] at hpayload
    cases hpayload
    cases hrest
    cases harrange
    cases hrecord
    exact payload_of_ofValue? (shaped_eq_ok.1 hshaped).1
  · cases hnames

theorem payload_of_list {s t u w r : Input} {f : Frame} (hread : read s = .ok (f, r))
    (htoken : token s = some '[' :: t) (hskip : skip t = .ok u) (hclose : token u = some ']' :: w) :
    f.payload = .null := by
  obtain ⟨⟨v, u'⟩, hrecord, hshaped⟩ := bind_eq_ok.1 hread
  rw [show maxDepth = 126 + 1 from rfl, readRecord_array htoken] at hrecord
  cases hpositions : readPositions 126 fields true t with
  | error e =>
    rw [hpositions] at hrecord
    cases hrecord
  | ok p =>
    rw [hpositions] at hrecord
    cases hrecord
    obtain ⟨next, hnext, hpositions⟩ := bind_eq_ok.1 hpositions
    cases next with
    | close r =>
      obtain ⟨op, hop, -⟩ := bind_eq_ok.1 hpositions
      cases hop
    | item r =>
      obtain ⟨⟨op, r'⟩, hop, hpositions⟩ := bind_eq_ok.1 hpositions
      obtain ⟨⟨ms, r''⟩, hrest, hfirst⟩ := bind_eq_ok.1 hpositions
      rw [item_eq_token hnext, read_int_token] at hop
      obtain rfl : u = r' := Except.ok.inj (hskip.symm.trans (skip_of_read_int hop))
      obtain ⟨next, hnext, hrest⟩ := bind_eq_ok.1 hrest
      rw [nextItem_eq_close.2 hclose] at hnext
      cases hnext
      obtain ⟨payload, hpayload, hrest⟩ := bind_eq_ok.1 hrest
      obtain ⟨⟨ms', r'''⟩, hend, hsecond⟩ := bind_eq_ok.1 hrest
      rw [readPositions, hclose] at hend
      cases hend
      cases hpayload
      cases hsecond
      cases hfirst
      exact payload_of_ofValue? (shaped_eq_ok.1 hshaped).1

theorem payload_of_lacks {bytes : ByteArray} {f : Frame} (hdecode : decode bytes = .ok f)
    (h : LacksPayload (Text.chars bytes)) : f.payload = .null := by
  obtain ⟨⟨f', r⟩, hread, hwhole⟩ := bind_eq_ok.1 hdecode
  obtain ⟨_, -, hwhole⟩ := bind_eq_ok.1 hwhole
  cases hwhole
  rcases h with ⟨names, hnames, hk⟩ | ⟨t, u, w, htoken, hskip, hclose⟩
  · exact payload_of_object hread hnames hk
  · exact payload_of_list hread htoken hskip hclose

end Frame

/-! ## all frames -/

theorem Op.code_lt (op : Op) : op.code < 8 := by cases op <;> decide

theorem Request.ofOp_of_le {op : Op} (h : 3 ≤ op.code) (v : Value) :
    ofOp op v = .error (.unexpectedOp op) := by
  cases op with
  | joinQueue => exact absurd h (by decide)
  | leaveQueue => exact absurd h (by decide)
  | message => exact absurd h (by decide)
  | _ => rfl

/-- **A request is accepted exactly when a frame spells one out.**  A code that no operation has is
told as such, and so is an operation that is only sent to clients, whatever the payload; of the three
operations that a client may ask for, all other payloads are refused, among them that of a frame
which comes without one. -/
theorem accepts_exactly :
    (∀ f : Frame,
      (¬ (0 ≤ f.op ∧ f.op ≤ 7) → Request.ofFrame f = .error (.unknownOp f.op)) ∧
      ∀ op : Op, f.op = op.code →
        (3 ≤ f.op → Request.ofFrame f = .error (.unexpectedOp op)) ∧
        (f.op < 3 → (∀ q, Request.ofFrame f = .ok q ↔ Spells op f.payload q) ∧
          ((¬ ∃ q, Spells op f.payload q) → Request.ofFrame f = .error (.payload op)))) ∧
    ∀ (bytes : ByteArray) (f : Frame), Frame.decode bytes = .ok f →
      Frame.LacksPayload (Text.chars bytes) →
        f.payload = .null ∧ ∀ op : Op, f.op = op.code → f.op < 3 →
          Request.decodeStaged bytes = .error (.payload op) := by
  have hframe : ∀ (f : Frame) (op : Op), f.op = op.code →
      Request.ofFrame f = Request.ofOp op f.payload :=
    fun f op hop => by
      unfold Request.ofFrame
      rw [hop, Op.ofCode?_code]
  refine ⟨fun f => ⟨fun hrange => ?_, fun op hop => ⟨fun hsent => ?_, fun hasked => ?_⟩⟩, ?_⟩
  · cases hcode : Op.ofCode? f.op with
    | some op =>
      have hop := Op.ofCode?_eq_some hcode
      have := op.code_lt
      omega
    | none => rw [Request.ofFrame, hcode]
  · rw [hframe f op hop, Request.ofOp_of_le (by omega)]
  · rw [hframe f op hop]
    refine ⟨fun q => Request.ofOp_eq_ok, Request.ofOp_eq_error ?_⟩
    omega
  · intro bytes f hdecode hlacks
    have hnull := Frame.payload_of_lacks hdecode hlacks
    refine ⟨hnull, fun op hop hasked => ?_⟩
    rw [Request.decodeStaged, hdecode]
    show Request.ofFrame f = _
    rw [hframe f op hop, hnull]
    refine Request.ofOp_eq_error (by omega) ?_
    rintro ⟨q, ⟨⟨⟩, _⟩ | ⟨⟨⟩, _⟩ | ⟨⟨⟩⟩⟩

theorem accepts_exactly_sample :
    let bytes := (String.ofList ['{', '"', 'o', 'p', '"', ':', '2', '}']).toUTF8
    Request.ofFrame ⟨8, .null⟩ = .error (.unknownOp 8) ∧
      Request.ofFrame ⟨5, .array []⟩ = .error (.unexpectedOp .purge) ∧
      Request.ofFrame ⟨1, .array [.array [.int 7]]⟩ = .ok (.leaveQueue [ServerId.ofNat 7]) ∧
      Request.decodeStaged bytes = .error (.payload .message) := by
  intro bytes
  have hchars : Text.chars bytes = ['{', '"', 'o', 'p', '"', ':', '2', '}'].map some := by
    rw [Text.chars_toUTF8, String.toList_ofList]
  have hdecode : Frame.decode bytes = .ok ⟨2, .null⟩ := by
    rw [Frame.decode, hchars]
    rfl
  have hlacks : Frame.LacksPayload (Text.chars bytes) := by
    rw [hchars]
    exact .inl ⟨["op"], rfl, by decide⟩
  refine ⟨(accepts_exactly.1 ⟨8, .null⟩).1 (by decide),
    ((accepts_exactly.1 ⟨5, .array []⟩).2 .purge rfl).1 (by decide), ?_,
    (accepts_exactly.2 bytes _ hdecode hlacks).2 .message rfl (by decide)⟩
  have hlist : IsServerList (.array [.int 7]) [ServerId.ofNat 7] := ⟨[7], rfl, by decide, rfl⟩
  have haccepted :=
    ((accepts_exactly.1 ⟨1, .array [.array [.int 7]]⟩).2 .leaveQueue rfl).2 (by decide)
  exact (haccepted.1 _).2 (.leaveQueue (.item _) hlist)

end Protocol

end Matchmaker
