import Matchmaker.Proofs.Json.Records
import Matchmaker.Proofs.Text.Encoding
import Matchmaker.Protocol.Response

/-!
# Two ways to read a frame

A request or a response is read either in two stages, where the frame is read to the end of the text
before anyone looks at its operation, or in one go, where the end of the text is looked for last.
Both accept the same texts (`Agrees.accepted`), since nothing is accepted unless the frame is read,
what is in it is fit, and nothing follows.

Only how a refusal is told depends on the way.  In two stages a frame that is well formed keeps the
reason why its contents are refused; in one go that is a wrong shape.  And where a frame with such
contents is followed by something, two stages stumble over what follows and one go over the contents.
-/

namespace Matchmaker

open Json

/-- the frame was read, and what is in it is refused -/
inductive ProtocolError.IsContents : ProtocolError → Prop where
  | unknownOp (code : Int) : IsContents (.unknownOp code)
  | unexpectedOp (op : Protocol.Op) : IsContents (.unexpectedOp op)
  | payload (op : Protocol.Op) : IsContents (.payload op)

namespace Protocol

namespace Frame

section
variable {α : Type} (of : Frame → Except ProtocolError α) (bytes : ByteArray)

/-- reads a frame and then what is in it -/
def staged : Except ProtocolError α :=
  match decode bytes with
  | .ok f => of f
  | .error fault => .error (.decode fault)

/-- reads what is in a frame in one go -/
def direct : Except Fault α :=
  whole (fun s => read s >>= fun (f, r) =>
    match of f with
    | .ok a => .ok (a, r)
    | .error _ => .error .mismatch) (Text.chars bytes)

/-- something follows a frame whose contents are refused -/
def Trails : Prop :=
  ∃ f r e, read (Text.chars bytes) = .ok (f, r) ∧ finish r ≠ .ok () ∧ of f = .error e

/-- how the two ways to read the same bytes go together -/
structure Agrees (staged : Except ProtocolError α) (direct : Except Fault α) : Prop where
  accepted : ∀ a, staged = .ok a ↔ direct = .ok a
  contents : ∀ e, e.IsContents → staged = .error e → direct = .error .mismatch
  /-- both are at a loss, and for the same reason unless a refusal comes before what follows -/
  unread : ∀ fault, staged = .error (.decode fault) →
    direct = .error fault ∨ (Trails of bytes ∧ fault = .malformed ∧ direct = .error .mismatch)
  told : ∀ e, staged = .error e → e.IsContents ∨ ∃ fault, e = .decode fault

variable {of : Frame → Except ProtocolError α} {bytes : ByteArray} {f : Frame} {r : Input}

theorem finish_cases (r : Input) : finish r = .ok () ∨ finish r = .error .malformed := by
  unfold finish
  split
  · exact .inl rfl
  · exact .inr rfl

/-! ## how far the frame is read -/

theorem decode_of_error (of : Frame → Except ProtocolError α) {fault : Fault}
    (h : read (Text.chars bytes) = .error fault) :
    staged of bytes = .error (.decode fault) ∧ direct of bytes = .error fault := by
  constructor
  · rw [staged, decode, whole, h]
    rfl
  · rw [direct, whole, h]
    rfl

theorem staged_of_read (h : read (Text.chars bytes) = .ok (f, r)) :
    staged of bytes = match finish r with
      | .ok () => of f
      | .error fault => .error (.decode fault) := by
  rw [staged, decode, whole, h]
  dsimp only [bind, Except.bind]
  cases finish r <;> rfl

theorem direct_of_read (h : read (Text.chars bytes) = .ok (f, r)) :
    direct of bytes = match of f with
      | .ok a => (finish r).map fun _ => a
      | .error _ => .error .mismatch := by
  rw [direct, whole, h]
  dsimp only [bind, Except.bind]
  cases of f with
  | error e => rfl
  | ok a =>
    dsimp only
    cases finish r <;> rfl

/-- Where a frame is the whole text, both ways take it for what is in it. -/
theorem accepted_of_read {a : α} (hread : read (Text.chars bytes) = .ok (f, []))
    (h : of f = .ok a) : staged of bytes = .ok a ∧ direct of bytes = .ok a := by
  rw [staged_of_read hread, direct_of_read hread, h]
  exact ⟨rfl, rfl⟩

theorem agrees_of_error {fault : Fault} (h : read (Text.chars bytes) = .error fault) :
    Agrees of bytes (staged of bytes) (direct of bytes) := by
  obtain ⟨hstaged, hdirect⟩ := decode_of_error of h
  rw [hstaged, hdirect]
  refine ⟨fun a => ⟨nofun, nofun⟩, ?_, ?_, ?_⟩
  · intro e he h
    cases h
    cases he
  · intro g h
    cases h
    exact .inl rfl
  · intro e h
    cases h
    exact .inr ⟨fault, rfl⟩

/-- Where the text ends behind the frame, the contents decide in both ways. -/
theorem agrees_of_ends (hof : ∀ f e, of f = .error e → e.IsContents)
    (hread : read (Text.chars bytes) = .ok (f, r)) (hfinish : finish r = .ok ()) :
    Agrees of bytes (staged of bytes) (direct of bytes) := by
  rw [staged_of_read hread, direct_of_read hread, hfinish]
  cases hcontents : of f with
  | ok a =>
    refine ⟨fun b => ?_, nofun, nofun, nofun⟩
    show Except.ok a = Except.ok b ↔ Except.ok a = Except.ok b
    simp
  | error e =>
    refine ⟨fun a => ⟨nofun, nofun⟩, fun _ _ _ => rfl, ?_, ?_⟩
    · intro fault h
      cases h
      cases hof f _ hcontents
    · intro e' h
      cases h
      exact .inl (hof f e hcontents)

/-- Where something follows, two stages find it before they look at the contents. -/
theorem agrees_of_follows (hread : read (Text.chars bytes) = .ok (f, r))
    (hfinish : finish r = .error .malformed) :
    Agrees of bytes (staged of bytes) (direct of bytes) := by
  rw [staged_of_read hread, direct_of_read hread, hfinish]
  refine ⟨?_, ?_, ?_, ?_⟩
  · intro a
    cases of f <;> exact ⟨nofun, nofun⟩
  · intro e he h
    cases h
    cases he
  · intro fault h
    cases h
    cases hcontents : of f with
    | ok a => exact .inl rfl
    | error e =>
      have hfollows : finish r ≠ .ok () := by
        rw [hfinish]
        exact nofun
      exact .inr ⟨⟨f, r, e, hread, hfollows, hcontents⟩, rfl, rfl⟩
  · intro e h
    cases h
    exact .inr ⟨_, rfl⟩

/-- Reading in two stages and in one go agree, whatever the contents are taken for. -/
theorem agrees (hof : ∀ f e, of f = .error e → e.IsContents) (bytes : ByteArray) :
    Agrees of bytes (staged of bytes) (direct of bytes) := by
  cases hread : read (Text.chars bytes) with
  | error fault => exact agrees_of_error hread
  | ok x =>
    obtain ⟨f, r⟩ := x
    rcases finish_cases r with hfinish | hfinish
    · exact agrees_of_ends hof hread hfinish
    · exact agrees_of_follows hread hfinish

end

end Frame

/-! ## requests and responses -/

theorem isContents_of_orPayload {α : Type} {op : Op} {x : Option α} {e : ProtocolError}
    (h : Request.orPayload op x = .error e) : e.IsContents := by
  cases x with
  | some a => cases h
  | none =>
    cases h
    exact .payload op

namespace Request

theorem decodeStaged_eq (bytes : ByteArray) : decodeStaged bytes = Frame.staged ofFrame bytes := by
  unfold decodeStaged Frame.staged
  cases Frame.decode bytes <;> rfl

theorem decode_eq (bytes : ByteArray) : decode bytes = Frame.direct ofFrame bytes := by
  unfold decode Frame.direct
  congr
  funext s
  congr
  funext x
  obtain ⟨f, r⟩ := x
  dsimp only
  cases ofFrame f <;> rfl

theorem isContents_of_ofFrame (f : Frame) (e : ProtocolError) (h : ofFrame f = .error e) :
    e.IsContents := by
  unfold ofFrame at h
  split at h
  · rename_i op hop
    cases op with
    | joinQueue => exact isContents_of_orPayload h
    | leaveQueue => exact isContents_of_orPayload h
    | message => exact isContents_of_orPayload h
    | _ =>
      cases h
      exact .unexpectedOp _
  · cases h
    exact .unknownOp _

end Request

namespace Response

theorem decodeStaged_eq (bytes : ByteArray) : decodeStaged bytes = Frame.staged ofFrame bytes := by
  unfold decodeStaged Frame.staged
  cases Frame.decode bytes <;> rfl

theorem decode_eq (bytes : ByteArray) : decode bytes = Frame.direct ofFrame bytes := by
  unfold decode Frame.direct
  congr
  funext s
  congr
  funext x
  obtain ⟨f, r⟩ := x
  dsimp only
  cases ofFrame f <;> rfl

theorem isContents_of_ofFrame (f : Frame) (e : ProtocolError) (h : ofFrame f = .error e) :
    e.IsContents := by
  unfold ofFrame at h
  split at h
  · rename_i op hop
    cases op with
    | joinQueue =>
      cases h
      exact .unexpectedOp _
    | leaveQueue =>
      cases h
      exact .unexpectedOp _
    | _ => exact isContents_of_orPayload h
  · cases h
    exact .unknownOp _

end Response

/-- **Whether a frame is read in two stages or in one go, it is taken for the same.**  What is refused
in two stages for its operation or its payload has the wrong shape in one go, and what cannot be read
in two stages cannot be read in one go either. -/
theorem staged_agrees_with_direct :
    (∀ bytes : ByteArray,
      Frame.Agrees Request.ofFrame bytes (Request.decodeStaged bytes) (Request.decode bytes)) ∧
    ∀ bytes : ByteArray,
      Frame.Agrees Response.ofFrame bytes (Response.decodeStaged bytes) (Response.decode bytes) := by
  constructor
  · intro bytes
    rw [Request.decodeStaged_eq, Request.decode_eq]
    exact Frame.agrees Request.isContents_of_ofFrame bytes
  · intro bytes
    rw [Response.decodeStaged_eq, Response.decode_eq]
    exact Frame.agrees Response.isContents_of_ofFrame bytes

/-- A request to send something, a response to say goodbye, and an operation that is only sent to
clients, once as it is and once with something more behind it. -/
theorem staged_agrees_with_direct_sample :
    let message := ['{', '"', 'o', 'p', '"', ':', '2', ',', '"', 'p', 'a', 'y', 'l', 'o', 'a', 'd', '"',
      ':', '{', '"', 'b', 'o', 'd', 'y', '_', 'm', 'd', '"', ':', '"', 'a', '"', '}', '}']
    let goodbye := ['{', '"', 'o', 'p', '"', ':', '6', ',', '"', 'p', 'a', 'y', 'l', 'o', 'a', 'd', '"',
      ':', '{', '"', 'm', 'e', 's', 's', 'a', 'g', 'e', '"', ':', '"', 'b', '"', '}', '}']
    let foreign := ['{', '"', 'o', 'p', '"', ':', '6', '}']
    let bytes (cs : List Char) := (String.ofList cs).toUTF8
    (Request.decodeStaged (bytes message) = .ok (.message "a") ∧
        Request.decode (bytes message) = .ok (.message "a")) ∧
      (Response.decodeStaged (bytes goodbye) = .ok (.bye "b") ∧
        Response.decode (bytes goodbye) = .ok (.bye "b")) ∧
      (Request.decodeStaged (bytes foreign) = .error (.unexpectedOp .bye) ∧
        Request.decode (bytes foreign) = .error .mismatch) ∧
      Request.decodeStaged (bytes (foreign ++ ['!'])) = .error (.decode .malformed) ∧
        Request.decode (bytes (foreign ++ ['!'])) ≠ .error .truncated := by
  intro message goodbye foreign bytes
  have hmessage : Request.decodeStaged (bytes message) = .ok (.message "a") := by
    rw [Request.decodeStaged, Frame.decode, Text.chars_toUTF8, String.toList_ofList]
    rfl
  have hgoodbye : Response.decodeStaged (bytes goodbye) = .ok (.bye "b") := by
    rw [Response.decodeStaged, Frame.decode, Text.chars_toUTF8, String.toList_ofList]
    rfl
  have hforeign : Request.decodeStaged (bytes foreign) = .error (.unexpectedOp .bye) := by
    rw [Request.decodeStaged, Frame.decode, Text.chars_toUTF8, String.toList_ofList]
    rfl
  have htrailed : Request.decodeStaged (bytes (foreign ++ ['!'])) = .error (.decode .malformed) := by
    rw [Request.decodeStaged, Frame.decode, Text.chars_toUTF8, String.toList_ofList]
    rfl
  obtain ⟨hrequests, hresponses⟩ := staged_agrees_with_direct
  refine ⟨⟨hmessage, ((hrequests _).accepted _).1 hmessage⟩,
    ⟨hgoodbye, ((hresponses _).accepted _).1 hgoodbye⟩,
    ⟨hforeign, (hrequests _).contents _ (.unexpectedOp .bye) hforeign⟩, htrailed, ?_⟩
  intro hcut
  rcases (hrequests _).unread _ htrailed with h | ⟨-, -, h⟩
  · rw [hcut] at h
    cases h
  · rw [hcut] at h
    cases h

end Protocol

end Matchmaker
