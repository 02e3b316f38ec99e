import Matchmaker.Proofs.Protocol.Envelope
import Matchmaker.Proofs.Protocol.Payloads
import Matchmaker.Proofs.Protocol.Staging

/-!
# What is sent is received

Reading a frame that was written finds the operation code and the payload as they were, the payload
with its members in ascending order, and from such a payload every request and every response is
restored.  Both ways to read a frame therefore give back what was written.
-/

namespace Matchmaker.Protocol

open Json Json.Value

theorem Op.code_range (op : Op) :
    Word.minInt64 ≤ (op.code : Int) ∧ (op.code : Int) ≤ Word.maxInt64 := by
  cases op <;> decide

/-! ## requests -/

namespace Request

theorem fits_payload (q : Request) : q.payload.Fits 126 := by
  cases q with
  | joinQueue servers => exact (restores_servers _ servers).fits
  | leaveQueue servers => exact (restores_servers _ servers).fits
  | message body => exact (restores_body _ body).fits

theorem ofFrame_settled (q : Request) : ofFrame ⟨q.op.code, q.payload.settled⟩ = .ok q := by
  unfold ofFrame
  rw [Op.ofCode?_code]
  cases q with
  | joinQueue servers =>
    show orPayload .joinQueue ((serversOf? _).map joinQueue) = _
    rw [(restores_servers 0 servers).read]
    rfl
  | leaveQueue servers =>
    show orPayload .leaveQueue ((serversOf? (joinQueue servers).payload.settled).map leaveQueue) = _
    rw [(restores_servers 0 servers).read]
    rfl
  | message body =>
    show orPayload .message ((bodyOf? (message body).payload.settled).map message) = _
    rw [(restores_body 0 body).read]
    rfl

theorem decode_of_frame {bytes : ByteArray} {f : Frame} {q : Request}
    (hread : Frame.read (Text.chars bytes) = .ok (f, [])) (h : ofFrame f = .ok q) :
    decodeStaged bytes = .ok q ∧ decode bytes = .ok q := by
  rw [decodeStaged_eq, decode_eq]
  exact Frame.accepted_of_read hread h

end Request

/-! ## responses -/

namespace Response

theorem fits_payload {r : Response} (h : r.Regular) : r.payload.Fits 126 := by
  cases r with
  | stateUpdate u => exact (u.restores _).fits
  | startGame server users => exact (restores_startGame _ server users).fits
  | message e => exact (ChatEntry.Regular.restores _ h).fits
  | purge ids => exact (restores_purge _ h).fits
  | bye text => exact (restores_bye _ text).fits
  | chatStatusChange status reason => exact (restores_chatStatusChange _ status reason).fits

theorem ofFrame_settled {r : Response} (h : r.Regular) :
    ofFrame ⟨r.op.code, r.payload.settled⟩ = .ok r := by
  unfold ofFrame
  rw [Op.ofCode?_code]
  cases r with
  | stateUpdate u =>
    show Request.orPayload .stateUpdate
      ((StateUpdate.ofValue? u.toValue.settled).map stateUpdate) = _
    rw [(u.restores 0).read]
    rfl
  | startGame server users =>
    show Request.orPayload .startGame (startGameOf? _) = _
    rw [(restores_startGame 0 server users).read]
    rfl
  | message e =>
    show Request.orPayload .message ((ChatEntry.ofValue? e.toValue.settled).map message) = _
    rw [(ChatEntry.Regular.restores 0 h).read]
    rfl
  | purge ids =>
    show Request.orPayload .purge (purgeOf? _) = _
    rw [(restores_purge 0 h).read]
    rfl
  | bye text =>
    show Request.orPayload .bye (byeOf? (bye text).payload.settled) = _
    rw [(restores_bye 0 text).read]
    rfl
  | chatStatusChange status reason =>
    show Request.orPayload .chatStatusChange (chatStatusChangeOf? _) = _
    rw [(restores_chatStatusChange 0 status reason).read]
    rfl

theorem decode_of_frame {bytes : ByteArray} {f : Frame} {r : Response}
    (hread : Frame.read (Text.chars bytes) = .ok (f, [])) (h : ofFrame f = .ok r) :
    decodeStaged bytes = .ok r ∧ decode bytes = .ok r := by
  rw [decodeStaged_eq, decode_eq]
  exact Frame.accepted_of_read hread h

end Response

/-! ## what is sent is received -/

/-- **Every frame that is sent is received as it was sent**, whether the frame is read before what is
in it or both in one go.  A response has to be one whose numbers fit their fields and whose message,
if it has one, was not written in a leap second nor outside of the years 0 to 9999. -/
theorem received_as_sent :
    (∀ q : Request,
      Request.decodeStaged q.text.toUTF8 = .ok q ∧ Request.decode q.text.toUTF8 = .ok q) ∧
    ∀ r : Response, r.Regular →
      Response.decodeStaged r.text.toUTF8 = .ok r ∧ Response.decode r.text.toUTF8 = .ok r := by
  constructor
  · intro q
    exact Request.decode_of_frame (Frame.read_chars (f := q.toFrame) q.op.code_range q.fits_payload)
      q.ofFrame_settled
  · intro r h
    exact Response.decode_of_frame
      (Frame.read_chars (f := r.toFrame) r.op.code_range (Response.fits_payload h))
      (Response.ofFrame_settled h)

theorem received_as_sent_sample :
    let e : ChatEntry := {
      messageId := Word.maxInt64
      author := ⟨18446744073709551615⟩
      createdOn := ⟨-719468, 86399, 999999999, by decide, by decide⟩
      personaname := "a \"name\" \\ \n"
      avatarhash := ""
      permissionLevel := Word.minInt32
      body := "é 😀"
      deleted := true }
    (Response.message e).Regular ∧
      Response.decodeStaged (Response.message e).text.toUTF8 = .ok (.message e) := by
  intro e
  have h : (Response.message e).Regular := ⟨⟨by decide, by decide⟩, by decide, by decide, by decide⟩
  exact ⟨h, (received_as_sent.2 (.message e) h).1⟩

end Matchmaker.Protocol
