import Matchmaker.Coordinator.Endpoint

/-!
# What a client accepts

Whether a client takes a response does not depend on the response, only on the client (`Accepts`).
One that does not is left as it is, and what a client has accepted waits behind what came before.
-/

namespace Matchmaker.Client

open Protocol (Response)

section
variable {κ : Type} {x : Client κ}

/-- is neither closed nor stopped, and has room in its queue -/
def Accepts (x : Client κ) : Prop :=
  x.outbound.closed = false ∧ x.outbound.isStopped = false ∧
    x.outbound.queue.length < x.outbound.capacity

instance (x : Client κ) : Decidable x.Accepts := inferInstanceAs (Decidable (_ ∧ _ ∧ _))

/-- lets the response wait behind the others -/
def enqueue (x : Client κ) (r : Response) : Client κ :=
  { x with outbound := { x.outbound with queue := x.outbound.queue ++ [r] } }

theorem send_of_accepts (h : x.Accepts) (r : Response) : x.send r = .ok (x.enqueue r) := by
  obtain ⟨hclosed, hstopped, hroom⟩ := h
  have hopen : (x.outbound.closed || x.outbound.isStopped) = false := by
    rw [hclosed, hstopped, Bool.or_self]
  unfold send Outbound.send
  rw [hopen, if_neg Bool.false_ne_true, if_pos hroom]
  rfl

theorem send_of_not_accepts (h : ¬ x.Accepts) (r : Response) : ∃ e, x.send r = .error e := by
  unfold send Outbound.send
  split
  · exact ⟨.closed, rfl⟩
  · rename_i hopen
    rw [Bool.or_eq_true, not_or, Bool.not_eq_true, Bool.not_eq_true] at hopen
    split
    · rename_i hroom
      exact absurd ⟨hopen.1, hopen.2, hroom⟩ h
    · exact ⟨.queueFull x.outbound.owner, rfl⟩

end

section
variable {κ : Type} [Quantity κ] {x : Client κ} {r : Response}

theorem take_of_accepts (h : x.Accepts) (r : Response) : Endpoint.take x r = x.enqueue r := by
  simp only [Endpoint.take, send_of_accepts h]
  rfl

theorem take_of_not_accepts (h : ¬ x.Accepts) (r : Response) : Endpoint.take x r = x := by
  obtain ⟨e, he⟩ := send_of_not_accepts h r
  simp only [Endpoint.take, he]

theorem mem_queue_take (h : r ∈ x.outbound.queue) (s : Response) :
    r ∈ (Endpoint.take x s).outbound.queue := by
  by_cases hx : x.Accepts
  · rw [take_of_accepts hx]
    exact List.mem_append_left _ h
  · rwa [take_of_not_accepts hx]

/-! ## what becomes of a response -/

/-- what a response comes to that is sent to a client before others: it waits in the queue, or the
client refuses it and is left as it is -/
inductive Received (r : Response) (x y : Client κ) : Prop where
  | accepted (haccepts : x.Accepts) (z : Client κ) (hsend : x.send r = .ok z)
      (hwaits : r ∈ y.outbound.queue)
  | refused (hrefuses : ¬ x.Accepts) (e : ClientError) (hsend : x.send r = .error e)
      (hsame : y = x)

theorem received_foldl (r : Response) (x : Client κ) (rs : List Response) :
    Received r x ((r :: rs).foldl Endpoint.take x) := by
  rw [List.foldl_cons]
  by_cases h : x.Accepts
  · refine .accepted h (x.enqueue r) (send_of_accepts h r) ?_
    rw [take_of_accepts h]
    have hmem : r ∈ (x.enqueue r).outbound.queue := List.mem_append_right _ List.mem_cons_self
    generalize x.enqueue r = y at hmem
    induction rs generalizing y with
    | nil => exact hmem
    | cons s rs ih => exact ih _ (mem_queue_take hmem s)
  · obtain ⟨e, he⟩ := send_of_not_accepts h r
    refine .refused h e he ?_
    rw [take_of_not_accepts h]
    induction rs with
    | nil => rfl
    | cons s rs ih => rw [List.foldl_cons, take_of_not_accepts h, ih]

end

end Matchmaker.Client
