import Mathlib.Data.List.Count
import Matchmaker.Coordinator.Endpoint
import Matchmaker.Session

/-!
# What effects come to on one connection

Effects on different connections have nothing to do with each other, so what a list of effects does
to the endpoint of a connection is a fold of its own (`get?_applyAll`).  Where all effects are
responses it is the fold over those of that connection.
-/

namespace Matchmaker

open Protocol (Response)

variable {χ : Type} [Endpoint χ]

/-- what an effect does to the endpoint of a connection -/
def Effect.upon (now connection : Nat) (x : χ) : Effect → χ
  | .start c => if c = connection then Endpoint.start x now else x
  | .deliver c r => if c = connection then Endpoint.take x r else x
  | .close c => if c = connection then Endpoint.close x else x
  | .release => Endpoint.release x

namespace Endpoints

theorem get?_on (e : Endpoints χ) (n : Nat) (f : χ → χ)
    (h : ∀ x, Endpoint.connection (f x) = Endpoint.connection x) (k : Nat) :
    (e.on n f h).get? k = (e.get? k).map fun x => if n = k then f x else x := by
  unfold on
  rw [Ascending.get?_map]
  refine Option.map_congr fun x hx => ?_
  rw [(Ascending.get?_eq_some_iff.1 hx).2]
  simp only [eq_comm]

theorem get?_apply (e : Endpoints χ) (now : Nat) (a : Effect) (k : Nat) :
    (e.apply now a).get? k = (e.get? k).map fun x => a.upon now k x := by
  cases a with
  | start c => exact e.get?_on c _ (fun x => Endpoint.connection_start x now) k
  | deliver c r => exact e.get?_on c _ (fun x => Endpoint.connection_take x r) k
  | close c => exact e.get?_on c _ Endpoint.connection_close k
  | release => exact e.get?_map Endpoint.release Endpoint.connection_release k

theorem get?_applyAll (e : Endpoints χ) (now : Nat) (as : List Effect) (k : Nat) :
    (e.applyAll now as).get? k = (e.get? k).map fun x => as.foldl (Effect.upon now k) x := by
  induction as generalizing e with
  | nil => exact Option.map_id'.symm
  | cons a as ih =>
    show (applyAll (e.apply now a) now as).get? k = _
    rw [ih, get?_apply, Option.map_map]
    rfl

end Endpoints

/-! ## responses -/

theorem Effect.foldl_upon_of_deliver {as : List Effect} (h : ∀ a ∈ as, ∃ c r, a = .deliver c r)
    (now k : Nat) (x : χ) :
    as.foldl (Effect.upon now k) x = (Effect.responses k as).foldl Endpoint.take x := by
  induction as generalizing x with
  | nil => rfl
  | cons a as ih =>
    obtain ⟨c, r, rfl⟩ := h a List.mem_cons_self
    have hrest := fun x => ih (fun b hb => h b (List.mem_cons_of_mem _ hb)) x
    rw [List.foldl_cons, hrest]
    by_cases hc : c = k
    · simp [Effect.upon, Effect.responses, Effect.response?, hc]
    · simp [Effect.upon, Effect.responses, Effect.response?, hc]

/-- One response for several sessions comes to a connection as often as it is theirs. -/
theorem Effect.responses_map (es : List Session) (r : Response) (n : Nat) :
    Effect.responses n (es.map fun e => .deliver e.connection r) =
      List.replicate ((es.map Session.connection).count n) r := by
  induction es with
  | nil => rfl
  | cons e es ih =>
    by_cases he : e.connection = n
    · rw [List.map_cons, List.map_cons, he, List.count_cons_self, List.replicate_succ, ← ih]
      simp [Effect.responses, Effect.response?]
    · rw [List.map_cons, List.map_cons, List.count_cons_of_ne he, ← ih]
      simp [Effect.responses, Effect.response?, he]

end Matchmaker
