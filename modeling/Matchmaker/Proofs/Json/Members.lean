import Mathlib.Data.List.Induction
import Matchmaker.Json.Value

/-!
# Members of objects

An object that is read has its members put in order, one after the other.  What is looked up under a
name is then the member of that name that came last (`lookup_collect`), and members in order are known
by what is looked up among them (`eq_of_lookup`).
-/

namespace Matchmaker.Json

variable {α β : Type}

/-! ## looking up -/

theorem lookup_of_mem {ms : List (String × α)} (h : (ms.map Prod.fst).Nodup) {m : String × α}
    (hm : m ∈ ms) : ms.lookup m.1 = some m.2 := by
  induction ms with
  | nil => cases hm
  | cons k ms ih =>
    obtain ⟨hk, hms⟩ := List.nodup_cons.1 h
    rw [List.lookup_cons]
    rcases List.mem_cons.1 hm with rfl | hm
    · rw [beq_self_eq_true]
    · have hother : (m.1 == k.1) = false :=
        beq_false_of_ne fun hname => hk (List.mem_map.2 ⟨m, hm, hname⟩)
      rw [hother]
      exact ih hms hm

theorem mem_of_lookup {name : String} {ms : List (String × α)} {v : α}
    (h : ms.lookup name = some v) : (name, v) ∈ ms := by
  obtain ⟨before, after, rfl, -⟩ := List.lookup_eq_some_iff.1 h
  exact List.mem_append_right before List.mem_cons_self

theorem lookup_put (name : String) (v : α) (ms : List (String × α)) (n : String) :
    (put name v ms).lookup n = if n == name then some v else ms.lookup n := by
  induction ms with
  | nil =>
    rw [put, List.lookup_cons]
    cases n == name <;> rfl
  | cons m ms ih =>
    obtain ⟨k, w⟩ := m
    unfold put
    split
    · rw [List.lookup_cons]
      cases n == name <;> rfl
    · split
      · rename_i hsame
        obtain rfl : name = k := eq_of_beq hsame
        rw [List.lookup_cons, List.lookup_cons]
        cases n == name <;> rfl
      · rename_i hother
        rw [List.lookup_cons, List.lookup_cons, ih]
        cases hk : n == k with
        | false => rfl
        | true =>
          have hname : (n == name) = false := by
            rw [eq_of_beq hk, Bool.beq_comm]
            exact Bool.eq_false_iff.2 hother
          rw [hname]
          rfl

/-! ## members in order -/

/-- the names ascend, so that each comes once -/
def InOrder (ms : List (String × α)) : Prop := ms.Pairwise fun m n => m.1 < n.1

theorem name_lt_of_not {a b : String} (hlt : ¬ a < b) (hne : ¬ (a == b) = true) : b < a := by
  by_contra hnot
  have heq : a = b := String.le_antisymm (String.not_lt.1 hnot) (String.not_lt.1 hlt)
  exact hne (beq_iff_eq.2 heq)

theorem mem_put {name : String} {v : α} {ms : List (String × α)} {m : String × α}
    (h : m ∈ put name v ms) : m = (name, v) ∨ m ∈ ms := by
  induction ms with
  | nil => exact .inl (List.mem_singleton.1 h)
  | cons k ms ih =>
    obtain ⟨n, w⟩ := k
    unfold put at h
    split at h
    · exact List.mem_cons.1 h
    · split at h
      · exact (List.mem_cons.1 h).imp_right (List.mem_cons_of_mem _)
      · rcases List.mem_cons.1 h with rfl | h
        · exact .inr List.mem_cons_self
        · exact (ih h).imp_right (List.mem_cons_of_mem _)

theorem inOrder_put (name : String) (v : α) {ms : List (String × α)} (h : InOrder ms) :
    InOrder (put name v ms) := by
  induction ms with
  | nil => exact List.pairwise_singleton _ _
  | cons k ms ih =>
    obtain ⟨n, w⟩ := k
    obtain ⟨hfirst, hrest⟩ := List.pairwise_cons.1 h
    unfold put
    split
    · rename_i hlt
      refine List.pairwise_cons.2 ⟨fun m hm => ?_, h⟩
      rcases List.mem_cons.1 hm with rfl | hm
      · exact hlt
      · exact String.lt_trans hlt (hfirst m hm)
    · rename_i hlt
      split
      · rename_i hsame
        obtain rfl : name = n := eq_of_beq hsame
        exact List.pairwise_cons.2 ⟨hfirst, hrest⟩
      · rename_i hne
        refine List.pairwise_cons.2 ⟨fun m hm => ?_, ih hrest⟩
        rcases mem_put hm with rfl | hm
        · exact name_lt_of_not hlt hne
        · exact hfirst m hm

theorem collect_concat (ms : List (String × α)) (m : String × α) :
    collect (ms ++ [m]) = put m.1 m.2 (collect ms) := by
  rw [collect, List.foldl_append]
  rfl

theorem inOrder_collect (ms : List (String × α)) : InOrder (collect ms) := by
  induction ms using List.reverseRecOn with
  | nil => exact List.Pairwise.nil
  | append_singleton ms m ih =>
    rw [collect_concat]
    exact inOrder_put m.1 m.2 ih

theorem mem_collect {ms : List (String × α)} {m : String × α} (h : m ∈ collect ms) : m ∈ ms := by
  induction ms using List.reverseRecOn with
  | nil => exact h
  | append_singleton ms k ih =>
    rw [collect_concat] at h
    rcases mem_put h with rfl | h
    · exact List.mem_append_right ms List.mem_cons_self
    · exact List.mem_append_left _ (ih h)

/-- the value of the last member of that name -/
def last? (name : String) (ms : List (String × α)) : Option α := ms.reverse.lookup name

theorem last?_concat (name : String) (ms : List (String × α)) (m : String × α) :
    last? name (ms ++ [m]) = if name == m.1 then some m.2 else last? name ms := by
  rw [last?, List.reverse_append, List.reverse_singleton, List.singleton_append, List.lookup_cons]
  cases name == m.1 <;> rfl

theorem mem_of_last? {name : String} {ms : List (String × α)} {v : α}
    (h : last? name ms = some v) : (name, v) ∈ ms :=
  List.mem_reverse.1 (mem_of_lookup h)

/-- Where every name comes once, the last member of a name is the only one. -/
theorem last?_of_nodup {ms : List (String × α)} (h : (ms.map Prod.fst).Nodup) (name : String) :
    last? name ms = ms.lookup name := by
  have hreverse : (ms.reverse.map Prod.fst).Nodup := by
    rw [List.map_reverse]
    exact List.pairwise_reverse.2 (h.imp Ne.symm)
  apply Option.ext
  intro v
  constructor
  · exact fun hlast => lookup_of_mem h (mem_of_last? hlast)
  · exact fun hfound => lookup_of_mem hreverse (List.mem_reverse.2 (mem_of_lookup hfound))

/-- What is looked up among the members in order is the last one of its name. -/
theorem lookup_collect (name : String) (ms : List (String × α)) :
    (collect ms).lookup name = last? name ms := by
  induction ms using List.reverseRecOn with
  | nil => rfl
  | append_singleton ms m ih => rw [collect_concat, lookup_put, last?_concat, ih]

/-- A name in front of all others is not found among them. -/
theorem lookup_eq_none_of_lt {name : String} {ms : List (String × α)} (h : ∀ m ∈ ms, name < m.1) :
    ms.lookup name = none := by
  rw [List.lookup_eq_none_iff]
  intro m hm
  exact bne_iff_ne.2 fun heq => String.lt_irrefl _ (heq ▸ h m hm)

theorem lookup_head (m : String × α) (ms : List (String × α)) :
    (m :: ms).lookup m.1 = some m.2 := by
  rw [List.lookup_cons, beq_self_eq_true]

/-- The first of some members in order does not come behind the first of others in which it is
found. -/
theorem not_lt_head {m n : String × α} {ms ns : List (String × α)} (hns : InOrder (n :: ns))
    (h : (m :: ms).lookup m.1 = (n :: ns).lookup m.1) : ¬ m.1 < n.1 := by
  intro hlt
  have hall : ∀ k ∈ n :: ns, m.1 < k.1 := by
    intro k hk
    rcases List.mem_cons.1 hk with rfl | hk
    · exact hlt
    · exact String.lt_trans hlt ((List.pairwise_cons.1 hns).1 k hk)
  rw [lookup_head, lookup_eq_none_of_lt hall] at h
  cases h

/-- Members in order are known by what is looked up among them. -/
theorem eq_of_lookup {ms ns : List (String × α)} (hms : InOrder ms) (hns : InOrder ns)
    (h : ∀ name, ms.lookup name = ns.lookup name) : ms = ns := by
  induction ms generalizing ns with
  | nil =>
    cases ns with
    | nil => rfl
    | cons n ns =>
      have hn := h n.1
      rw [lookup_head] at hn
      cases hn
  | cons m ms ih =>
    cases ns with
    | nil =>
      have hm := h m.1
      rw [lookup_head] at hm
      cases hm
    | cons n ns =>
      obtain ⟨hm, hms'⟩ := List.pairwise_cons.1 hms
      obtain ⟨hn, hns'⟩ := List.pairwise_cons.1 hns
      have hname : m.1 = n.1 := String.le_antisymm
        (String.not_lt.1 (not_lt_head hms (h n.1).symm)) (String.not_lt.1 (not_lt_head hns (h m.1)))
      have hvalue : some m.2 = some n.2 := by
        rw [← lookup_head m ms, h m.1, hname, lookup_head]
      have hrest : ∀ name, ms.lookup name = ns.lookup name := by
        intro name
        have hname' := h name
        rw [List.lookup_cons, List.lookup_cons, ← hname] at hname'
        cases heq : name == m.1 with
        | true =>
          obtain rfl : name = m.1 := eq_of_beq heq
          rw [lookup_eq_none_of_lt hm, hname, lookup_eq_none_of_lt hn]
        | false =>
          rw [heq] at hname'
          exact hname'
      rw [ih hms' hns' hrest, Prod.ext hname (Option.some.inj hvalue)]

theorem nodup_of_inOrder {ms : List (String × α)} (h : InOrder ms) : (ms.map Prod.fst).Nodup :=
  List.pairwise_map.2 (h.imp fun hlt => String.ne_of_lt hlt)

theorem collect_of_inOrder {ms : List (String × α)} (h : InOrder ms) : collect ms = ms :=
  eq_of_lookup (inOrder_collect ms) h fun name =>
    (lookup_collect name ms).trans (last?_of_nodup (nodup_of_inOrder h) name)

/-! ## members with other values -/

/-- a member as it is kept -/
def keep (found : α → β) (m : String × α) : String × β := (m.1, found m.2)

section
variable (found : α → β) (name : String) (ms : List (String × α))

theorem lookup_keep : (ms.map (keep found)).lookup name = (ms.lookup name).map found := by
  induction ms with
  | nil => rfl
  | cons m ms ih =>
    rw [List.map_cons, List.lookup_cons, List.lookup_cons, ih]
    rw [show (keep found m).1 = m.1 from rfl]
    cases name == m.1 <;> rfl

theorem last?_keep : last? name (ms.map (keep found)) = (last? name ms).map found := by
  rw [last?, ← List.map_reverse, lookup_keep, last?]

theorem inOrder_keep {ms : List (String × α)} (h : InOrder ms) : InOrder (ms.map (keep found)) :=
  List.pairwise_map.2 h

theorem collect_keep : collect (ms.map (keep found)) = (collect ms).map (keep found) := by
  apply eq_of_lookup (inOrder_collect _)
  · exact inOrder_keep found (inOrder_collect ms)
  · intro name
    rw [lookup_collect, last?_keep, lookup_keep, lookup_collect]

end

end Matchmaker.Json
