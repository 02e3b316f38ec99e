/-!
# Collections in ascending key order

An `Ascending α key` holds values told apart by a number, each number at most once, and lists them
in ascending order of it.  Lobbies, queued players, profiles and sessions are all kept this way:
what is sent to players is ordered by identity, and a scan that stops at the first match always
stops at the smallest one.

The order is part of the type, so two collections with the same members are equal
(`Ascending.ext_mem`).  `place` is insertion into a sorted list; every other operation is a
`filter`, a `find?` or a `map` that keeps the keys.
-/

namespace Matchmaker

/-! ## sorted insertion -/

/-- puts `a` where its key belongs, in place of a value with the same key -/
def place {α : Type} (key : α → Nat) (a : α) : List α → List α
  | [] => [a]
  | b :: l =>
    if key a < key b then a :: b :: l
    else if key b < key a then b :: place key a l
    else a :: l

section
variable {α : Type} {key : α → Nat}

@[simp] theorem place_nil (a : α) : place key a [] = [a] := rfl

theorem mem_of_mem_place {x a : α} {l : List α} (h : x ∈ place key a l) : x = a ∨ x ∈ l := by
  induction l with
  | nil => simpa using h
  | cons b l ih =>
    unfold place at h
    split at h
    · simpa using h
    · split at h
      · rcases List.mem_cons.1 h with rfl | h
        · simp
        · rcases ih h with rfl | h <;> simp [*]
      · rcases List.mem_cons.1 h with rfl | h <;> simp [*]

theorem place_sorted (a : α) {l : List α} (h : l.Pairwise fun x y => key x < key y) :
    (place key a l).Pairwise fun x y => key x < key y := by
  induction l with
  | nil => simp
  | cons b l ih =>
    have hb := List.pairwise_cons.1 h
    unfold place
    split
    · refine List.pairwise_cons.2 ⟨fun x hx => ?_, h⟩
      rcases List.mem_cons.1 hx with rfl | hx
      · assumption
      · have := hb.1 x hx; omega
    · split
      · refine List.pairwise_cons.2 ⟨fun x hx => ?_, ih hb.2⟩
        rcases mem_of_mem_place hx with rfl | hx
        · assumption
        · exact hb.1 x hx
      · refine List.pairwise_cons.2 ⟨fun x hx => ?_, hb.2⟩
        have := hb.1 x hx; omega

theorem mem_place {x a : α} {l : List α} (h : l.Pairwise fun x y => key x < key y) :
    x ∈ place key a l ↔ x = a ∨ (x ∈ l ∧ key x ≠ key a) := by
  induction l with
  | nil => simp
  | cons b l ih =>
    have hb := List.pairwise_cons.1 h
    have hlt : ∀ y ∈ l, key b < key y := hb.1
    unfold place
    split
    · constructor
      · intro hx
        rcases List.mem_cons.1 hx with rfl | hx
        · exact .inl rfl
        · refine .inr ⟨hx, ?_⟩
          rcases List.mem_cons.1 hx with rfl | hx
          · omega
          · have := hlt x hx; omega
      · rintro (rfl | ⟨hx, -⟩) <;> simp [*]
    · split
      · rw [List.mem_cons, ih hb.2, List.mem_cons]
        constructor
        · rintro (rfl | rfl | ⟨hx, hk⟩)
          · exact .inr ⟨.inl rfl, by omega⟩
          · exact .inl rfl
          · exact .inr ⟨.inr hx, hk⟩
        · rintro (rfl | ⟨rfl | hx, hk⟩)
          · exact .inr (.inl rfl)
          · exact .inl rfl
          · exact .inr (.inr ⟨hx, hk⟩)
      · rw [List.mem_cons, List.mem_cons]
        constructor
        · rintro (rfl | hx)
          · exact .inl rfl
          · refine .inr ⟨.inr hx, ?_⟩
            have := hlt x hx; omega
        · rintro (rfl | ⟨rfl | hx, hk⟩)
          · exact .inl rfl
          · omega
          · exact .inr hx

end

/-! ## the collection -/

/-- values told apart by a numeric key, in strictly ascending order of it -/
structure Ascending (α : Type) (key : α → Nat) where
  toList : List α
  sorted : toList.Pairwise fun a b => key a < key b

namespace Ascending
variable {α : Type} {key : α → Nat}

instance : Membership α (Ascending α key) := ⟨fun c a => a ∈ c.toList⟩

theorem mem_def {a : α} {c : Ascending α key} : a ∈ c ↔ a ∈ c.toList := Iff.rfl

theorem ext {c d : Ascending α key} (h : c.toList = d.toList) : c = d := by
  cases c; cases d; cases h; rfl

instance [DecidableEq α] : DecidableEq (Ascending α key) := fun c d =>
  if h : c.toList = d.toList then isTrue (ext h) else isFalse fun e => h (e ▸ rfl)

instance [Repr α] : Repr (Ascending α key) := ⟨fun c n => reprPrec c.toList n⟩

def empty : Ascending α key := ⟨[], List.Pairwise.nil⟩

instance : EmptyCollection (Ascending α key) := ⟨empty⟩
instance : Inhabited (Ascending α key) := ⟨empty⟩

def size (c : Ascending α key) : Nat := c.toList.length

def isEmpty (c : Ascending α key) : Bool := c.toList.isEmpty

/-- the value with key `k` -/
def get? (c : Ascending α key) (k : Nat) : Option α := c.toList.find? fun a => key a == k

def hasKey (c : Ascending α key) (k : Nat) : Bool := c.toList.any fun a => key a == k

/-- adds a value, in place of the one with its key -/
def insert (c : Ascending α key) (a : α) : Ascending α key :=
  ⟨place key a c.toList, place_sorted a c.sorted⟩

def filter (c : Ascending α key) (p : α → Bool) : Ascending α key :=
  ⟨c.toList.filter p, c.sorted.filter p⟩

/-- drops the value with key `k` -/
def erase (c : Ascending α key) (k : Nat) : Ascending α key := c.filter fun a => key a != k

/-- changes values without touching their keys -/
def map (c : Ascending α key) (f : α → α) (h : ∀ a, key (f a) = key a) : Ascending α key :=
  ⟨c.toList.map f, List.pairwise_map.2 (c.sorted.imp fun hlt => by simpa [h] using hlt)⟩

/-- another view of each value, under the same numbers -/
def image {β : Type} {view : β → Nat} (c : Ascending α key) (f : α → β)
    (h : ∀ a, view (f a) = key a) : Ascending β view :=
  ⟨c.toList.map f, List.pairwise_map.2 (c.sorted.imp fun hlt => by simpa [h] using hlt)⟩

/-- inserts values one after the other: of values with equal keys the last one stays -/
def ofList (l : List α) : Ascending α key := l.foldl insert empty

/-! ## laws -/

theorem key_injOn (c : Ascending α key) {a b : α} (ha : a ∈ c) (hb : b ∈ c) (h : key a = key b) :
    a = b := by
  obtain ⟨l, hl⟩ := c
  change a ∈ l at ha
  change b ∈ l at hb
  induction l with
  | nil => simp at ha
  | cons x l ih =>
    have hx := List.pairwise_cons.1 hl
    rcases List.mem_cons.1 ha with ea | ha <;> rcases List.mem_cons.1 hb with eb | hb
    · rw [ea, eb]
    · have := hx.1 b hb
      rw [ea] at h
      omega
    · have := hx.1 a ha
      rw [eb] at h
      omega
    · exact ih hx.2 ha hb

@[simp] theorem not_mem_empty (a : α) : ¬ a ∈ (empty : Ascending α key) := by simp [mem_def, empty]

@[simp] theorem mem_insert {c : Ascending α key} {a x : α} :
    x ∈ c.insert a ↔ x = a ∨ (x ∈ c ∧ key x ≠ key a) := mem_place c.sorted

@[simp] theorem mem_filter {c : Ascending α key} {p : α → Bool} {x : α} :
    x ∈ c.filter p ↔ x ∈ c ∧ p x = true := by simp [mem_def, filter]

@[simp] theorem mem_erase {c : Ascending α key} {k : Nat} {x : α} :
    x ∈ c.erase k ↔ x ∈ c ∧ key x ≠ k := by simp [erase]

@[simp] theorem mem_map {c : Ascending α key} {f : α → α} {h : ∀ a, key (f a) = key a} {x : α} :
    x ∈ c.map f h ↔ ∃ a ∈ c, f a = x := by simp [mem_def, map]

@[simp] theorem toList_map (c : Ascending α key) (f : α → α) (h : ∀ a, key (f a) = key a) :
    (c.map f h).toList = c.toList.map f := rfl

theorem get?_eq_some_iff {c : Ascending α key} {k : Nat} {a : α} :
    c.get? k = some a ↔ a ∈ c ∧ key a = k := by
  constructor
  · intro h
    exact ⟨List.mem_of_find?_eq_some h, by simpa using List.find?_some h⟩
  · rintro ⟨ha, rfl⟩
    cases h : c.get? (key a) with
    | none =>
      have := List.find?_eq_none.1 h a ha
      simp at this
    | some b =>
      have hb : b ∈ c := List.mem_of_find?_eq_some h
      have hk : key b = key a := by simpa using List.find?_some h
      rw [c.key_injOn hb ha hk]

theorem get?_eq_none_iff {c : Ascending α key} {k : Nat} :
    c.get? k = none ↔ ∀ a ∈ c, key a ≠ k := by
  simp [get?, List.find?_eq_none, mem_def]

theorem hasKey_iff {c : Ascending α key} {k : Nat} :
    c.hasKey k = true ↔ ∃ a ∈ c, key a = k := by simp [hasKey, mem_def]

theorem mem_iff_get? {c : Ascending α key} {a : α} : a ∈ c ↔ c.get? (key a) = some a := by
  rw [get?_eq_some_iff]
  exact ⟨fun h => ⟨h, rfl⟩, fun h => h.1⟩

theorem hasKey_eq_isSome (c : Ascending α key) (k : Nat) : c.hasKey k = (c.get? k).isSome := by
  rw [Bool.eq_iff_iff, hasKey_iff, Option.isSome_iff_exists]
  simp only [get?_eq_some_iff]

/-! ## looking up after a change -/

theorem get?_insert (c : Ascending α key) (a : α) (k : Nat) :
    (c.insert a).get? k = if key a = k then some a else c.get? k := by
  by_cases h : key a = k
  · rw [if_pos h]
    exact get?_eq_some_iff.2 ⟨mem_insert.2 (.inl rfl), h⟩
  · rw [if_neg h]
    cases hc : c.get? k with
    | none =>
      refine get?_eq_none_iff.2 fun b hb => ?_
      rcases mem_insert.1 hb with rfl | ⟨hb, -⟩
      · exact h
      · exact get?_eq_none_iff.1 hc b hb
    | some b =>
      obtain ⟨hb, hk⟩ := get?_eq_some_iff.1 hc
      refine get?_eq_some_iff.2 ⟨mem_insert.2 (.inr ⟨hb, ?_⟩), hk⟩
      rw [hk]
      exact Ne.symm h

theorem get?_erase (c : Ascending α key) (j k : Nat) :
    (c.erase j).get? k = if k = j then none else c.get? k := by
  by_cases h : k = j
  · rw [if_pos h, h]
    exact get?_eq_none_iff.2 fun b hb => (mem_erase.1 hb).2
  · rw [if_neg h]
    cases hc : c.get? k with
    | none => exact get?_eq_none_iff.2 fun b hb => get?_eq_none_iff.1 hc b (mem_erase.1 hb).1
    | some b =>
      obtain ⟨hb, hk⟩ := get?_eq_some_iff.1 hc
      exact get?_eq_some_iff.2 ⟨mem_erase.2 ⟨hb, hk ▸ h⟩, hk⟩

theorem get?_image {β : Type} {view : β → Nat} (c : Ascending α key) (f : α → β)
    (h : ∀ a, view (f a) = key a) (k : Nat) : (c.image f h).get? k = (c.get? k).map f := by
  show (c.toList.map f).find? _ = (c.toList.find? _).map f
  rw [List.find?_map]
  congr 2
  funext a
  show (view (f a) == k) = (key a == k)
  rw [h]

theorem get?_map (c : Ascending α key) (f : α → α) (h : ∀ a, key (f a) = key a) (k : Nat) :
    (c.map f h).get? k = (c.get? k).map f := get?_image c f h k

/-- a collection is determined by its members -/
theorem ext_mem {c d : Ascending α key} (h : ∀ a, a ∈ c ↔ a ∈ d) : c = d := by
  apply ext
  obtain ⟨l, hl⟩ := c
  obtain ⟨m, hm⟩ := d
  change ∀ a, a ∈ l ↔ a ∈ m at h
  change l = m
  induction l generalizing m with
  | nil =>
    cases m with
    | nil => rfl
    | cons b m => exact absurd ((h b).2 (by simp)) (by simp)
  | cons a l ih =>
    cases m with
    | nil => exact absurd ((h a).1 (by simp)) (by simp)
    | cons b m =>
      have ha := List.pairwise_cons.1 hl
      have hb := List.pairwise_cons.1 hm
      have hab : a = b := by
        rcases List.mem_cons.1 ((h a).1 (by simp)) with e | e
        · exact e
        · rcases List.mem_cons.1 ((h b).2 (by simp)) with e' | e'
          · exact e'.symm
          · have h1 := hb.1 a e
            have h2 := ha.1 b e'
            omega
      subst hab
      congr 1
      refine ih ha.2 m hb.2 fun x => ⟨fun hx => ?_, fun hx => ?_⟩
      · rcases List.mem_cons.1 ((h x).1 (List.mem_cons_of_mem _ hx)) with rfl | hx'
        · exact absurd (ha.1 x hx) (by omega)
        · exact hx'
      · rcases List.mem_cons.1 ((h x).2 (List.mem_cons_of_mem _ hx)) with rfl | hx'
        · exact absurd (hb.1 x hx) (by omega)
        · exact hx'

end Ascending

end Matchmaker
