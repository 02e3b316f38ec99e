import Matchmaker.Proofs.Json.Spelling

/-!
# Values that are written are read back

What is written for a value spells it (`spelled_write`), and so it is read back as it was, but that the
members of its objects come in ascending order (`readValue_write`).  Its integers have to fit into 64
bits and its brackets must not be nested too deep (`Fits`); doubles are left out here, since nothing
that is sent has any.

The items of a bracket are followed from the second one on, each behind its comma; the first one
differs only in having none.
-/

namespace Matchmaker.Json

/-! ## between brackets -/

theorem commaSep_cons (s : List Char) (ss : List (List Char)) :
    commaSep (s :: ss) = s ++ ss.flatMap (',' :: ·) := by
  induction ss generalizing s with
  | nil => exact (List.append_nil s).symm
  | cons t ss ih =>
    show s ++ ',' :: commaSep (t :: ss) = _
    rw [ih]
    rfl

/-- what is written for `x` spells it, whatever may stand behind a value -/
def Faithful {β : Type} (item : β → Input → Input → Prop) (written : β → List Char)
    (x : β) : Prop :=
  ∀ r, Ends r → item x (Input.ofText (written x) ++ r) r

section
variable {β : Type} {closing : Char} {item : β → Input → Input → Prop} {written : β → List Char}
  {xs : List β}

theorem ends_items (hclosing : closing = ']' ∨ closing = '}') (xs : List β)
    (written : β → List Char) (r : Input) :
    Ends (Input.ofText (xs.flatMap fun x => ',' :: written x) ++ some closing :: r) := by
  cases xs with
  | nil => exact ends_cons (.inr hclosing) r
  | cons x xs => exact ends_cons (.inl rfl) _

theorem listed_nil (hclosing : closing = ']' ∨ closing = '}') (first : Bool) (r : Input) :
    Listed closing item first [] (some closing :: r) r := by
  rcases hclosing with rfl | rfl <;> rfl

theorem listed_tail (hclosing : closing = ']' ∨ closing = '}')
    (h : ∀ x ∈ xs, Faithful item written x) (r : Input) :
    Listed closing item false xs
      (Input.ofText (xs.flatMap fun x => ',' :: written x) ++ some closing :: r) r := by
  induction xs with
  | nil => exact listed_nil hclosing false r
  | cons x xs ih =>
    obtain ⟨hx, hxs⟩ := List.forall_mem_cons.1 h
    rw [List.flatMap_cons, List.cons_append, Input.ofText_cons, Input.ofText_append,
      List.cons_append, List.append_assoc]
    exact ⟨_, _, rfl, hx _ (ends_items hclosing xs written r), ih hxs⟩

/-- Items that are written with commas between them are listed. -/
theorem listed_commaSep (hclosing : closing = ']' ∨ closing = '}')
    (h : ∀ x ∈ xs, Faithful item written x) (r : Input) :
    Listed closing item true xs
      (Input.ofText (commaSep (xs.map written)) ++ some closing :: r) r := by
  cases xs with
  | nil => exact listed_nil hclosing true r
  | cons x xs =>
    obtain ⟨hx, hxs⟩ := List.forall_mem_cons.1 h
    rw [List.map_cons, commaSep_cons, List.flatMap_map, Input.ofText_append, List.append_assoc]
    exact ⟨_, _, rfl, hx _ (ends_items hclosing xs written r), listed_tail hclosing hxs r⟩

/-- a member as it stands in an object -/
def writeMember (written : β → List Char) (m : String × β) : List Char :=
  writeText m.1 ++ ':' :: written m.2

theorem faithful_member {m : String × β} (h : Faithful item written m.2) :
    Faithful (Labelled item) (writeMember written) m := by
  intro r hr
  let value := Input.ofText (written m.2) ++ r
  obtain ⟨t, hname, hquoted⟩ := exists_quoted_writeText m.1 (some ':' :: value)
  rw [writeMember, Input.ofText_append, Input.ofText_cons, List.append_assoc, List.cons_append, hname]
  exact ⟨value, ⟨t, _, rfl, hquoted, rfl⟩, h r hr⟩

end

/-! ## values -/

namespace Value

theorem writeItems_eq (vs : List Value) : writeItems vs = vs.map write := by
  induction vs with
  | nil => rfl
  | cons v vs ih => rw [writeItems, ih, List.map_cons]

theorem writeMembers_eq (ms : List (String × Value)) :
    writeMembers ms = ms.map (writeMember write) := by
  induction ms with
  | nil => rfl
  | cons m ms ih => rw [writeMembers, ih, List.map_cons, writeMember]

end Value

open Value

section
variable {depth : Nat} {v : Value} {r : Input}

/-- a value without brackets -/
theorem plain_write (h : Fits depth v) (harray : ∀ vs, v ≠ array vs) (hobject : ∀ ms, v ≠ object ms)
    (hr : Ends r) : Plain v (Input.ofText v.write ++ r) r := by
  cases v with
  | null => rfl
  | bool b => cases b <;> rfl
  | text x => exact exists_quoted_writeText x r
  | num n =>
    cases n with
    | real x => cases depth <;> exact h.elim
    | int n =>
      have hrange : Word.minInt64 ≤ n ∧ n < UInt64.size := by cases depth <;> exact h
      exact exists_numeral_writeInt hrange.1 hrange.2 hr
  | array vs => exact absurd rfl (harray vs)
  | object ms => exact absurd rfl (hobject ms)

theorem Plain.token_eq {s : Input} (h : Plain v s r) : token s = s := by
  obtain ⟨c, t, rfl, -, hgap⟩ := h.head
  exact token_of_not_gap hgap

theorem spelled_plain (h : Fits depth v) (harray : ∀ vs, v ≠ array vs)
    (hobject : ∀ ms, v ≠ object ms) : Faithful (Spelled depth) write v := by
  intro r hr
  have hplain := plain_write h harray hobject hr
  rw [← hplain.token_eq] at hplain
  exact hplain.spelled depth

/-- **What is written for a value spells it.** -/
theorem spelled_write (h : Fits depth v) : Faithful (Spelled depth) write v := by
  induction depth generalizing v with
  | zero =>
    exact spelled_plain h (fun vs hv => by subst hv; exact h) fun ms hv => by subst hv; exact h
  | succ depth ih =>
    cases v with
    | array vs =>
      intro r _
      let items := Input.ofText (commaSep (vs.map write)) ++ some ']' :: r
      have hwrite : Input.ofText (write (.array vs)) ++ r = some '[' :: items := by
        simp [items, write, writeItems_eq]
      rw [hwrite]
      exact ⟨items, rfl, listed_commaSep (.inl rfl) (fun v hv => ih (h v hv)) r⟩
    | object ms =>
      intro r _
      let members := Input.ofText (commaSep (ms.map (writeMember write))) ++ some '}' :: r
      have hwrite : Input.ofText (write (.object ms)) ++ r = some '{' :: members := by
        simp [members, write, writeMembers_eq]
      rw [hwrite]
      exact ⟨members, rfl,
        listed_commaSep (.inr rfl) (fun m hm => faithful_member (ih (h m hm))) r⟩
    | null => exact spelled_plain h nofun nofun
    | bool b => exact spelled_plain h nofun nofun
    | num n => exact spelled_plain h nofun nofun
    | text x => exact spelled_plain h nofun nofun

/-- **A value that was written is read back**, up to the order of the members of its objects. -/
theorem readValue_write (h : Fits depth v) (hr : Ends r) :
    readValue depth (Input.ofText v.write ++ r) = .ok (v.settled, r) :=
  readValue_eq_ok.2 ⟨v, spelled_write h r hr, rfl⟩

end

end Matchmaker.Json
