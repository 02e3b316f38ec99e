import Matchmaker.Json.Record
import Matchmaker.Proofs.Json.Spelling

/-!
# Reading records

Reading the fields of an object goes from member to member; `readNamed_field` is the step past a
member that is a field.

The names of an object's members can be read on their own (`memberNames`), with all values passed
over.  A field that is not among them is not found (`lookup_readNamed`): reading the fields and
reading the names go side by side, since a value that is read ends where it would be passed over.
-/

namespace Matchmaker.Json

/-! ## fields that are found -/

theorem readRecord_object {s r : Input} (h : token s = some '{' :: r) (depth : Nat)
    (fields : List Field) :
    readRecord (depth + 1) fields s = (do
      let (found, r) ← readNamed depth fields (r.length + 1) true [] r
      let ms ← arrange found fields
      .ok (.object ms, r)) := by
  unfold readRecord
  rw [h]
  rfl

theorem readRecord_array {s r : Input} (h : token s = some '[' :: r) (depth : Nat)
    (fields : List Field) :
    readRecord (depth + 1) fields s =
      (readPositions depth fields true r).map fun (ms, r) => (.object ms, r) := by
  unfold readRecord
  rw [h]
  rfl

section
variable {depth n : Nat} {fields : List Field} {first : Bool} {found : List (String × Value)}
  {s r r' : Input} {name : String} {f : Field} {v : Value}

theorem shaped_eq_ok {α : Type} {of? : Value → Option α} {a : α} :
    shaped of? (v, r) = .ok (a, r') ↔ of? v = some a ∧ r = r' := by
  unfold shaped
  dsimp only
  cases of? v with
  | none => exact ⟨nofun, nofun⟩
  | some b =>
    constructor
    · intro h
      cases h
      exact ⟨rfl, rfl⟩
    · rintro ⟨h, rfl⟩
      cases h
      rfl

theorem Field.read_of_accepts
    (hread : (if f.nested then readValue depth s else readPlain s) = .ok (v, r))
    (haccepts : f.accepts v = true) : f.read depth s = .ok (v, r) := by
  have hshaped : shaped (fun v => if f.accepts v then some v else none) (v, r) = .ok (v, r) :=
    shaped_eq_ok.2 ⟨if_pos haccepts, rfl⟩
  unfold Field.read
  split at hread
  · rw [if_pos ‹_›, hread]
    exact hshaped
  · rw [if_neg ‹_›, hread]
    exact hshaped

theorem readNamed_field {t : Input} (hname : nextName first s = .ok (some name, t))
    (hcolon : colon t = .ok r) (hfield : (fields.find? fun f => f.name == name) = some f)
    (hnew : found.lookup name = none) (hread : f.read depth r = .ok (v, r')) :
    readNamed depth fields (n + 1) first found s =
      readNamed depth fields n false (found ++ [(name, v)]) r' := by
  rw [readNamed, hname]
  dsimp only [bind, Except.bind]
  rw [hfield]
  show (if (found.lookup name).isSome then _ else _) = _
  rw [hnew]
  show (colon t >>= fun r => f.read depth r >>= _) = _
  rw [hcolon]
  show (f.read depth r >>= _) = _
  rw [hread]
  rfl

theorem arrange_cons (found : List (String × Value)) (f : Field) (fs : List Field) :
    arrange found (f :: fs) = (do
      let v ← (found.lookup f.name).elim f.default .ok
      let ms ← arrange found fs
      .ok ((f.name, v) :: ms)) := by
  rw [arrange]
  cases found.lookup f.name <;> rfl

end

/-! ## members that are passed over -/

/-- the names of the members of an object up to its closing bracket, in the order of the text -/
def namesIn : Nat → Bool → Input → Except Fault (List String)
  | 0, _, _ => .error .malformed
  | n + 1, first, s => do
    match ← nextName first s with
    | (none, _) => .ok []
    | (some name, r) => do
      let r ← colon r
      let r ← skip r
      let names ← namesIn n false r
      .ok (name :: names)

/-- the names of the members of the object that a text holds -/
def memberNames (s : Input) : Except Fault (List String) :=
  match token s with
  | some '{' :: r => namesIn (r.length + 1) true r
  | _ => .error .mismatch

theorem skipNumber_of_readNumber {s r : Input} {n : Number} (h : readNumber s = .ok (n, r)) :
    skipNumber s = .ok r := by
  unfold readNumber at h
  unfold skipNumber
  split at h
  · obtain ⟨l, hliteral, -⟩ := number_of_literal_eq_ok.1 h
    rw [hliteral]
  · obtain ⟨l, hliteral, -⟩ := number_of_literal_eq_ok.1 h
    rw [hliteral]

theorem skipScalar_of_readScalar {s r : Input} {n : Number}
    (h : readScalar s = .ok (.num n, r)) : skipScalar s = .ok r := by
  have hplain : Plain (.num n) s r := readScalar_eq_ok.1 h
  obtain ⟨l, hnumeral, hl⟩ := hplain
  have hskip := skipNumber_of_readNumber (readNumber_eq_ok.2 ⟨l, hnumeral, hl⟩)
  obtain ⟨c, t, rfl, rfl | ⟨d, hd, rfl⟩⟩ := hnumeral.head
  · exact hskip
  · obtain ⟨-, hdigit, hne⟩ := digitChar_starts hd
    rw [skipScalar, if_pos (by rw [hdigit, Bool.or_true])]
    · exact hskip
    all_goals simpa using hne _ rfl

/-- A number that is read ends where it would be passed over. -/
theorem skip_of_readPlain {s r : Input} {n : Number} (h : readPlain s = .ok (.num n, r)) :
    skip s = .ok r := by
  unfold readPlain at h
  rw [skip, skipLoop]
  split at h
  · cases h
  · cases h
  · rename_i t harray hobject
    have hskipped := skipScalar_of_readScalar h
    split
    · rename_i hnil
      rw [hnil] at h
      cases h
    · rename_i harray'
      exact absurd harray' (harray _)
    · rename_i hobject'
      exact absurd hobject' (hobject _)
    · rw [hskipped]
      rfl

theorem readPlain_token (s : Input) : readPlain (token s) = readPlain s := by
  unfold readPlain
  rw [token_token]

theorem read_int_token (name : String) (lo hi : Int) (depth : Nat) (s : Input) :
    (Field.int name lo hi).read depth (token s) = (Field.int name lo hi).read depth s := by
  show readPlain (token s) >>= _ = readPlain s >>= _
  rw [readPlain_token]

/-- A field that holds a whole number is passed over like any value. -/
theorem skip_of_read_int {name : String} {lo hi : Int} {depth : Nat} {s r : Input} {v : Value}
    (h : (Field.int name lo hi).read depth s = .ok (v, r)) : skip s = .ok r := by
  have hbind : readPlain s >>= shaped (fun v => if (v.asInt? lo hi).isSome then some v else none) =
      .ok (v, r) := h
  obtain ⟨⟨w, t⟩, hread, hshaped⟩ := bind_eq_ok.1 hbind
  obtain ⟨haccepts, rfl⟩ := shaped_eq_ok.1 hshaped
  split at haccepts
  · rename_i hint
    cases haccepts
    cases v with
    | num n => exact skip_of_readPlain hread
    | _ => cases hint
  · cases haccepts

theorem item_eq_token {s r : Input} (h : nextItem ']' true s = .ok (.item r)) : r = token s := by
  obtain ⟨t, hstarts, rfl, -⟩ := (nextItem_eq_item (by decide)).1 h
  rw [show t = s from hstarts]

section
variable {depth n : Nat} {fields : List Field} {first : Bool} {found found' : List (String × Value)}
  {s r : Input} {names : List String} {k : String}

theorem lookup_readNamed
    (hskip : ∀ f ∈ fields, f.name ≠ k → ∀ s v r, f.read depth s = .ok (v, r) → skip s = .ok r)
    (hread : readNamed depth fields n first found s = .ok (found', r))
    (hnames : namesIn n first s = .ok names) (hk : k ∉ names) (hfound : found.lookup k = none) :
    found'.lookup k = none := by
  induction n generalizing first found s names with
  | zero => cases hread
  | succ n ih =>
    obtain ⟨⟨name?, t⟩, hname, hread⟩ := bind_eq_ok.1 hread
    obtain ⟨⟨name'?, t'⟩, hname', hnames⟩ := bind_eq_ok.1 hnames
    obtain ⟨rfl, rfl⟩ : name? = name'? ∧ t = t' := by
      rw [hname] at hname'
      exact Prod.mk.inj (Except.ok.inj hname')
    cases name? with
    | none =>
      cases hread
      exact hfound
    | some name =>
      obtain ⟨t₁, hcolon, hnames⟩ := bind_eq_ok.1 hnames
      obtain ⟨t₂, hskipped, hnames⟩ := bind_eq_ok.1 hnames
      obtain ⟨others, hothers, hcons⟩ := bind_eq_ok.1 hnames
      obtain rfl : name :: others = names := Except.ok.inj hcons
      obtain ⟨hne, hk⟩ := not_or.1 (mt List.mem_cons.2 hk)
      dsimp only at hread
      split at hread
      · obtain ⟨u₁, hcolon', hread⟩ := bind_eq_ok.1 hread
        obtain ⟨u₂, hskipped', hread⟩ := bind_eq_ok.1 hread
        obtain rfl : t₁ = u₁ := Except.ok.inj (hcolon.symm.trans hcolon')
        obtain rfl : t₂ = u₂ := Except.ok.inj (hskipped.symm.trans hskipped')
        exact ih hread hothers hk hfound
      · rename_i f hfind
        split at hread
        · cases hread
        · obtain ⟨u₁, hcolon', hread⟩ := bind_eq_ok.1 hread
          obtain ⟨⟨v, u₂⟩, hvalue, hread⟩ := bind_eq_ok.1 hread
          obtain rfl : t₁ = u₁ := Except.ok.inj (hcolon.symm.trans hcolon')
          have hbeq := List.find?_some hfind
          have hname : f.name = name := eq_of_beq hbeq
          have hskipped' := hskip f (List.mem_of_find?_eq_some hfind)
            (fun h => hne (h.symm.trans hname)) t₁ v u₂ hvalue
          obtain rfl : t₂ = u₂ := Except.ok.inj (hskipped.symm.trans hskipped')
          refine ih hread hothers hk ?_
          rw [List.lookup_append, hfound, List.lookup_cons, beq_false_of_ne hne]
          rfl

end

end Matchmaker.Json
