import Matchmaker.Proofs.Json.Members

/-!
# What does not matter in a value

The members of an object may come in any order, and of several with one name the last one counts.  Two
trees that differ in nothing else are the same value (`Same`).

The form in which a value is kept does not tell such trees apart and tells all others apart
(`settled_eq_iff`): put in order, the members of an object are known by what is looked up among them.
A value that is kept is left as it is when it is kept again.
-/

namespace Matchmaker.Json

namespace Value

/-- What holds of a tree if it holds of the items and members in it holds of every tree. -/
theorem induction {P : Value → Prop} (null : P null) (bool : ∀ b, P (bool b)) (num : ∀ n, P (num n))
    (text : ∀ x, P (text x)) (array : ∀ vs, (∀ v ∈ vs, P v) → P (array vs))
    (object : ∀ ms, (∀ m ∈ ms, P m.2) → P (object ms)) (v : Value) : P v :=
  @Value.rec P (fun vs => ∀ v ∈ vs, P v) (fun ms => ∀ m ∈ ms, P m.2) (fun m => P m.2) null bool num
    text array object nofun (fun _ _ hv hvs => List.forall_mem_cons.2 ⟨hv, hvs⟩) nofun
    (fun _ _ hm hms => List.forall_mem_cons.2 ⟨hm, hms⟩) (fun _ _ hv => hv) v

mutual
/-- the value as it is kept when it was read: the members of every object in ascending order -/
def settled : Value → Value
  | array vs => array (settledItems vs)
  | object ms => object (collect (settledMembers ms))
  | v => v

def settledItems : List Value → List Value
  | [] => []
  | v :: vs => settled v :: settledItems vs

def settledMembers : List (String × Value) → List (String × Value)
  | [] => []
  | (n, v) :: ms => (n, settled v) :: settledMembers ms
end

theorem settledItems_eq (vs : List Value) : settledItems vs = vs.map settled := by
  induction vs with
  | nil => rfl
  | cons v vs ih => rw [settledItems, ih, List.map_cons]

theorem settledMembers_eq (ms : List (String × Value)) :
    settledMembers ms = ms.map fun m => (m.1, settled m.2) := by
  induction ms with
  | nil => rfl
  | cons m ms ih => rw [settledMembers, ih, List.map_cons]

theorem settled_array (vs : List Value) : (array vs).settled = array (vs.map settled) := by
  rw [settled, settledItems_eq]

theorem settled_object (ms : List (String × Value)) :
    (object ms).settled = object ((collect ms).map (keep settled)) := by
  rw [settled, settledMembers_eq, ← collect_keep]
  rfl

/-- A value that is kept is left as it is when it is kept again. -/
theorem settled_settled (v : Value) : v.settled.settled = v.settled := by
  induction v using Value.induction with
  | array vs ih =>
    rw [settled_array, settled_array, List.map_map]
    congr 1
    exact List.map_congr_left ih
  | object ms ih =>
    have horder : InOrder ((collect ms).map (keep settled)) :=
      inOrder_keep settled (inOrder_collect ms)
    rw [settled_object, settled_object, collect_of_inOrder horder, List.map_map]
    congr 1
    refine List.map_congr_left fun m hm => ?_
    exact Prod.ext rfl (ih m (mem_collect hm))
  | _ => rfl

/-- the two trees are one JSON value: their objects have the same names, and the last values under
each of them are the same -/
inductive Same : Value → Value → Prop where
  | null : Same null null
  | bool (b : Bool) : Same (bool b) (bool b)
  | num (n : Number) : Same (num n) (num n)
  | text (x : String) : Same (text x) (text x)
  | array {vs ws : List Value} (hlength : vs.length = ws.length)
      (hitems : ∀ i (hv : i < vs.length) (hw : i < ws.length), Same vs[i] ws[i]) :
      Same (array vs) (array ws)
  | object {ms ns : List (String × Value)}
      (hnames : ∀ name, (last? name ms).isSome = (last? name ns).isSome)
      (hvalues : ∀ name v w, last? name ms = some v → last? name ns = some w → Same v w) :
      Same (object ms) (object ns)

theorem settled_eq_of_same {v w : Value} (h : Same v w) : v.settled = w.settled := by
  induction h with
  | array hlength hitems ih =>
    rw [settled_array, settled_array]
    congr 1
    apply List.ext_getElem
    · simpa using hlength
    · intro i hv hw
      rw [List.getElem_map, List.getElem_map]
      exact ih i (by simpa using hv) (by simpa using hw)
  | @object ms ns hnames hvalues ih =>
    rw [settled_object, settled_object]
    congr 1
    refine eq_of_lookup (inOrder_keep settled (inOrder_collect ms))
      (inOrder_keep settled (inOrder_collect ns)) fun name => ?_
    rw [lookup_keep, lookup_keep, lookup_collect, lookup_collect]
    have hsome := hnames name
    cases hm : last? name ms with
    | none =>
      rw [hm, Option.isSome_none] at hsome
      have hnone : last? name ns = none :=
        Option.isNone_iff_eq_none.1 (Option.isSome_eq_false_iff.1 hsome.symm)
      rw [hnone]
    | some v =>
      rw [hm, Option.isSome_some] at hsome
      obtain ⟨w, hw⟩ := Option.isSome_iff_exists.1 hsome.symm
      rw [hw]
      exact congrArg some (ih name v w hm hw)
  | _ => rfl

theorem same_of_settled_eq {v w : Value} (h : v.settled = w.settled) : Same v w := by
  induction v using Value.induction generalizing w with
  | array vs ih =>
    cases w with
    | array ws =>
      rw [settled_array, settled_array] at h
      have hmap := Value.array.inj h
      have hlength : vs.length = ws.length := by
        rw [← List.length_map settled, hmap, List.length_map]
      refine .array hlength fun i hv hw => ih _ (List.getElem_mem hv) ?_
      have hi := congrArg (fun l => l[i]?) hmap
      simpa [hv, hw] using hi
    | _ => cases h
  | object ms ih =>
    cases w with
    | object ns =>
      rw [settled_object, settled_object] at h
      have hlookup : ∀ name, (last? name ms).map settled = (last? name ns).map settled := by
        intro name
        rw [← lookup_collect, ← lookup_collect, ← lookup_keep, ← lookup_keep,
          Value.object.inj h]
      refine .object ?_ ?_
      · intro name
        rw [← Option.isSome_map (f := settled), hlookup, Option.isSome_map]
      · intro name v w hv hw
        have hname := hlookup name
        rw [hv, hw] at hname
        exact ih (name, v) (mem_of_last? hv) (Option.some.inj hname)
    | _ => cases h
  | null => cases w <;> first | exact .null | cases h
  | bool b => cases w <;> cases h; exact .bool b
  | num n => cases w <;> cases h; exact .num n
  | text x => cases w <;> cases h; exact .text x

/-- **A value is kept without regard to order and repetition**, and to nothing else. -/
theorem settled_eq_iff {v w : Value} : v.settled = w.settled ↔ Same v w :=
  ⟨same_of_settled_eq, settled_eq_of_same⟩

/-! ## values that can be sent -/

/-- Integers have at most 64 bits, brackets are nested at most that deep, and there are no
doubles. -/
def Fits : Nat → Value → Prop
  | _, null => True
  | _, bool _ => True
  | _, text _ => True
  | _, num (.int n) => Word.minInt64 ≤ n ∧ n < UInt64.size
  | _, num (.real _) => False
  | 0, array _ => False
  | 0, object _ => False
  | depth + 1, array vs => ∀ v ∈ vs, Fits depth v
  | depth + 1, object ms => ∀ m ∈ ms, Fits depth m.2

/-- all numbers in the tree are integers, signed or unsigned ones of 64 bits -/
inductive Integral : Value → Prop where
  | null : Integral null
  | bool (b : Bool) : Integral (bool b)
  | text (x : String) : Integral (text x)
  | int {n : Int} (hlo : Word.minInt64 ≤ n) (hhi : n < UInt64.size) : Integral (num (.int n))
  | array {vs : List Value} (h : ∀ v ∈ vs, Integral v) : Integral (array vs)
  | object {ms : List (String × Value)} (h : ∀ m ∈ ms, Integral m.2) : Integral (object ms)

end Value

section
variable {depth : Nat}

open Value

@[simp] theorem fits_text (s : String) : (text s).Fits depth := by
  cases depth <;> exact trivial

@[simp] theorem fits_bool (b : Bool) : (bool b).Fits depth := by
  cases depth <;> exact trivial

theorem fits_int {n : Int} (h : Word.minInt64 ≤ n ∧ n ≤ Word.maxInt64) : (int n).Fits depth := by
  have hn : Word.minInt64 ≤ n ∧ n < UInt64.size := ⟨h.1, Int.lt_of_le_of_lt h.2 (by decide)⟩
  cases depth <;> exact hn

end

/-! ## records and lists -/

variable {α : Type}

/-- A record whose members were written in the order of their names gives its fields when it was
read back. -/
theorem asFields?_settled {ms : List (String × Value)} {names : List String}
    (hnames : ms.map Prod.fst = names) (h : names.Nodup) :
    (Value.object ms).settled.asFields? names = some (ms.map fun m => some m.2.settled) := by
  subst hnames
  rw [Value.settled_object]
  show some ((ms.map Prod.fst).map fun n => (((collect ms).map (keep Value.settled)).lookup n)) = _
  rw [List.map_map]
  refine congrArg some (List.map_congr_left fun m hm => ?_)
  show ((collect ms).map (keep Value.settled)).lookup m.1 = _
  rw [lookup_keep, lookup_collect, last?_of_nodup h, lookup_of_mem h hm]
  rfl

/-- A list is read back if each of its items is. -/
theorem asListOf?_settled {written : α → Value} {read : Value → Option α} {l : List α}
    (h : ∀ a ∈ l, read (written a).settled = some a) :
    (Value.array (l.map written)).settled.asListOf? read = some l := by
  rw [Value.settled_array]
  show ((l.map written).map Value.settled).mapM read = some l
  induction l with
  | nil => rfl
  | cons a l ih =>
    obtain ⟨ha, hl⟩ := List.forall_mem_cons.1 h
    rw [List.map_cons, List.map_cons, List.mapM_cons, ha, ih hl]
    rfl

end Matchmaker.Json
