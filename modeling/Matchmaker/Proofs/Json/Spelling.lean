import Matchmaker.Json.Reader
import Matchmaker.Proofs.Json.Numerals
import Matchmaker.Proofs.Json.Settling
import Matchmaker.Proofs.Json.Strings

/-!
# How values are spelled

A text spells a tree (`Spelled`) whose objects have their members as they come, in any order and with
any repetitions.  Between two tokens there may be gaps, and strings and numbers are spelled in any way
there is.

Reading finds exactly the values whose trees are spelled, each as it is kept (`readValue_eq_ok`).  The
proof goes bracket by bracket: reading the items of one is known as soon as reading an item is
(`Reads`).
-/

namespace Matchmaker.Json

/-! ## values without brackets -/

/-- a value without brackets stands here, from its first symbol on -/
def Plain : Value → Input → Input → Prop
  | .null, s, r => s = Input.ofText ['n', 'u', 'l', 'l'] ++ r
  | .bool true, s, r => s = Input.ofText ['t', 'r', 'u', 'e'] ++ r
  | .bool false, s, r => s = Input.ofText ['f', 'a', 'l', 's', 'e'] ++ r
  | .num n, s, r => ∃ l, Numeral l s r ∧ l.number? = some n
  | .text x, s, r => ∃ t, s = some '"' :: t ∧ Quoted x.toList t r
  | .array _, _, _ => False
  | .object _, _, _ => False

section
variable {s r : Input} {v : Value}

theorem readScalar_number {c : Char} (hnull : c ≠ 'n') (htrue : c ≠ 't') (hfalse : c ≠ 'f')
    (htext : c ≠ '"') (hc : (c == '-' || Decimal.isDigit c) = true) (s : Input) :
    readScalar (some c :: s) = (readNumber (some c :: s)).map fun (n, r) => (Value.num n, r) := by
  rw [readScalar]
  · exact if_pos hc
  all_goals simpa

theorem plain_of_readScalar (h : readScalar s = .ok (v, r)) : Plain v s r := by
  unfold readScalar at h
  split at h
  · cases h
  · obtain ⟨t, hword, hv⟩ := map_eq_ok.1 h
    cases hv
    rw [word_eq_ok.1 hword]
    rfl
  · obtain ⟨t, hword, hv⟩ := map_eq_ok.1 h
    cases hv
    rw [word_eq_ok.1 hword]
    rfl
  · obtain ⟨t, hword, hv⟩ := map_eq_ok.1 h
    cases hv
    rw [word_eq_ok.1 hword]
    rfl
  · obtain ⟨⟨x, t⟩, hread, hv⟩ := map_eq_ok.1 h
    cases hv
    exact ⟨_, rfl, readText_eq_ok.1 hread⟩
  · split at h
    · obtain ⟨⟨n, t⟩, hread, hv⟩ := map_eq_ok.1 h
      cases hv
      exact readNumber_eq_ok.1 hread
    · cases h
  · cases h

theorem readScalar_of_plain (h : Plain v s r) : readScalar s = .ok (v, r) := by
  cases v with
  | null =>
    obtain rfl := h
    exact map_eq_ok.2 ⟨r, word_append ['u', 'l', 'l'] r, rfl⟩
  | bool b =>
    cases b with
    | true =>
      obtain rfl := h
      exact map_eq_ok.2 ⟨r, word_append ['r', 'u', 'e'] r, rfl⟩
    | false =>
      obtain rfl := h
      exact map_eq_ok.2 ⟨r, word_append ['a', 'l', 's', 'e'] r, rfl⟩
  | text x =>
    obtain ⟨t, rfl, hquoted⟩ := h
    exact map_eq_ok.2 ⟨(x, r), readText_eq_ok.2 hquoted, rfl⟩
  | num n =>
    obtain ⟨l, hnumeral, hl⟩ := h
    have hread : readNumber s = .ok (n, r) := readNumber_eq_ok.2 ⟨l, hnumeral, hl⟩
    obtain ⟨c, t, rfl, hc⟩ := hnumeral.head
    rcases hc with rfl | ⟨d, hd, rfl⟩
    · exact map_eq_ok.2 ⟨(n, r), hread, rfl⟩
    · obtain ⟨-, hdigit, hne⟩ := digitChar_starts hd
      rw [readScalar_number (hne _ rfl) (hne _ rfl) (hne _ rfl) (hne _ rfl)
        (by rw [hdigit, Bool.or_true])]
      exact map_eq_ok.2 ⟨(n, r), hread, rfl⟩
  | array vs => exact h.elim
  | object ms => exact h.elim

theorem readScalar_eq_ok : readScalar s = .ok (v, r) ↔ Plain v s r :=
  ⟨plain_of_readScalar, readScalar_of_plain⟩

/-- what a value without brackets starts with -/
theorem Plain.head (h : Plain v s r) :
    ∃ c t, s = some c :: t ∧ c ∉ [']', '}', '[', '{'] ∧ isGap (some c) = false := by
  cases v with
  | null => exact ⟨'n', _, h, by decide, rfl⟩
  | bool b =>
    cases b with
    | true => exact ⟨'t', _, h, by decide, rfl⟩
    | false => exact ⟨'f', _, h, by decide, rfl⟩
  | text x =>
    obtain ⟨t, rfl, -⟩ := h
    exact ⟨'"', t, rfl, by decide, rfl⟩
  | num n =>
    obtain ⟨l, hnumeral, -⟩ := h
    obtain ⟨c, t, rfl, rfl | ⟨d, hd, rfl⟩⟩ := hnumeral.head
    · exact ⟨'-', t, rfl, by decide, rfl⟩
    · obtain ⟨hgap, -, hne⟩ := digitChar_starts hd
      refine ⟨_, t, rfl, ?_, hgap⟩
      simp only [List.mem_cons, List.not_mem_nil, or_false, not_or]
      exact ⟨hne _ rfl, hne _ rfl, hne _ rfl, hne _ rfl⟩
  | array vs => exact h.elim
  | object ms => exact h.elim

theorem Plain.length_lt (h : Plain v s r) : r.length < s.length := by
  have hword : ∀ (c : Char) (w : List Char), r.length < (Input.ofText (c :: w) ++ r).length := by
    intro c w
    rw [List.length_append, Input.ofText_cons, List.length_cons]
    omega
  cases v with
  | null =>
    obtain rfl := h
    exact hword _ _
  | bool b =>
    cases b with
    | true =>
      obtain rfl := h
      exact hword _ _
    | false =>
      obtain rfl := h
      exact hword _ _
  | text x =>
    obtain ⟨t, rfl, hquoted⟩ := h
    exact Nat.lt_succ_of_lt hquoted.length_lt
  | num n =>
    obtain ⟨l, hnumeral, -⟩ := h
    exact hnumeral.length_lt
  | array vs => exact h.elim
  | object ms => exact h.elim

theorem Plain.settled_eq (h : Plain v s r) : v.settled = v := by
  cases v with
  | array vs => exact h.elim
  | object ms => exact h.elim
  | _ => rfl

theorem readPlain_eq_ok : readPlain s = .ok (v, r) ↔ Plain v (token s) r := by
  rw [← readScalar_eq_ok]
  unfold readPlain
  constructor
  · intro h
    split at h
    · cases h
    · cases h
    · exact h
  · intro h
    obtain ⟨c, t, hhead, hc, -⟩ := (readScalar_eq_ok.1 h).head
    split
    · rename_i heq
      rw [hhead] at heq
      cases heq
      exact absurd hc (by decide)
    · rename_i heq
      rw [hhead] at heq
      cases heq
      exact absurd hc (by decide)
    · exact h

end

/-! ## between brackets -/

/-- the items stand here, up to the closing bracket -/
def Listed {β : Type} (closing : Char) (item : β → Input → Input → Prop) :
    Bool → List β → Input → Input → Prop
  | _, [], s, r => token s = some closing :: r
  | first, b :: bs, s, r =>
    ∃ t u, Starts first s t ∧ item b t u ∧ Listed closing item false bs u r

/-- the name of a member and its colon -/
def Named (name : String) (s r : Input) : Prop :=
  ∃ t u, token s = some '"' :: t ∧ Quoted name.toList t u ∧ token u = some ':' :: r

/-- a member stands here: its name, a colon and its value -/
def Labelled {β : Type} (value : β → Input → Input → Prop) (m : String × β) (s r : Input) : Prop :=
  ∃ t, Named m.1 s t ∧ value m.2 t r

section
variable {first : Bool} {s r : Input}

theorem nextName_eq_none : nextName first s = .ok (none, r) ↔ token s = some '}' :: r := by
  rw [← @nextItem_eq_close '}' first s r]
  unfold nextName
  rw [bind_eq_ok]
  constructor
  · rintro ⟨next, hnext, h⟩
    split at h
    · cases h
      exact hnext
    · obtain ⟨a, -, ha⟩ := map_eq_ok.1 h
      cases ha
    · cases h
  · intro h
    exact ⟨_, h, rfl⟩

theorem nextName_eq_some {name : String} :
    nextName first s = .ok (some name, r) ↔
      ∃ t u, Starts first s t ∧ token t = some '"' :: u ∧ Quoted name.toList u r := by
  unfold nextName
  rw [bind_eq_ok]
  constructor
  · rintro ⟨next, hnext, h⟩
    split at h
    · cases h
    · rename_i u
      obtain ⟨⟨x, u'⟩, hread, hname⟩ := map_eq_ok.1 h
      cases hname
      obtain ⟨t, hstarts, htoken, -⟩ := (nextItem_eq_item (by decide)).1 hnext
      exact ⟨t, u, hstarts, htoken.symm, readText_eq_ok.1 hread⟩
    · cases h
  · rintro ⟨t, u, hstarts, htoken, hquoted⟩
    have hnext : nextItem '}' first s = .ok (.item (some '"' :: u)) :=
      (nextItem_eq_item (by decide)).2 ⟨t, hstarts, htoken.symm, _, u, htoken, by decide⟩
    exact ⟨_, hnext, map_eq_ok.2 ⟨(name, r), readText_eq_ok.2 hquoted, rfl⟩⟩

end

section
variable {α β : Type} {read : Input → Except Fault (α × Input)}
  {item : β → Input → Input → Prop} {found : β → α} {first : Bool} {s r : Input}

theorem Listed.length_lt {closing : Char} (hitem : ∀ {b s r}, item b s r → r.length < s.length)
    {bs : List β} (h : Listed closing item first bs s r) : r.length < s.length := by
  induction bs generalizing first s with
  | nil => exact length_lt_of_token h
  | cons b bs ih =>
    obtain ⟨t, u, hstarts, hb, hrest⟩ := h
    have := hstarts.length_le
    have := hitem hb
    have := ih hrest
    omega

/-- reading one item finds what is spelled, as it is kept -/
structure Reads (read : Input → Except Fault (α × Input)) (item : β → Input → Input → Prop)
    (found : β → α) : Prop where
  eq_ok : ∀ {s a r}, read s = .ok (a, r) ↔ ∃ b, item b s r ∧ found b = a
  read_token : ∀ s, read (token s) = read s
  length_lt : ∀ {b s r}, item b s r → r.length < s.length
  head : ∀ {b s r}, item b s r → ∃ c t, token s = c :: t ∧ c ≠ some ']'

theorem Reads.listed_of_readItems (h : Reads read item found) {n : Nat} {as : List α}
    (hread : readItems read n first s = .ok (as, r)) :
    ∃ bs, Listed ']' item first bs s r ∧ bs.map found = as := by
  induction n generalizing first s as with
  | zero => cases hread
  | succ n ih =>
    obtain ⟨next, hnext, hread⟩ := bind_eq_ok.1 hread
    cases next with
    | close t =>
      cases hread
      exact ⟨[], nextItem_eq_close.1 hnext, rfl⟩
    | item x =>
      obtain ⟨⟨a, u⟩, ha, hrest⟩ := bind_eq_ok.1 hread
      obtain ⟨⟨as', r'⟩, has, hfound⟩ := bind_eq_ok.1 hrest
      cases hfound
      obtain ⟨t, hstarts, rfl, -⟩ := (nextItem_eq_item (by decide)).1 hnext
      rw [h.read_token] at ha
      obtain ⟨b, hb, rfl⟩ := h.eq_ok.1 ha
      obtain ⟨bs, hbs, rfl⟩ := ih has
      exact ⟨b :: bs, ⟨t, u, hstarts, hb, hbs⟩, rfl⟩

theorem Reads.readItems_of_listed (h : Reads read item found) {bs : List β}
    (hbs : Listed ']' item first bs s r) {n : Nat} (hn : s.length < n) :
    readItems read n first s = .ok (bs.map found, r) := by
  induction bs generalizing first s n with
  | nil =>
    obtain ⟨n, rfl⟩ : ∃ m, n = m + 1 := ⟨n - 1, by omega⟩
    exact bind_eq_ok.2 ⟨_, nextItem_eq_close.2 hbs, rfl⟩
  | cons b bs ih =>
    obtain ⟨n, rfl⟩ : ∃ m, n = m + 1 := ⟨n - 1, by omega⟩
    obtain ⟨t, u, hstarts, hb, hrest⟩ := hbs
    have hshort : u.length < n := by
      have := hstarts.length_le
      have := h.length_lt hb
      omega
    have hnext : nextItem ']' first s = .ok (.item (token t)) :=
      (nextItem_eq_item (by decide)).2 ⟨t, hstarts, rfl, h.head hb⟩
    have ha : read (token t) = .ok (found b, u) := by
      rw [h.read_token]
      exact h.eq_ok.2 ⟨b, hb, rfl⟩
    refine bind_eq_ok.2 ⟨_, hnext, bind_eq_ok.2 ⟨_, ha, ?_⟩⟩
    exact bind_eq_ok.2 ⟨_, ih hrest hshort, rfl⟩

theorem Reads.readItems_eq_ok (h : Reads read item found) {as : List α} :
    readItems read (s.length + 1) true s = .ok (as, r) ↔
      ∃ bs, Listed ']' item true bs s r ∧ bs.map found = as := by
  constructor
  · exact h.listed_of_readItems
  · rintro ⟨bs, hbs, rfl⟩
    exact h.readItems_of_listed hbs (Nat.lt_succ_self _)

theorem Named.length_lt {name : String} (h : Named name s r) : r.length < s.length := by
  obtain ⟨t, u, ht, hquoted, hu⟩ := h
  have := length_lt_of_token ht
  have := hquoted.length_lt
  have := length_lt_of_token hu
  omega

theorem Reads.listed_of_readMembers (h : Reads read item found) {n : Nat} {ms : List (String × α)}
    (hread : readMembers read n first s = .ok (ms, r)) :
    ∃ bs, Listed '}' (Labelled item) first bs s r ∧ bs.map (keep found) = ms := by
  induction n generalizing first s ms with
  | zero => cases hread
  | succ n ih =>
    obtain ⟨⟨name?, x⟩, hname, hread⟩ := bind_eq_ok.1 hread
    cases name? with
    | none =>
      cases hread
      exact ⟨[], nextName_eq_none.1 hname, rfl⟩
    | some name =>
      obtain ⟨y, hcolon, hread⟩ := bind_eq_ok.1 hread
      obtain ⟨⟨a, u⟩, ha, hrest⟩ := bind_eq_ok.1 hread
      obtain ⟨⟨ms', r'⟩, hms, hfound⟩ := bind_eq_ok.1 hrest
      cases hfound
      obtain ⟨t, z, hstarts, hquote, hquoted⟩ := nextName_eq_some.1 hname
      obtain ⟨b, hb, rfl⟩ := h.eq_ok.1 ha
      obtain ⟨bs, hbs, rfl⟩ := ih hms
      have hmember : Labelled item (name, b) t u :=
        ⟨y, ⟨z, x, hquote, hquoted, colon_eq_ok.1 hcolon⟩, hb⟩
      exact ⟨(name, b) :: bs, ⟨t, u, hstarts, hmember, hbs⟩, rfl⟩

theorem Reads.readMembers_of_listed (h : Reads read item found) {bs : List (String × β)}
    (hbs : Listed '}' (Labelled item) first bs s r) {n : Nat} (hn : s.length < n) :
    readMembers read n first s = .ok (bs.map (keep found), r) := by
  induction bs generalizing first s n with
  | nil =>
    obtain ⟨n, rfl⟩ : ∃ m, n = m + 1 := ⟨n - 1, by omega⟩
    exact bind_eq_ok.2 ⟨_, nextName_eq_none.2 hbs, rfl⟩
  | cons m bs ih =>
    obtain ⟨n, rfl⟩ : ∃ m, n = m + 1 := ⟨n - 1, by omega⟩
    obtain ⟨t, u, hstarts, ⟨y, hnamed, hb⟩, hrest⟩ := hbs
    have hshort : u.length < n := by
      have := hstarts.length_le
      have := hnamed.length_lt
      have := h.length_lt hb
      omega
    obtain ⟨z, x, hquote, hquoted, hcolon⟩ := hnamed
    have hname : nextName first s = .ok (some m.1, x) :=
      nextName_eq_some.2 ⟨t, z, hstarts, hquote, hquoted⟩
    refine bind_eq_ok.2 ⟨_, hname, bind_eq_ok.2 ⟨_, colon_eq_ok.2 hcolon, ?_⟩⟩
    refine bind_eq_ok.2 ⟨_, h.eq_ok.2 ⟨_, hb, rfl⟩, ?_⟩
    exact bind_eq_ok.2 ⟨_, ih hrest hshort, rfl⟩

theorem Reads.readMembers_eq_ok (h : Reads read item found) {ms : List (String × α)} :
    readMembers read (s.length + 1) true s = .ok (ms, r) ↔
      ∃ bs, Listed '}' (Labelled item) true bs s r ∧ bs.map (keep found) = ms := by
  constructor
  · exact h.listed_of_readMembers
  · rintro ⟨bs, hbs, rfl⟩
    exact h.readMembers_of_listed hbs (Nat.lt_succ_self _)

end

/-! ## values -/

/-- the tree stands here, with brackets nested at most that deep -/
def Spelled : Nat → Value → Input → Input → Prop
  | 0, v, s, r => Plain v (token s) r
  | depth + 1, .array vs, s, r =>
    ∃ t, token s = some '[' :: t ∧ Listed ']' (Spelled depth) true vs t r
  | depth + 1, .object ms, s, r =>
    ∃ t, token s = some '{' :: t ∧ Listed '}' (Labelled (Spelled depth)) true ms t r
  | _ + 1, v, s, r => Plain v (token s) r

section
variable {s r : Input} {v : Value}

theorem readValue_token (depth : Nat) (s : Input) :
    readValue depth (token s) = readValue depth s := by
  unfold readValue
  rw [token_token]

theorem readValue_array (depth : Nat) (s : Input) :
    readValue (depth + 1) (some '[' :: s) =
      (readItems (readValue depth) (s.length + 1) true s).map fun (vs, r) => (.array vs, r) := by
  rw [readValue]
  rfl

theorem readValue_object (depth : Nat) (s : Input) :
    readValue (depth + 1) (some '{' :: s) =
      (readMembers (readValue depth) (s.length + 1) true s).map
        fun (ms, r) => (.object (collect ms), r) := by
  rw [readValue]
  rfl

/-- Without brackets, a value is read as a scalar. -/
theorem readValue_of_head {c : Option Char} {t : Input} (h : token s = c :: t)
    (harray : c ≠ some '[') (hobject : c ≠ some '{') (depth : Nat) :
    readValue depth s = readScalar (token s) := by
  unfold readValue
  rw [h]
  split
  · rename_i heq
    exact absurd (List.cons.inj heq).1 harray
  · rename_i heq
    exact absurd (List.cons.inj heq).1 hobject
  · rfl

theorem readPlain_of_readValue (h : readValue 0 s = .ok (v, r)) :
    readPlain s = .ok (v, r) := by
  unfold readValue at h
  unfold readPlain
  split at h
  · cases h
  · cases h
  · exact h

theorem Plain.spelled (h : Plain v (token s) r) (depth : Nat) : Spelled depth v s r := by
  cases depth with
  | zero => exact h
  | succ depth =>
    cases v with
    | array vs => exact h.elim
    | object ms => exact h.elim
    | _ => exact h

theorem readValue_of_plain (h : Plain v (token s) r) (depth : Nat) :
    readValue depth s = .ok (v, r) := by
  obtain ⟨c, t, hhead, hc, -⟩ := h.head
  simp only [List.mem_cons, List.not_mem_nil, or_false, not_or] at hc
  obtain ⟨-, -, harray, hobject⟩ := hc
  rw [readValue_of_head hhead (by simpa using harray) (by simpa using hobject)]
  exact readScalar_eq_ok.2 h

/-- A value that is spelled here is one without brackets, or its bracket comes first. -/
theorem Spelled.cases {depth : Nat} (h : Spelled depth v s r) :
    Plain v (token s) r ∨
      (∃ d vs t, depth = d + 1 ∧ v = .array vs ∧ token s = some '[' :: t ∧
        Listed ']' (Spelled d) true vs t r) ∨
      ∃ d ms t, depth = d + 1 ∧ v = .object ms ∧ token s = some '{' :: t ∧
        Listed '}' (Labelled (Spelled d)) true ms t r := by
  cases depth with
  | zero => exact .inl h
  | succ depth =>
    cases v with
    | array vs =>
      obtain ⟨t, ht, hvs⟩ := h
      exact .inr (.inl ⟨depth, vs, t, rfl, rfl, ht, hvs⟩)
    | object ms =>
      obtain ⟨t, ht, hms⟩ := h
      exact .inr (.inr ⟨depth, ms, t, rfl, rfl, ht, hms⟩)
    | _ => exact .inl h

theorem Spelled.head {depth : Nat} (h : Spelled depth v s r) :
    ∃ c t, token s = c :: t ∧ c ≠ some ']' := by
  rcases h.cases with hplain | ⟨_, _, t, -, -, ht, -⟩ | ⟨_, _, t, -, -, ht, -⟩
  · obtain ⟨c, t, hhead, hc, -⟩ := hplain.head
    simp only [List.mem_cons, not_or] at hc
    exact ⟨_, t, hhead, by simpa using hc.1⟩
  · exact ⟨_, t, ht, by decide⟩
  · exact ⟨_, t, ht, by decide⟩

theorem Spelled.length_lt {depth : Nat} (h : Spelled depth v s r) : r.length < s.length := by
  induction depth generalizing v s r with
  | zero => exact Nat.lt_of_lt_of_le (Plain.length_lt h) (length_token_le s)
  | succ depth ih =>
    rcases h.cases with hplain | ⟨_, vs, t, ⟨⟩, -, ht, hvs⟩ | ⟨_, ms, t, ⟨⟩, -, ht, hms⟩
    · exact Nat.lt_of_lt_of_le hplain.length_lt (length_token_le s)
    · exact Nat.lt_trans (hvs.length_lt ih) (length_lt_of_token ht)
    · have hmember : ∀ {m : String × Value} {t u : Input}, Labelled (Spelled depth) m t u →
          u.length < t.length := by
        rintro m t u ⟨y, hnamed, hvalue⟩
        exact Nat.lt_trans (ih hvalue) hnamed.length_lt
      exact Nat.lt_trans (hms.length_lt hmember) (length_lt_of_token ht)

theorem spelled_token {depth : Nat} : Spelled depth v (token s) r ↔ Spelled depth v s r := by
  cases depth with
  | zero => rw [Spelled, Spelled, token_token]
  | succ depth => cases v <;> simp only [Spelled, token_token]

/-- One more bracket around what is read. -/
theorem readValue_succ_eq_ok {depth : Nat}
    (h : Reads (readValue depth) (Spelled depth) Value.settled) :
    readValue (depth + 1) s = .ok (v, r) ↔ ∃ w, Spelled (depth + 1) w s r ∧ w.settled = v := by
  constructor
  · intro hread
    unfold readValue at hread
    split at hread
    · rename_i t ht
      obtain ⟨⟨vs, r'⟩, hitems, hv⟩ := map_eq_ok.1 hread
      cases hv
      obtain ⟨ws, hws, rfl⟩ := h.readItems_eq_ok.1 hitems
      refine ⟨.array ws, ⟨t, ht, hws⟩, ?_⟩
      rw [Value.settled, Value.settledItems_eq]
    · rename_i t ht
      obtain ⟨⟨ms, r'⟩, hmembers, hv⟩ := map_eq_ok.1 hread
      cases hv
      obtain ⟨ws, hws, rfl⟩ := h.readMembers_eq_ok.1 hmembers
      refine ⟨.object ws, ⟨t, ht, hws⟩, ?_⟩
      rw [Value.settled, Value.settledMembers_eq]
      rfl
    · have hplain := readScalar_eq_ok.1 hread
      exact ⟨v, hplain.spelled (depth + 1), hplain.settled_eq⟩
  · rintro ⟨w, hw, rfl⟩
    rcases hw.cases with hplain | ⟨_, vs, t, ⟨⟩, rfl, ht, hvs⟩ | ⟨_, ms, t, ⟨⟩, rfl, ht, hms⟩
    · rw [hplain.settled_eq]
      exact readValue_of_plain hplain (depth + 1)
    · have hitems := h.readItems_eq_ok.2 ⟨vs, hvs, rfl⟩
      rw [← readValue_token, ht, readValue_array, hitems, Value.settled, Value.settledItems_eq]
      rfl
    · have hmembers := h.readMembers_eq_ok.2 ⟨ms, hms, rfl⟩
      rw [← readValue_token, ht, readValue_object, hmembers, Value.settled, Value.settledMembers_eq]
      rfl

theorem reads_value (depth : Nat) : Reads (readValue depth) (Spelled depth) Value.settled := by
  induction depth with
  | zero =>
    refine ⟨?_, readValue_token 0, Spelled.length_lt, Spelled.head⟩
    intro s v r
    constructor
    · intro hread
      have hplain := readPlain_eq_ok.1 (readPlain_of_readValue hread)
      exact ⟨v, hplain, hplain.settled_eq⟩
    · rintro ⟨w, hplain, rfl⟩
      rw [Plain.settled_eq hplain]
      exact readValue_of_plain hplain 0
  | succ depth ih =>
    exact ⟨readValue_succ_eq_ok ih, readValue_token (depth + 1), Spelled.length_lt, Spelled.head⟩

/-- **A value is read exactly if a tree is spelled**, and it is that tree as it is kept. -/
theorem readValue_eq_ok {depth : Nat} :
    readValue depth s = .ok (v, r) ↔ ∃ w, Spelled depth w s r ∧ w.settled = v :=
  (reads_value depth).eq_ok

/-! ## what is spelled fits -/

theorem Listed.exists_of_mem {β : Type} {closing : Char} {item : β → Input → Input → Prop}
    {first : Bool} {bs : List β} (h : Listed closing item first bs s r) :
    ∀ b ∈ bs, ∃ t u, item b t u := by
  induction bs generalizing first s with
  | nil => exact nofun
  | cons b bs ih =>
    obtain ⟨t, u, -, hb, hrest⟩ := h
    exact List.forall_mem_cons.2 ⟨⟨t, u, hb⟩, ih hrest⟩

theorem fits_of_plain {depth : Nat} (h : Plain v s r) (hint : v.Integral) : v.Fits depth := by
  cases hint with
  | int hlo hhi => cases depth <;> exact ⟨hlo, hhi⟩
  | array => exact h.elim
  | object => exact h.elim
  | _ => cases depth <;> trivial

/-- What is kept of a tree fits where the tree is spelled, if its numbers are integers. -/
theorem Spelled.fits {depth : Nat} (h : Spelled depth v s r) (hint : v.settled.Integral) :
    v.settled.Fits depth := by
  induction depth generalizing v s r with
  | zero =>
    rw [Plain.settled_eq h] at hint ⊢
    exact fits_of_plain h hint
  | succ depth ih =>
    rcases h.cases with hplain | ⟨_, vs, t, ⟨⟩, rfl, -, hvs⟩ | ⟨_, ms, t, ⟨⟩, rfl, -, hms⟩
    · rw [hplain.settled_eq] at hint ⊢
      exact fits_of_plain hplain hint
    · rw [Value.settled_array] at hint ⊢
      obtain - | - | - | - | hitems | - := hint
      intro w hw
      obtain ⟨v, hv, rfl⟩ := List.mem_map.1 hw
      obtain ⟨t, u, hspelled⟩ := hvs.exists_of_mem v hv
      exact ih hspelled (hitems _ hw)
    · rw [Value.settled_object] at hint ⊢
      obtain - | - | - | - | - | hmembers := hint
      intro n hn
      obtain ⟨m, hm, rfl⟩ := List.mem_map.1 hn
      obtain ⟨t, u, y, -, hspelled⟩ := hms.exists_of_mem m (mem_collect hm)
      exact ih hspelled (hmembers _ hn)

end

end Matchmaker.Json
