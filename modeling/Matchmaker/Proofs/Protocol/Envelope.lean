import Matchmaker.Proofs.Json.Records
import Matchmaker.Proofs.Json.Skipping
import Matchmaker.Proofs.Json.Values
import Matchmaker.Proofs.Text.Encoding
import Matchmaker.Protocol.Frame

/-!
# One text for every frame

A frame may be spelled in many ways: as an object whose members come in any order, with others among
them, or as a list, with or without a payload, and the payload itself in any way a value may be spelled
(`Envelope`).  Every text that is read as a frame is such an envelope, and the other way round
(`decode_eq_ok`).

Written again, all of them become one text.
-/

namespace Matchmaker.Protocol

open Json Json.Value

namespace Frame

/-- an operation code stands here, a whole number of 64 bits -/
def Code (n : Int) (s r : Input) : Prop :=
  Plain (int n) (token s) r ∧ Word.minInt64 ≤ n ∧ n ≤ Word.maxInt64

/-- a member of the object that a frame may be spelled as -/
inductive Entry where
  | op (n : Int)
  | payload (v : Value)
  /-- one of another name, whose value does not matter -/
  | other (name : String)

namespace Entry

/-- the entry stands here -/
def Stated : Entry → Input → Input → Prop
  | op n, s, r => Labelled Code ("op", n) s r
  | payload v, s, r => Labelled (Spelled 126) ("payload", v) s r
  | other name, s, r => name ≠ "op" ∧ name ≠ "payload" ∧ ∃ t, Named name s t ∧ skip t = .ok r

theorem Stated.length_lt {e : Entry} {s r : Input} (h : e.Stated s r) : r.length < s.length := by
  cases e with
  | op k =>
    obtain ⟨t, hnamed, hcode⟩ := h
    have := hnamed.length_lt
    have := hcode.1.length_lt
    have := length_token_le t
    omega
  | payload v =>
    obtain ⟨t, hnamed, hspelled⟩ := h
    exact Nat.lt_trans hspelled.length_lt hnamed.length_lt
  | other name =>
    obtain ⟨-, -, t, hnamed, hskip⟩ := h
    exact Nat.lt_of_le_of_lt (length_skip_le hskip) hnamed.length_lt

/-- the field that the entry gives, as it is kept -/
def field? : Entry → Option (String × Value)
  | op n => some ("op", int n)
  | payload v => some ("payload", v.settled)
  | other _ => none

end Entry

/-- no field comes twice -/
def Once (es : List Entry) : Prop := ((es.filterMap Entry.field?).map Prod.fst).Nodup

/-- a frame of that operation is spelled here, with that tree as its payload -/
inductive Envelope (op : Int) : Value → Input → Input → Prop where
  | object {es : List Entry} {v : Value} {s t r : Input} (hopen : token s = some '{' :: t)
      (hes : Listed '}' Entry.Stated true es t r) (honce : Once es) (hop : .op op ∈ es)
      (hpayload : .payload v ∈ es) : Envelope op v s r
  | bareObject {es : List Entry} {s t r : Input} (hopen : token s = some '{' :: t)
      (hes : Listed '}' Entry.Stated true es t r) (honce : Once es) (hop : .op op ∈ es)
      (hpayload : ∀ v, .payload v ∉ es) : Envelope op .null s r
  | list {v : Value} {s t u w x r : Input} (hopen : token s = some '[' :: t) (hop : Code op t u)
      (hcomma : token u = some ',' :: w) (hpayload : Spelled 126 v w x)
      (hclose : token x = some ']' :: r) : Envelope op v s r
  | bareList {s t u r : Input} (hopen : token s = some '[' :: t) (hop : Code op t u)
      (hclose : token u = some ']' :: r) : Envelope op .null s r

/-! ## the fields -/

section
variable {depth n : Nat} {first : Bool} {s r : Input} {v : Value}
  {found found' : List (String × Value)}

theorem read_op_eq_ok :
    (Field.int "op" Word.minInt64 Word.maxInt64).read depth s = .ok (v, r) ↔
      ∃ k, int k = v ∧ Code k s r := by
  constructor
  · intro h
    obtain ⟨⟨w, t⟩, hread, hshaped⟩ := bind_eq_ok.1
      (show readPlain s >>= shaped _ = .ok (v, r) from h)
    obtain ⟨haccepts, rfl⟩ := shaped_eq_ok.1 hshaped
    split at haccepts
    · rename_i hint
      cases haccepts
      obtain ⟨k, hk⟩ := Option.isSome_iff_exists.1 hint
      unfold asInt? at hk
      split at hk
      · rename_i k'
        split at hk
        · rename_i hrange
          exact ⟨k', rfl, readPlain_eq_ok.1 hread, hrange⟩
        · cases hk
      · cases hk
    · cases haccepts
  · rintro ⟨k, rfl, hplain, hrange⟩
    have haccepts : asInt? Word.minInt64 Word.maxInt64 (int k) = some k := if_pos hrange
    refine Field.read_of_accepts (readPlain_eq_ok.2 hplain) ?_
    show (asInt? Word.minInt64 Word.maxInt64 (int k)).isSome = true
    rw [haccepts]
    rfl

theorem read_payload_eq_ok :
    (Field.any "payload").read depth s = .ok (v, r) ↔ ∃ w, Spelled depth w s r ∧ w.settled = v := by
  rw [← readValue_eq_ok]
  constructor
  · intro h
    obtain ⟨⟨w, t⟩, hread, hshaped⟩ := bind_eq_ok.1
      (show readValue depth s >>= shaped _ = .ok (v, r) from h)
    obtain ⟨haccepts, rfl⟩ := shaped_eq_ok.1 hshaped
    cases haccepts
    exact hread
  · exact fun h => Field.read_of_accepts h rfl

theorem find?_fields (name : String) :
    (fields.find? fun f => f.name == name) =
      if name = "op" then some (.int "op" Word.minInt64 Word.maxInt64)
      else if name = "payload" then some (.any "payload") else none := by
  by_cases hop : name = "op"
  · subst hop
    rfl
  · by_cases hpayload : name = "payload"
    · subst hpayload
      rfl
    · have hop' : ¬ "op" = name := fun heq => hop heq.symm
      have hpayload' : ¬ "payload" = name := fun heq => hpayload heq.symm
      simp [fields, Field.int, Field.any, hop, hop', hpayload, hpayload']

/-- A member whose value is read as a field is an entry. -/
theorem stated_of_read {name : String} {f : Field} {t : Input}
    (hfind : (fields.find? fun f => f.name == name) = some f) (hnamed : Named name s t)
    (hread : f.read 126 t = .ok (v, r)) :
    ∃ e : Entry, e.Stated s r ∧ e.field? = some (name, v) := by
  rw [find?_fields] at hfind
  split at hfind
  · rename_i hop
    cases hfind
    subst hop
    obtain ⟨k, rfl, hcode⟩ := read_op_eq_ok.1 hread
    exact ⟨.op k, ⟨t, hnamed, hcode⟩, rfl⟩
  · split at hfind
    · rename_i hpayload
      cases hfind
      subst hpayload
      obtain ⟨w, hspelled, rfl⟩ := read_payload_eq_ok.1 hread
      exact ⟨.payload w, ⟨t, hnamed, hspelled⟩, rfl⟩
    · cases hfind

theorem read_of_stated {name : String} {e : Entry} (he : e.Stated s r)
    (hfield : e.field? = some (name, v)) :
    ∃ f t, (fields.find? fun f => f.name == name) = some f ∧ Named name s t ∧
      f.read 126 t = .ok (v, r) := by
  cases e with
  | op k =>
    cases hfield
    obtain ⟨t, hnamed, hcode⟩ := he
    exact ⟨_, t, rfl, hnamed, read_op_eq_ok.2 ⟨k, rfl, hcode⟩⟩
  | payload w =>
    cases hfield
    obtain ⟨t, hnamed, hspelled⟩ := he
    exact ⟨_, t, rfl, hnamed, read_payload_eq_ok.2 ⟨w, hspelled, rfl⟩⟩
  | other name' => cases hfield

/-! ## objects -/

/-- A member that is no field is passed over. -/
theorem readNamed_other {name : String} {t u : Input} (hname : nextName first s = .ok (some name, t))
    (hfind : (fields.find? fun f => f.name == name) = none) (hcolon : colon t = .ok u)
    (hskip : skip u = .ok r) :
    readNamed depth fields (n + 1) first found s = readNamed depth fields n false found r := by
  rw [readNamed, hname]
  dsimp only [bind, Except.bind]
  rw [hfind]
  dsimp only
  rw [hcolon]
  dsimp only
  rw [hskip]

theorem nodup_concat {name : String} (hfound : (found.map Prod.fst).Nodup)
    (hnew : found.lookup name = none) (v : Value) : ((found ++ [(name, v)]).map Prod.fst).Nodup := by
  rw [List.map_append, List.nodup_append]
  refine ⟨hfound, List.nodup_cons.2 ⟨nofun, List.nodup_nil⟩, ?_⟩
  rintro _ hm _ hname rfl
  obtain rfl := List.mem_singleton.1 hname
  obtain ⟨m, hm, heq⟩ := List.mem_map.1 hm
  exact bne_iff_ne.1 (List.lookup_eq_none_iff.1 hnew m hm) heq.symm

/-- The members of an object that are read are entries. -/
theorem listed_of_readNamed (hread : readNamed 126 fields n first found s = .ok (found', r))
    (hfound : (found.map Prod.fst).Nodup) :
    ∃ es, Listed '}' Entry.Stated first es s r ∧ found' = found ++ es.filterMap Entry.field? ∧
      (found'.map Prod.fst).Nodup := by
  induction n generalizing first found s with
  | zero => cases hread
  | succ n ih =>
    obtain ⟨⟨name?, t⟩, hname, hrest⟩ := bind_eq_ok.1 hread
    cases name? with
    | none =>
      cases hrest
      exact ⟨[], nextName_eq_none.1 hname, (List.append_nil _).symm, hfound⟩
    | some name =>
      obtain ⟨x, y, hstarts, hquote, hquoted⟩ := nextName_eq_some.1 hname
      dsimp only at hrest
      split at hrest
      · rename_i hfind
        obtain ⟨u, hcolon, hrest⟩ := bind_eq_ok.1 hrest
        obtain ⟨w, hskip, hrest⟩ := bind_eq_ok.1 hrest
        obtain ⟨es, hes, hfields, hnodup⟩ := ih hrest hfound
        have hother : name ≠ "op" ∧ name ≠ "payload" := by
          constructor
          · rintro rfl
            cases hfind
          · rintro rfl
            cases hfind
        have hnamed : Named name x u := ⟨y, t, hquote, hquoted, colon_eq_ok.1 hcolon⟩
        exact ⟨.other name :: es, ⟨x, w, hstarts, ⟨hother.1, hother.2, u, hnamed, hskip⟩, hes⟩,
          hfields, hnodup⟩
      · rename_i f hfind
        split at hrest
        · cases hrest
        · rename_i hnew
          obtain ⟨u, hcolon, hrest⟩ := bind_eq_ok.1 hrest
          obtain ⟨⟨v, w⟩, hvalue, hrest⟩ := bind_eq_ok.1 hrest
          have hnamed : Named name x u := ⟨y, t, hquote, hquoted, colon_eq_ok.1 hcolon⟩
          obtain ⟨e, he, hfield⟩ := stated_of_read hfind hnamed hvalue
          have hnone : found.lookup name = none := Option.not_isSome_iff_eq_none.1 hnew
          obtain ⟨es, hes, rfl, hnodup⟩ := ih hrest (nodup_concat hfound hnone v)
          refine ⟨e :: es, ⟨x, w, hstarts, he, hes⟩, ?_, hnodup⟩
          rw [List.filterMap_cons_some hfield, List.append_assoc, List.singleton_append]

/-- Entries are read, if no field comes twice. -/
theorem readNamed_of_listed {es : List Entry} (hes : Listed '}' Entry.Stated first es s r)
    (honce : ((found ++ es.filterMap Entry.field?).map Prod.fst).Nodup) (hn : s.length < n) :
    readNamed 126 fields n first found s = .ok (found ++ es.filterMap Entry.field?, r) := by
  induction es generalizing first found s n with
  | nil =>
    obtain ⟨n, rfl⟩ : ∃ m, n = m + 1 := ⟨n - 1, by omega⟩
    rw [List.filterMap_nil, List.append_nil]
    exact bind_eq_ok.2 ⟨_, nextName_eq_none.2 hes, rfl⟩
  | cons e es ih =>
    obtain ⟨n, rfl⟩ : ∃ m, n = m + 1 := ⟨n - 1, by omega⟩
    obtain ⟨t, u, hstarts, he, hrest⟩ := hes
    have hle := hstarts.length_le
    cases hfield : e.field? with
    | none =>
      cases e with
      | op k => cases hfield
      | payload v => cases hfield
      | other name =>
        obtain ⟨hop, hpayload, w, hnamed, hskip⟩ := he
        have hlt := hnamed.length_lt
        have hshort := length_skip_le hskip
        obtain ⟨x, y, hquote, hquoted, hcolon⟩ := hnamed
        have hname := nextName_eq_some.2 ⟨t, x, hstarts, hquote, hquoted⟩
        have hfind : (fields.find? fun f => f.name == name) = none := by
          rw [find?_fields, if_neg hop, if_neg hpayload]
        rw [List.filterMap_cons_none hfield] at honce ⊢
        rw [readNamed_other hname hfind (colon_eq_ok.2 hcolon) hskip]
        exact ih hrest honce (by omega)
    | some m =>
      obtain ⟨name, v⟩ := m
      obtain ⟨f, w, hfind, hnamed, hread⟩ := read_of_stated he hfield
      have hlt := hnamed.length_lt
      have hshort := he.length_lt
      obtain ⟨x, y, hquote, hquoted, hcolon⟩ := hnamed
      have hname := nextName_eq_some.2 ⟨t, x, hstarts, hquote, hquoted⟩
      rw [List.filterMap_cons_some hfield] at honce ⊢
      have hsplit : found ++ (name, v) :: es.filterMap Entry.field? =
          found ++ [(name, v)] ++ es.filterMap Entry.field? := by
        rw [List.append_assoc, List.singleton_append]
      have hnew : found.lookup name = none := by
        rw [List.lookup_eq_none_iff]
        intro m hm
        rw [List.map_append, List.nodup_append] at honce
        refine bne_iff_ne.2 fun heq => ?_
        exact honce.2.2 m.1 (List.mem_map_of_mem hm) name List.mem_cons_self heq.symm
      rw [readNamed_field hname (colon_eq_ok.2 hcolon) hfind hnew hread, hsplit]
      rw [hsplit] at honce
      exact ih hrest honce (by omega)

theorem lookup_fields {es : List Entry} (h : Once es) {name : String} :
    (es.filterMap Entry.field?).lookup name = some v ↔
      ∃ e ∈ es, e.field? = some (name, v) := by
  constructor
  · intro hlookup
    exact List.mem_filterMap.1 (mem_of_lookup hlookup)
  · rintro ⟨e, he, hfield⟩
    exact lookup_of_mem h (List.mem_filterMap.2 ⟨e, he, hfield⟩)

theorem lookup_op {es : List Entry} (h : Once es) :
    (es.filterMap Entry.field?).lookup "op" = some v ↔ ∃ k, Entry.op k ∈ es ∧ int k = v := by
  rw [lookup_fields h]
  constructor
  · rintro ⟨e, he, hfield⟩
    cases e with
    | op k =>
      cases hfield
      exact ⟨k, he, rfl⟩
    | payload w =>
      have hname : "payload" = "op" := congrArg Prod.fst (Option.some.inj hfield)
      exact absurd hname (by decide)
    | other name => cases hfield
  · rintro ⟨k, he, rfl⟩
    exact ⟨_, he, rfl⟩

theorem lookup_payload {es : List Entry} (h : Once es) :
    (es.filterMap Entry.field?).lookup "payload" = some v ↔
      ∃ w, Entry.payload w ∈ es ∧ w.settled = v := by
  rw [lookup_fields h]
  constructor
  · rintro ⟨e, he, hfield⟩
    cases e with
    | op k =>
      have hname : "op" = "payload" := congrArg Prod.fst (Option.some.inj hfield)
      exact absurd hname (by decide)
    | payload w =>
      cases hfield
      exact ⟨w, he, rfl⟩
    | other name => cases hfield
  · rintro ⟨w, he, rfl⟩
    exact ⟨_, he, rfl⟩

/-- The record has a code, and the payload is null if it is not found. -/
theorem arrange_fields_eq_ok {ms : List (String × Value)} :
    arrange found fields = .ok ms ↔
      ∃ op, found.lookup "op" = some op ∧
        ms = [("op", op), ("payload", (found.lookup "payload").getD .null)] := by
  have hop : (Field.int "op" Word.minInt64 Word.maxInt64).name = "op" := rfl
  have hpayload : (Field.any "payload").name = "payload" := rfl
  rw [fields, arrange_cons, arrange_cons, hop, hpayload]
  cases found.lookup "op" with
  | none => exact ⟨nofun, nofun⟩
  | some op =>
    cases found.lookup "payload" with
    | none =>
      constructor
      · intro h
        exact ⟨op, rfl, (Except.ok.inj h).symm⟩
      · rintro ⟨_, ⟨⟩, rfl⟩
        rfl
    | some w =>
      constructor
      · intro h
        exact ⟨op, rfl, (Except.ok.inj h).symm⟩
      · rintro ⟨_, ⟨⟩, rfl⟩
        rfl

theorem readRecord_of_entries {es : List Entry} {t : Input} {op : Int}
    (hopen : token s = some '{' :: t) (hes : Listed '}' Entry.Stated true es t r) (honce : Once es)
    (hop : .op op ∈ es) :
    read s = .ok (⟨op, ((es.filterMap Entry.field?).lookup "payload").getD .null⟩, r) := by
  have hnamed : readNamed 126 fields (t.length + 1) true [] t =
      .ok (es.filterMap Entry.field?, r) :=
    readNamed_of_listed hes honce (Nat.lt_succ_self _)
  have harrange := arrange_fields_eq_ok.2 ⟨int op, (lookup_op honce).2 ⟨op, hop, rfl⟩, rfl⟩
  have hrecord := readRecord_object hopen 126 fields
  rw [hnamed] at hrecord
  dsimp only [bind, Except.bind] at hrecord
  rw [harrange] at hrecord
  exact bind_eq_ok.2 ⟨_, hrecord, rfl⟩

/-! ## lists -/

theorem readRecord_of_positions {t : Input} {op : Int} (hopen : token s = some '[' :: t)
    (hread : readPositions 126 fields true t = .ok ([("op", int op), ("payload", v)], r)) :
    read s = .ok (⟨op, v⟩, r) := by
  have hrecord := readRecord_array hopen 126 fields
  rw [hread] at hrecord
  exact bind_eq_ok.2 ⟨_, hrecord, rfl⟩

theorem readPositions_nil_eq_ok {ms : List (String × Value)} :
    readPositions depth [] first s = .ok (ms, r) ↔ token s = some ']' :: r ∧ ms = [] := by
  rw [readPositions]
  constructor
  · intro h
    split at h
    · cases h
    · rename_i c t htoken
      split at h
      · rename_i hc
        cases h
        exact ⟨by rw [htoken, eq_of_beq hc], rfl⟩
      · cases h
  · rintro ⟨h, rfl⟩
    rw [h]
    rfl

/-- The payload stands behind a comma, or the list is over and the payload is null. -/
theorem readPositions_payload_eq_ok {ms : List (String × Value)} :
    readPositions 126 [.any "payload"] false s = .ok (ms, r) ↔
      (token s = some ']' :: r ∧ ms = [("payload", .null)]) ∨
        ∃ t u v, token s = some ',' :: t ∧ Spelled 126 v t u ∧ token u = some ']' :: r ∧
          ms = [("payload", v.settled)] := by
  rw [readPositions, bind_eq_ok]
  constructor
  · rintro ⟨next, hnext, hrest⟩
    cases next with
    | close x =>
      obtain ⟨v, hv, hrest⟩ := bind_eq_ok.1 hrest
      obtain ⟨⟨ms', r'⟩, hnil, hfound⟩ := bind_eq_ok.1 hrest
      cases hv
      cases hfound
      obtain ⟨hclose, rfl⟩ := readPositions_nil_eq_ok.1 hnil
      exact .inl ⟨hclose, rfl⟩
    | item x =>
      obtain ⟨⟨v, u⟩, hv, hrest⟩ := bind_eq_ok.1 hrest
      obtain ⟨⟨ms', r'⟩, hnil, hfound⟩ := bind_eq_ok.1 hrest
      cases hfound
      obtain ⟨t, hstarts, rfl, -⟩ := (nextItem_eq_item (by decide)).1 hnext
      obtain ⟨hclose, rfl⟩ := readPositions_nil_eq_ok.1 hnil
      obtain ⟨w, hw, rfl⟩ := read_payload_eq_ok.1 hv
      exact .inr ⟨t, u, w, hstarts, spelled_token.1 hw, hclose, rfl⟩
  · rintro (⟨hclose, rfl⟩ | ⟨t, u, v, hcomma, hv, hclose, rfl⟩)
    · refine ⟨.close r, nextItem_eq_close.2 hclose, bind_eq_ok.2 ⟨.null, rfl, ?_⟩⟩
      exact bind_eq_ok.2 ⟨([], r), readPositions_nil_eq_ok.2 ⟨hclose, rfl⟩, rfl⟩
    · have hnext : nextItem ']' false s = .ok (.item (token t)) :=
        (nextItem_eq_item (by decide)).2 ⟨t, hcomma, rfl, hv.head⟩
      have hread : (Field.any "payload").read 126 (token t) = .ok (v.settled, u) :=
        read_payload_eq_ok.2 ⟨v, spelled_token.2 hv, rfl⟩
      refine ⟨_, hnext, bind_eq_ok.2 ⟨_, hread, ?_⟩⟩
      exact bind_eq_ok.2 ⟨([], r), readPositions_nil_eq_ok.2 ⟨hclose, rfl⟩, rfl⟩

theorem Code.head {n : Int} (h : Code n s r) : ∃ c t, token s = c :: t ∧ c ≠ some ']' := by
  obtain ⟨c, t, hhead, hc, -⟩ := h.1.head
  simp only [List.mem_cons, not_or] at hc
  exact ⟨_, t, hhead, by simpa using hc.1⟩

/-- The code stands first. -/
theorem readPositions_eq_ok {ms : List (String × Value)} :
    readPositions 126 fields true s = .ok (ms, r) ↔
      ∃ op t ms', Code op s t ∧ readPositions 126 [.any "payload"] false t = .ok (ms', r) ∧
        ms = ("op", int op) :: ms' := by
  rw [fields, readPositions, bind_eq_ok]
  constructor
  · rintro ⟨next, hnext, hrest⟩
    cases next with
    | close x =>
      obtain ⟨v, hv, -⟩ := bind_eq_ok.1 hrest
      cases hv
    | item x =>
      obtain ⟨⟨v, t⟩, hv, hrest⟩ := bind_eq_ok.1 hrest
      obtain ⟨⟨ms', r'⟩, hpayload, hfound⟩ := bind_eq_ok.1 hrest
      cases hfound
      rw [item_eq_token hnext, read_int_token] at hv
      obtain ⟨op, rfl, hcode⟩ := read_op_eq_ok.1 hv
      exact ⟨op, t, ms', hcode, hpayload, rfl⟩
  · rintro ⟨op, t, ms', hcode, hpayload, rfl⟩
    have hnext : nextItem ']' true s = .ok (.item (token s)) :=
      (nextItem_eq_item (by decide)).2 ⟨s, rfl, rfl, hcode.head⟩
    have hread : (Field.int "op" Word.minInt64 Word.maxInt64).read 126 (token s) =
        .ok (int op, t) := by
      rw [read_int_token]
      exact read_op_eq_ok.2 ⟨op, rfl, hcode⟩
    refine ⟨_, hnext, bind_eq_ok.2 ⟨_, hread, ?_⟩⟩
    exact bind_eq_ok.2 ⟨_, hpayload, rfl⟩

/-! ## frames -/

/-- An envelope is read as its frame. -/
theorem read_of_envelope {op : Int} (h : Envelope op v s r) : read s = .ok (⟨op, v.settled⟩, r) := by
  cases h with
  | object hopen hes honce hop hpayload =>
    rw [readRecord_of_entries hopen hes honce hop, (lookup_payload honce).2 ⟨v, hpayload, rfl⟩]
    rfl
  | @bareObject es s t r hopen hes honce hop hpayload =>
    have hnone : (es.filterMap Entry.field?).lookup "payload" = none := by
      rw [Option.eq_none_iff_forall_ne_some]
      intro w hw
      obtain ⟨v, hv, -⟩ := (lookup_payload honce).1 hw
      exact hpayload v hv
    rw [readRecord_of_entries hopen hes honce hop, hnone]
    rfl
  | @list v s t u w x r hopen hop hcomma hpayload hclose =>
    have hread := readPositions_payload_eq_ok.2 (.inr ⟨w, x, v, hcomma, hpayload, hclose, rfl⟩)
    exact readRecord_of_positions hopen (readPositions_eq_ok.2 ⟨op, u, _, hop, hread, rfl⟩)
  | @bareList s t u r hopen hop hclose =>
    have hread := readPositions_payload_eq_ok.2 (.inl ⟨hclose, rfl⟩)
    exact readRecord_of_positions hopen (readPositions_eq_ok.2 ⟨op, u, _, hop, hread, rfl⟩)

theorem frame_of_ofValue? {op payload : Value} {f : Frame}
    (h : ofValue? (.object [("op", op), ("payload", payload)]) = some f) :
    op = int f.op ∧ payload = f.payload := by
  unfold ofValue? at h
  split at h
  · rename_i heq
    cases heq
    cases h
    exact ⟨rfl, rfl⟩
  · cases h

theorem envelope_of_readNamed {t : Input} {ms : List (String × Value)} {f : Frame}
    (hopen : token s = some '{' :: t) (hnamed : readNamed 126 fields n true [] t = .ok (found, r))
    (harrange : arrange found fields = .ok ms) (hframe : ofValue? (.object ms) = some f) :
    ∃ v, Envelope f.op v s r ∧ v.settled = f.payload := by
  obtain ⟨es, hes, rfl, honce⟩ := listed_of_readNamed hnamed List.nodup_nil
  rw [List.nil_append] at honce harrange
  obtain ⟨op, hop, rfl⟩ := arrange_fields_eq_ok.1 harrange
  obtain ⟨rfl, hpayload⟩ := frame_of_ofValue? hframe
  obtain ⟨k, hk, hop⟩ := (lookup_op honce).1 hop
  obtain rfl : k = f.op := by
    cases hop
    rfl
  cases hlookup : (es.filterMap Entry.field?).lookup "payload" with
  | none =>
    rw [hlookup] at hpayload
    refine ⟨.null, .bareObject hopen hes honce hk ?_, hpayload⟩
    intro v hv
    rw [(lookup_payload honce).2 ⟨v, hv, rfl⟩] at hlookup
    cases hlookup
  | some w =>
    rw [hlookup] at hpayload
    obtain ⟨v, hv, rfl⟩ := (lookup_payload honce).1 hlookup
    exact ⟨v, .object hopen hes honce hk hv, hpayload⟩

theorem envelope_of_readPositions {t : Input} {ms : List (String × Value)} {f : Frame}
    (hopen : token s = some '[' :: t) (hpositions : readPositions 126 fields true t = .ok (ms, r))
    (hframe : ofValue? (.object ms) = some f) :
    ∃ v, Envelope f.op v s r ∧ v.settled = f.payload := by
  obtain ⟨op, x, ms', hcode, hread, rfl⟩ := readPositions_eq_ok.1 hpositions
  rcases readPositions_payload_eq_ok.1 hread with
    ⟨hclose, rfl⟩ | ⟨y, z, v, hcomma, hspelled, hclose, rfl⟩
  · obtain ⟨hop, hpayload⟩ := frame_of_ofValue? hframe
    cases hop
    exact ⟨.null, .bareList hopen hcode hclose, hpayload⟩
  · obtain ⟨hop, hpayload⟩ := frame_of_ofValue? hframe
    cases hop
    exact ⟨v, .list hopen hcode hcomma hspelled hclose, hpayload⟩

/-- What is read as a frame is an envelope. -/
theorem envelope_of_read {f : Frame} (h : read s = .ok (f, r)) :
    ∃ v, Envelope f.op v s r ∧ v.settled = f.payload := by
  obtain ⟨⟨w, r'⟩, hrecord, hshaped⟩ := bind_eq_ok.1 h
  obtain ⟨hframe, rfl⟩ := shaped_eq_ok.1 hshaped
  rw [show maxDepth = 126 + 1 from rfl] at hrecord
  by_cases hobject : ∃ t, token s = some '{' :: t
  · obtain ⟨t, hopen⟩ := hobject
    rw [readRecord_object hopen] at hrecord
    obtain ⟨⟨found, u⟩, hnamed, hrest⟩ := bind_eq_ok.1 hrecord
    obtain ⟨ms, harrange, hfound⟩ := bind_eq_ok.1 hrest
    cases hfound
    exact envelope_of_readNamed hopen hnamed harrange hframe
  · by_cases hlist : ∃ t, token s = some '[' :: t
    · obtain ⟨t, hopen⟩ := hlist
      rw [readRecord_array hopen] at hrecord
      obtain ⟨⟨ms, u⟩, hpositions, hfound⟩ := map_eq_ok.1 hrecord
      cases hfound
      exact envelope_of_readPositions hopen hpositions hframe
    · -- anything else is no record
      unfold readRecord at hrecord
      split at hrecord
      · cases hrecord
      · cases hrecord
      · rename_i hopen _
        exact absurd ⟨_, hopen⟩ hlist
      · rename_i hopen _
        exact absurd ⟨_, hopen⟩ hobject
      · obtain ⟨x, -, hmismatch⟩ := bind_eq_ok.1 hrecord
        cases hmismatch

/-- The code of an envelope is a number of 64 bits. -/
theorem Envelope.op_range {op : Int} (h : Envelope op v s r) :
    Word.minInt64 ≤ op ∧ op ≤ Word.maxInt64 := by
  cases h with
  | object hopen hes honce hop hpayload =>
    obtain ⟨t, u, x, -, hcode⟩ := hes.exists_of_mem _ hop
    exact hcode.2
  | bareObject hopen hes honce hop hpayload =>
    obtain ⟨t, u, x, -, hcode⟩ := hes.exists_of_mem _ hop
    exact hcode.2
  | list hopen hop hcomma hpayload hclose => exact hop.2
  | bareList hopen hop hclose => exact hop.2

/-- The payload of an envelope fits as it is kept, if its numbers are integers. -/
theorem Envelope.fits {op : Int} (h : Envelope op v s r) (hint : v.settled.Integral) :
    v.settled.Fits 126 := by
  cases h with
  | object hopen hes honce hop hpayload =>
    obtain ⟨t, u, x, -, hspelled⟩ := hes.exists_of_mem _ hpayload
    exact hspelled.fits hint
  | bareObject hopen hes honce hop hpayload => trivial
  | list hopen hop hcomma hpayload hclose => exact hpayload.fits hint
  | bareList hopen hop hclose => trivial

end

/-- the whole text is an envelope -/
def Conveys (op : Int) (v : Value) (s : Input) : Prop := ∃ r, Envelope op v s r ∧ token r = []

/-- **What is decoded is an envelope**, and every envelope is decoded as its code and its payload as
that is kept. -/
theorem decode_eq_ok {bytes : ByteArray} {f : Frame} :
    decode bytes = .ok f ↔ ∃ v, Conveys f.op v (Text.chars bytes) ∧ v.settled = f.payload := by
  unfold decode whole
  rw [bind_eq_ok]
  constructor
  · rintro ⟨⟨g, r⟩, hread, hrest⟩
    obtain ⟨_, hfinish, hfound⟩ := bind_eq_ok.1 hrest
    cases hfound
    obtain ⟨v, henvelope, hv⟩ := envelope_of_read hread
    exact ⟨v, ⟨r, henvelope, finish_eq_ok.1 hfinish⟩, hv⟩
  · rintro ⟨v, ⟨r, henvelope, hover⟩, hv⟩
    have hread := read_of_envelope henvelope
    rw [hv] at hread
    exact ⟨_, hread, bind_eq_ok.2 ⟨(), finish_eq_ok.2 hover, rfl⟩⟩

/-! ## frames that are written -/

theorem code_write {n : Int} (h : Word.minInt64 ≤ n ∧ n ≤ Word.maxInt64) :
    Faithful Code (fun n => (int n).write) n := by
  intro r hr
  have hfits : (int n).Fits 0 := fits_int h
  have hplain := plain_write hfits nofun nofun hr
  refine ⟨?_, h⟩
  rwa [hplain.token_eq]

section
variable {f : Frame}

/-- A frame is written as an envelope, its code in front of its payload. -/
theorem envelope_write (hop : Word.minInt64 ≤ f.op ∧ f.op ≤ Word.maxInt64)
    (h : f.payload.Fits 126) : Envelope f.op f.payload (Input.ofText f.toValue.write) [] := by
  let close : Input := [some '}']
  let payload := Input.ofText (writeMember write ("payload", f.payload)) ++ close
  let rest := some ',' :: payload
  let members := Input.ofText (writeMember (fun n => (int n).write) ("op", f.op)) ++ rest
  have hwritten : Input.ofText f.toValue.write = some '{' :: members := by
    simp [toValue, write, writeMembers, commaSep, writeMember, members, rest, payload, close]
  have hcode : (Entry.op f.op).Stated members rest :=
    faithful_member (m := ("op", f.op)) (code_write hop) rest (ends_cons (.inl rfl) payload)
  have hpayload : (Entry.payload f.payload).Stated payload close :=
    faithful_member (m := ("payload", f.payload)) (spelled_write h) close
      (ends_cons (.inr (.inr rfl)) [])
  have hes : Listed '}' Entry.Stated true [.op f.op, .payload f.payload] members [] :=
    ⟨members, rest, rfl, hcode, payload, close, rfl, hpayload, rfl⟩
  have honce : Once [.op f.op, .payload f.payload] :=
    show ["op", "payload"].Nodup by decide
  rw [hwritten]
  exact .object rfl hes honce List.mem_cons_self (List.mem_cons_of_mem _ List.mem_cons_self)

/-- The bytes of a frame are read as that frame, and nothing is left over. -/
theorem read_chars (hop : Word.minInt64 ≤ f.op ∧ f.op ≤ Word.maxInt64) (h : f.payload.Fits 126) :
    read (Text.chars f.text.toUTF8) = .ok (⟨f.op, f.payload.settled⟩, []) := by
  have hchars : Text.chars f.text.toUTF8 = Input.ofText f.toValue.write := by
    rw [Text.chars_toUTF8, text, render, String.toList_ofList, Input.ofText]
  rw [hchars]
  exact read_of_envelope (envelope_write hop h)

end

/-- A frame of integers is decoded from its own text. -/
theorem decode_text {f : Frame} (hop : Word.minInt64 ≤ f.op ∧ f.op ≤ Word.maxInt64)
    (hfits : f.payload.Fits 126) (hkept : f.payload.settled = f.payload) :
    decode f.text.toUTF8 = .ok f := by
  have hread := read_chars hop hfits
  rw [hkept] at hread
  exact bind_eq_ok.2 ⟨_, hread, rfl⟩

theorem decode_text_of_decode {bytes : ByteArray} {f : Frame} (h : decode bytes = .ok f)
    (hint : f.payload.Integral) : decode f.text.toUTF8 = .ok f := by
  obtain ⟨v, ⟨r, henvelope, -⟩, hv⟩ := decode_eq_ok.1 h
  rw [← hv] at hint
  have hfits := henvelope.fits hint
  rw [hv] at hfits
  refine decode_text henvelope.op_range hfits ?_
  rw [← hv, settled_settled]

end Frame

/-- **A frame has one text, however it was spelled.**  If its numbers are integers it is decoded from
its own text, which therefore is what it is encoded as again.  What can be decoded are the envelopes;
two of them are encoded alike if they have one operation and their payloads are the same value, and if
all numbers are integers in no other case. -/
theorem encoded_alike :
    (∀ (bytes : ByteArray) (f : Frame), Frame.decode bytes = .ok f → f.payload.Integral →
      Frame.decode f.text.toUTF8 = .ok f ∧
        (Frame.decode f.text.toUTF8).map (fun g => g.text.toUTF8) = .ok f.text.toUTF8) ∧
    (∀ (bytes : ByteArray) (f : Frame), Frame.decode bytes = .ok f ↔
      ∃ v, Frame.Conveys f.op v (Text.chars bytes) ∧ v.settled = f.payload) ∧
    ∀ (bytes bytes' : ByteArray) (op op' : Int) (v v' : Value),
      Frame.Conveys op v (Text.chars bytes) → Frame.Conveys op' v' (Text.chars bytes') →
      ∃ f f' : Frame, Frame.decode bytes = .ok f ∧ Frame.decode bytes' = .ok f' ∧
        (op = op' → Same v v' → f.text.toUTF8 = f'.text.toUTF8) ∧
        (f.payload.Integral → f'.payload.Integral → f.text.toUTF8 = f'.text.toUTF8 →
          op = op' ∧ Same v v') := by
  refine ⟨?_, fun bytes f => Frame.decode_eq_ok, ?_⟩
  · intro bytes f hdecode hint
    have hagain := Frame.decode_text_of_decode hdecode hint
    refine ⟨hagain, ?_⟩
    rw [hagain]
    rfl
  · intro bytes bytes' op op' v v' hv hv'
    have hdecode : Frame.decode bytes = .ok ⟨op, v.settled⟩ := Frame.decode_eq_ok.2 ⟨v, hv, rfl⟩
    have hdecode' : Frame.decode bytes' = .ok ⟨op', v'.settled⟩ :=
      Frame.decode_eq_ok.2 ⟨v', hv', rfl⟩
    refine ⟨_, _, hdecode, hdecode', ?_, ?_⟩
    · rintro rfl hsame
      rw [settled_eq_iff.2 hsame]
    · intro hint hint' htext
      have hagain := Frame.decode_text_of_decode hdecode hint
      rw [htext, Frame.decode_text_of_decode hdecode' hint'] at hagain
      have hframe := Except.ok.inj hagain
      exact ⟨(congrArg Frame.op hframe).symm,
        settled_eq_iff.1 (congrArg Frame.payload hframe).symm⟩

theorem encoded_alike_sample :
    let one := (String.ofList ['[', '1', ',', '{', '"', 'b', '"', ':', '-', '7', ',', '"', 'a', '"',
      ':', '0', ',', '"', 'a', '"', ':', '3', '}', ']']).toUTF8
    let other := (String.ofList ['{', ' ', '"', 'p', 'a', 'y', 'l', 'o', 'a', 'd', '"', ':', '{', '"',
      '\\', 'u', '0', '0', '6', '1', '"', ' ', ':', '3', ',', '"', 'b', '"', ':', '-', '7', '}', ',', '"',
      'x', '"', ':', '[', ']', ',', '"', 'o', 'p', '"', ':', '1', '}', '\n']).toUTF8
    let f : Frame := ⟨1, .object [("a", .int 3), ("b", .int (-7))]⟩
    Frame.decode one = .ok f ∧ Frame.decode other = .ok f ∧ f.payload.Integral ∧
      Frame.decode f.text.toUTF8 = .ok f ∧
      ∃ v v', Frame.Conveys 1 v (Text.chars one) ∧ Frame.Conveys 1 v' (Text.chars other) ∧
        Same v v' ∧ ∃ g g' : Frame, Frame.decode one = .ok g ∧ Frame.decode other = .ok g' ∧
          g.text.toUTF8 = g'.text.toUTF8 := by
  intro one other f
  have hone : Frame.decode one = .ok f := by
    rw [Frame.decode, Text.chars_toUTF8, String.toList_ofList]
    rfl
  have hother : Frame.decode other = .ok f := by
    rw [Frame.decode, Text.chars_toUTF8, String.toList_ofList]
    rfl
  have hint : f.payload.Integral := by
    refine .object fun m hm => ?_
    rcases List.mem_cons.1 hm with rfl | hm
    · exact .int (by decide) (by decide)
    · rw [List.mem_singleton.1 hm]
      exact .int (by decide) (by decide)
  obtain ⟨hagain, hspells, halike⟩ := encoded_alike
  obtain ⟨v, hv, hpayload⟩ := (hspells one f).1 hone
  obtain ⟨v', hv', hpayload'⟩ := (hspells other f).1 hother
  have hsame : Same v v' := settled_eq_iff.1 (hpayload.trans hpayload'.symm)
  obtain ⟨g, g', hg, hg', htext, -⟩ := halike one other 1 1 v v' hv hv'
  exact ⟨hone, hother, hint, (hagain one f hone hint).1, v, v', hv, hv', hsame, g, g', hg, hg',
    htext rfl hsame⟩

end Matchmaker.Protocol
