import Mathlib
import ContainerUsage.Proofs.Commuting
import ContainerUsage.Proofs.Wire.Front

/-!
# Bodies as sequences of records

A body without groups is a sequence of records, and what each of them does to the message depends on
its own bytes only. So a body is read by one step a record (`Schema.mergeUntil_body`), and what is
known about steps can be said about bodies.

* A record of a field that nobody declared changes nothing, and records of two declared fields can
  be read in either order (`Schema.Steady`). So a body is read as its records of each declared field
  say (`Schema.Steady.foldlM_eq`).
* A record with a message does what the body of this message says (`Field.Nests.after_eq`), so its
  body can be replaced by one that is read in the same way.
-/

namespace ContainerUsage.Wire

variable {M V : Type}

/-! ## Records -/

/-- The value of a record that is no group. -/
def IsValue : WireType → Bytes → Prop
  | .varint, value => ∃ v, readNumber value = .ok (v, [])
  | .sixtyFourBit, value => value.length = 8
  | .thirtyTwoBit, value => value.length = 4
  | .lengthDelimited, value => ∃ bytes, Delimited value bytes []
  | .startGroup, _ => False
  | .endGroup, _ => False

/-- The start of a group is no value. -/
theorem IsValue.ne_startGroup {type : WireType} {value : Bytes} (h : IsValue type value) :
    type ≠ .startGroup := by
  rintro rfl
  exact h

/-- A value ends where it is skipped to. -/
theorem IsValue.skipValue {type : WireType} {value : Bytes} (h : IsValue type value)
    (rest : Bytes) :
    skipValue type (value ++ rest) = .ok rest := by
  suffices Wire.skipValue type value = .ok [] from
    ((fromFront_skipValue type).append_iff (a := ()) rest).2 this
  cases type with
  | varint =>
    obtain ⟨v, hv⟩ := h
    simp [Wire.skipValue, hv, Except.map]
  | sixtyFourBit => exact skipBytes_eq_ok_iff.2 ⟨value, (List.append_nil value).symm, h⟩
  | thirtyTwoBit => exact skipBytes_eq_ok_iff.2 ⟨value, (List.append_nil value).symm, h⟩
  | lengthDelimited => exact skipValue_delimited.2 h
  | startGroup | endGroup => exact h.elim

/-- A record that is no group: a key, in any of the ways to write it, and a value. -/
structure Record where
  key : Key
  head : Bytes
  value : Bytes
  read_head : Key.read head = .ok (key, [])
  isValue : IsValue key.type value

namespace Record

/-- The bytes of a record: those of its key, and those of its value. -/
def bytes (r : Record) : Bytes := r.head ++ r.value

/-- The body that consists of some records. -/
def body (rs : List Record) : Bytes := rs.flatMap bytes

/-- A record that holds some bytes, for example a message. -/
def Holds (r : Record) (bytes : Bytes) : Prop :=
  r.key.type = .lengthDelimited ∧ Delimited r.value bytes []

/-- A record is not empty. -/
theorem bytes_ne_nil (r : Record) : r.bytes ≠ [] := by
  have hlength := Key.length_of_read r.read_head
  intro hnil
  rw [(List.append_eq_nil_iff.1 hnil).1] at hlength
  exact Nat.not_lt_zero _ hlength

/-- The key is read from the front of a record, and leaves the value. -/
theorem read_bytes (r : Record) (rest : Bytes) :
    Key.read (r.bytes ++ rest) = .ok (r.key, r.value ++ rest) := by
  have hread := (Key.fromFront_read.append_iff (r.value ++ rest)).2 r.read_head
  rwa [List.nil_append, ← List.append_assoc] at hread

end Record

/-! ## One step -/

/-- The value after one more record, if it is accepted. -/
def Codec.after (codec : Codec V) (depth : Nat) (type : WireType) (v : V)
    (value : Bytes) : Option V :=
  match codec.merge depth type v value with
  | .ok (v', []) => some v'
  | _ => none

/-- What a value makes of the one before, if the codec reads it as a whole. -/
theorem Codec.after_eq_some_iff {codec : Codec V} {depth : Nat} {type : WireType} {v v' : V}
    {value : Bytes} : codec.after depth type v value = some v' ↔
      codec.merge depth type v value = .ok (v', []) := by
  unfold after
  split <;> grind

/-- The message after one more record of a field, if it is accepted. -/
def Field.after (field : Field M) (depth : Nat) (type : WireType) (m : M)
    (value : Bytes) : Option M :=
  match field.merge depth type m value with
  | .ok (m', []) => some m'
  | _ => none

/-- What a value makes of a message, if the field reads it as a whole. -/
theorem Field.after_eq_some_iff {field : Field M} {depth : Nat} {type : WireType} {m m' : M}
    {value : Bytes} : field.after depth type m value = some m' ↔
      field.merge depth type m value = .ok (m', []) := by
  unfold after
  split <;> grind

/-- A field changes the slot that it belongs to. -/
theorem Field.after_of {tag : Nat} {name : String} {codec : Codec V} {slot : Slot M V} {depth : Nat}
    {type : WireType} {m : M} {value : Bytes} :
    (Field.of tag name codec slot).after depth type m value =
      (codec.after depth type (slot.get m) value).map (slot.set m) := by
  ext m'
  simp only [after_eq_some_iff, merge_of_eq_ok_iff, Option.map_eq_some_iff, Codec.after_eq_some_iff,
    eq_comm (a := m')]

namespace Schema

variable {s : Schema M} {depth : Nat}

/-- The message after one more record, if it is accepted. A record of a field that nobody declared
is skipped. -/
def after (s : Schema M) (depth : Nat) (m : M) (r : Record) : Option M :=
  match s.field? r.key.tag with
  | some field => field.after depth r.key.type m r.value
  | none => if depth = 0 then none else some m

/-- A record with the tag of a field does what the field does with its value. -/
theorem after_of_declared {r : Record} {field : Field M}
    (h : s.field? r.key.tag = some field) (m : M) :
    s.after depth m r = field.after depth r.key.type m r.value := by
  simp [after, h]

/-- A record with any other tag does nothing. -/
theorem after_of_undeclared {r : Record} (h : s.field? r.key.tag = none)
    (hdepth : depth ≠ 0) (m : M) :
    s.after depth m r = some m := by
  simp [after, h, hdepth]

/-- Reading the value of a record takes the value, and does what the record does. -/
theorem mergeRecord_value (h : s.Framed) {r : Record} {m m' : M} {rest left : Bytes} :
    s.mergeRecord depth r.key m (r.value ++ rest) = .ok (m', left) ↔
      s.after depth m r = some m' ∧ left = rest := by
  have hskip := r.isValue.skipValue rest
  cases hfield : s.field? r.key.tag with
  | none =>
    rw [mergeRecord_of_undeclared hfield]
    unfold skip after
    by_cases hdepth : depth = 0
    · simp [hfield, hdepth]
    · simp [hfield, hdepth, r.isValue.ne_startGroup, hskip, and_comm, eq_comm]
  | some field =>
    have hframed := h field (List.mem_of_find?_eq_some hfield)
    have happend : field.merge depth r.key.type m (r.value ++ rest) = .ok (m', [] ++ rest) ↔
        field.merge depth r.key.type m r.value = .ok (m', []) :=
      (hframed.fromFront depth r.key.type m).append_iff rest
    rw [List.nil_append] at happend
    rw [mergeRecord_of_declared hfield, after_of_declared hfield,
      Field.after_eq_some_iff, ← happend]
    constructor
    · intro hmerge
      obtain rfl : rest = left := Except.ok.inj (hskip.symm.trans (hframed.skips hmerge))
      exact ⟨hmerge, rfl⟩
    · rintro ⟨hmerge, rfl⟩
      exact hmerge

/-- **A body is read by one step a record.** -/
theorem mergeUntil_body (h : s.Framed) {rs : List Record} {m m' : M} :
    s.mergeUntil depth 0 m (Record.body rs) = .ok (m', []) ↔
      rs.foldlM (s.after depth) m = some m' := by
  induction rs generalizing m with
  | nil =>
    have hbody : Record.body [] = [] := rfl
    rw [hbody, mergeUntil_eq_ok_iff]
    simp [eq_comm]
  | cons r rs ih =>
    have hbody : Record.body (r :: rs) = r.bytes ++ Record.body rs := List.flatMap_cons
    have hpos : 0 < (r.bytes ++ Record.body rs).length :=
      List.length_pos_of_ne_nil (List.append_ne_nil_of_left_ne_nil r.bytes_ne_nil _)
    rw [hbody, mergeUntil_eq_ok_iff, r.read_bytes, List.foldlM_cons,
      or_iff_right fun hnil => Nat.ne_of_gt hpos hnil.1, and_iff_right hpos]
    simp [mergeRecord_value h, ih, Option.bind_eq_some_iff]

/-- A message is read from records as their steps say. -/
theorem read_body (h : s.Framed) {rs : List Record} {m : M} :
    s.read (Record.body rs) = .ok m ↔ rs.foldlM (s.after maxDepth) s.empty = some m := by
  rw [← mergeUntil_body h, read]
  cases hmerge : s.mergeUntil maxDepth 0 s.empty (Record.body rs) with
  | error cause => exact iff_of_false nofun nofun
  | ok result =>
    obtain ⟨m', rest⟩ := result
    obtain rfl : rest = [] := List.eq_nil_of_length_eq_zero (length_of_mergeUntil hmerge).1
    simp [Except.map]

end Schema

/-! ## Steps of different fields -/

/-- Records of two fields can be read in either order. -/
def Field.Commutes (field other : Field M) : Prop :=
  ∀ depth type type' m value value',
    (field.after depth type m value).bind (other.after depth type' · value') =
      (other.after depth type' m value').bind (field.after depth type · value)

instance : Std.Symm (Field.Commutes (M := M)) where
  symm _ _ h depth type type' m value value' := (h depth type' type m value' value).symm

/-- Fields that are kept in different places can be read in either order. -/
@[simp] theorem Field.commutes_of {W : Type} {tag tag' : Nat} {name name' : String}
    {codec : Codec V} {codec' : Codec W} {slot : Slot M V} {slot' : Slot M W}
    (h : ∀ m v, slot'.get (slot.set m v) = slot'.get m)
    (h' : ∀ m v, slot.get (slot'.set m v) = slot.get m)
    (hset : ∀ m v w, slot'.set (slot.set m v) w = slot.set (slot'.set m w) v) :
    (Field.of tag name codec slot).Commutes (Field.of tag' name' codec' slot') := by
  intro depth type type' m value value'
  simp only [after_of]
  cases hv : codec.after depth type (slot.get m) value <;>
    cases hw : codec'.after depth type' (slot'.get m) value' <;> simp [h, h', hset, hv, hw]

namespace Schema

variable {s : Schema M} {depth : Nat}

/-- Records of fields that nobody declared can be left out. -/
theorem foldlM_filter_declared (hdepth : depth ≠ 0) (rs : List Record) (m : M) :
    (rs.filter fun r => (s.field? r.key.tag).isSome).foldlM (s.after depth) m =
      rs.foldlM (s.after depth) m := by
  induction rs generalizing m with
  | nil => rfl
  | cons r rs ih =>
    cases hfield : s.field? r.key.tag with
    | none => simp [hfield, after_of_undeclared hfield hdepth, ih]
    | some field =>
      simp only [hfield, Option.isSome_some, List.filter_cons_of_pos, List.foldlM_cons]
      exact bind_congr ih

/-- Reading the records of a field neither depends on what is behind them nor on those of other
fields. -/
structure Steady (s : Schema M) : Prop where
  framed : s.Framed
  commute : s.fields.Pairwise Field.Commutes

namespace Steady

/-- Records with different tags can be merged in either order. -/
theorem commuting (h : s.Steady) (depth : Nat) :
    Commuting (s.after depth) fun r : Record => r.key.tag := by
  -- a record that is skipped does the same at any place
  have hskipped : ∀ {r : Record}, s.field? r.key.tag = none → ∀ (next : M → Option M) (m : M),
      (s.after depth m r).bind next = (next m).bind (s.after depth · r) := by
    intro r hfield next m
    by_cases hdepth : depth = 0
    · simp [after, hfield, hdepth]
    · simp [after_of_undeclared hfield hdepth]
  intro r r' hne m
  cases hfield : s.field? r.key.tag with
  | none => exact hskipped hfield (s.after depth · r') m
  | some field =>
    cases hother : s.field? r'.key.tag with
    | none => exact (hskipped hother (s.after depth · r) m).symm
    | some other =>
      have htag : field.tag = r.key.tag := by simpa using List.find?_some hfield
      have htag' : other.tag = r'.key.tag := by simpa using List.find?_some hother
      have hfields : field ≠ other := by
        rintro rfl
        exact hne (htag.symm.trans htag')
      have hcommutes := h.commute.forall (List.mem_of_find?_eq_some hfield)
        (List.mem_of_find?_eq_some hother) hfields
      simp only [after_of_declared hfield, after_of_declared hother]
      exact hcommutes depth r.key.type r'.key.type m r.value r'.value

/-- **A body is read as its records of each declared field say**, whatever their order is and
whatever stands between them. -/
theorem foldlM_eq (h : s.Steady) (hdepth : depth ≠ 0) {rs rs' : List Record}
    (heq : ∀ field ∈ s.fields,
      rs.filter (·.key.tag = field.tag) = rs'.filter (·.key.tag = field.tag)) (m : M) :
    rs.foldlM (s.after depth) m = rs'.foldlM (s.after depth) m := by
  rw [← foldlM_filter_declared hdepth rs, ← foldlM_filter_declared hdepth rs']
  refine (h.commuting depth).foldlM_eq_of_filter_eq (fun tag => ?_) m
  simp only [List.filter_filter]
  cases hfield : s.field? tag with
  | none =>
    have hnone : ∀ r : Record, (decide (r.key.tag = tag) && (s.field? r.key.tag).isSome) =
        false := by
      intro r
      by_cases htag : r.key.tag = tag <;> simp [htag, hfield]
    simp only [hnone]
    simp
  | some field =>
    have htag : field.tag = tag := by simpa using List.find?_some hfield
    have hsome : ∀ r : Record,
        (decide (r.key.tag = tag) && (s.field? r.key.tag).isSome) =
          decide (r.key.tag = field.tag) := by
      intro r
      by_cases hr : r.key.tag = tag <;> simp [hr, htag, hfield]
    simp only [hsome]
    exact heq field (List.mem_of_find?_eq_some hfield)

end Steady

end Schema

/-! ## Messages inside messages -/

/-- Bytes and their length in front of them are read in one way only. -/
theorem Delimited.unique {input bytes bytes' : Bytes} (h : Delimited input bytes [])
    (h' : Delimited input bytes' []) : bytes = bytes' := by
  obtain ⟨count, mid, hread, hmid, -⟩ := h
  obtain ⟨count', mid', hread', hmid', -⟩ := h'
  obtain ⟨-, rfl⟩ := Prod.mk.inj (Except.ok.inj (hread.symm.trans hread'))
  exact List.append_cancel_right (hmid.symm.trans hmid')

namespace Codec

variable {s : Schema M} {depth : Nat} {value value' bytes bytes' : Bytes}

/-- A message inside a message is merged from the bytes that are delimited. -/
theorem mergeMessage_delimited (h : s.Framed) (hvalue : Delimited value bytes []) {m m' : M} :
    mergeMessage s (depth + 1) .lengthDelimited m value = .ok (m', []) ↔
      s.mergeUntil depth 0 m bytes = .ok (m', []) := by
  rw [mergeMessage_eq_ok_iff h]
  constructor
  · rintro ⟨body, hbody, -, inner, hdepth, hmerge⟩
    obtain rfl := Nat.succ.inj hdepth
    rwa [hvalue.unique hbody]
  · intro hmerge
    exact ⟨bytes, hvalue, rfl, depth, rfl, hmerge⟩

/-- A record with a message does what the body of this message says. -/
theorem after_message (h : s.Framed) (hvalue : Delimited value bytes [])
    (hvalue' : Delimited value' bytes' [])
    (heq : ∀ m m', s.mergeUntil depth 0 m bytes = .ok (m', []) ↔
      s.mergeUntil depth 0 m bytes' = .ok (m', [])) (v : Option M) :
    (message s).after (depth + 1) .lengthDelimited v value =
      (message s).after (depth + 1) .lengthDelimited v value' := by
  ext v'
  simp only [after_eq_some_iff, merge_message_eq_ok_iff, mergeMessage_delimited h hvalue,
    mergeMessage_delimited h hvalue', heq]

/-- A record with one message of a list does what the body of this message says. -/
theorem after_messages (h : s.Framed) (hvalue : Delimited value bytes [])
    (hvalue' : Delimited value' bytes' [])
    (heq : ∀ m m', s.mergeUntil depth 0 m bytes = .ok (m', []) ↔
      s.mergeUntil depth 0 m bytes' = .ok (m', [])) (v : List M) :
    (messages s).after (depth + 1) .lengthDelimited v value =
      (messages s).after (depth + 1) .lengthDelimited v value' := by
  ext v'
  simp only [after_eq_some_iff, merge_messages_eq_ok_iff,
    mergeMessage_delimited h hvalue, mergeMessage_delimited h hvalue', heq]

end Codec

/-- The values of a field are messages of another type: one, or a list of them. -/
def Field.Nests {N : Type} (field : Field M) (inner : Schema N) : Prop :=
  (∃ tag name slot, field = .of tag name (.message inner) slot) ∨
    ∃ tag name slot, field = .of tag name (.messages inner) slot

/-- A record of a field with messages does what the body of its message says. -/
theorem Field.Nests.after_eq {N : Type} {field : Field M} {inner : Schema N} (h : field.Nests inner)
    (hinner : inner.Framed) {depth : Nat} {value value' bytes bytes' : Bytes}
    (hvalue : Delimited value bytes []) (hvalue' : Delimited value' bytes' [])
    (heq : ∀ n n', inner.mergeUntil depth 0 n bytes = .ok (n', []) ↔
      inner.mergeUntil depth 0 n bytes' = .ok (n', [])) (m : M) :
    field.after (depth + 1) .lengthDelimited m value =
      field.after (depth + 1) .lengthDelimited m value' := by
  rcases h with ⟨tag, name, slot, rfl⟩ | ⟨tag, name, slot, rfl⟩
  · rw [after_of, after_of, Codec.after_message hinner hvalue hvalue' heq]
  · rw [after_of, after_of, Codec.after_messages hinner hvalue hvalue' heq]

end ContainerUsage.Wire
