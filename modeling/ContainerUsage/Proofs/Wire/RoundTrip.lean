import Mathlib
import ContainerUsage.Proofs.Wire.Size

/-!
# Reading what was written

A message is written field by field, and the records of a field are read back into the value of this
field alone. So reading a written body fills a message without fields step by step, in the order of
the fields, until it is the message that was written.

* `Codec.Restores` says this of one field: the records of a value lead from a blank value to that
  value (`Codec.Records`).
* `Schema.Lawful` is what a schema needs: its fields are told apart by their numbers, none of them
  touches another, and filling them one after the other gives the message (`Schema.Fills`).
  `Codec.Lawful` is what a codec needs. Messages inside messages have it if their schema is lawful,
  and a schema whose fields are numbers has it at any depth (`Schema.Numeric.lawful`).
* `Schema.Lawful.mergeUntil_write` is the round trip of a body, whatever follows it, and
  `Schema.Lawful.compact` says that a body that was read takes no more room when it is written
  again.

Lengths are written as numbers of 64 bits, so all this is about bodies that have such a length.
-/

namespace ContainerUsage.Wire

variable {M V : Type} {depth tag : Nat}

/-! ## The records of a field -/

namespace Codec

/-- The records of a field that lead from one value to another when they are read in order. -/
inductive Records (codec : Codec V) (depth tag : Nat) : V → Bytes → V → Prop where
  | nil (v : V) : Records codec depth tag v [] v
  | cons {v v' w : V} {type : WireType} {value bytes : Bytes} :
      (∀ rest, codec.merge depth type v (value ++ rest) = .ok (v', rest)) →
      Records codec depth tag v' bytes w →
      Records codec depth tag v (Key.write ⟨tag, type⟩ ++ value ++ bytes) w

/-- What is written for a value leads from a blank value to it. -/
def Restores (codec : Codec V) (depth : Nat) (blank : V) : Prop :=
  ∀ tag v, (codec.write tag v).length < UInt64.size →
    codec.Records depth tag blank (codec.write tag v) v

/-- One record. -/
theorem Records.single {codec : Codec V} {v v' : V} {type : WireType} {value : Bytes}
    (h : ∀ rest, codec.merge depth type v (value ++ rest) = .ok (v', rest)) :
    codec.Records depth tag v (Key.write ⟨tag, type⟩ ++ value) v' := by
  rw [← List.append_nil (_ ++ value)]
  exact .cons h (.nil v')

/-- The records of a number lead from zero to it. -/
theorem restores_number (depth : Nat) : number.Restores depth 0 := by
  intro tag v _
  show number.Records depth tag 0 (if v = 0 then [] else _) v
  split
  · next hzero =>
    rw [hzero]
    exact .nil 0
  · apply Records.single
    intro rest
    show expect .varint .varint (readNumber _) = _
    rw [expect, if_pos rfl, readNumber_write]

/-- A text that is preceded by its length is read back. -/
theorem readText_writeDelimited {s : String} (h : (Utf8.encode s).length < UInt64.size)
    (rest : Bytes) : readText (writeDelimited (Utf8.encode s) ++ rest) = .ok (s, rest) := by
  rw [readText, readLength_writeDelimited h]
  dsimp only
  rw [List.take_left, Utf8.decode?_encode, List.drop_left]

/-- The records of a text lead from the empty text to it. -/
theorem restores_text (depth : Nat) : text.Restores depth "" := by
  intro tag s
  show (if s = "" then [] else _ : Bytes).length < _ →
    text.Records depth tag "" (if s = "" then [] else _) s
  split
  · next hempty =>
    intro _
    rw [hempty]
    exact .nil ""
  · intro hlength
    apply Records.single
    intro rest
    rw [List.length_append] at hlength
    have hbody := length_le_length_writeDelimited (Utf8.encode s)
    show expect .lengthDelimited .lengthDelimited (readText _) = _
    rw [expect, if_pos rfl, readText_writeDelimited (by omega)]

/-- The laws of the values of a field at a depth. A blank value is not written, what is written
leads from the blank value to the one that was written, and it takes no more room than was read. -/
structure Lawful (codec : Codec V) (depth : Nat) (blank : V) : Prop where
  write_blank : ∀ tag, codec.write tag blank = []
  restores : codec.Restores depth blank
  compact : codec.Compact

/-- Numbers are lawful at any depth. -/
theorem lawful_number (depth : Nat) : number.Lawful depth 0 :=
  ⟨fun _ => rfl, restores_number depth, compact_number⟩

/-- Texts are lawful at any depth. -/
theorem lawful_text (depth : Nat) : text.Lawful depth "" :=
  ⟨fun _ => rfl, restores_text depth, compact_text⟩

end Codec

/-! ## The fields of a message -/

namespace Schema

variable {s : Schema M}

/-- Reading goes on after the record of a declared field. -/
theorem mergeUntil_record {field : Field M} (hfield : s.field? tag = some field) (hpos : 0 < tag)
    (hle : tag ≤ Key.maxTag) {limit : Nat} {type : WireType} {m m' : M} {value rest : Bytes}
    (hmerge : field.merge depth type m (value ++ rest) = .ok (m', rest))
    (hlimit : limit ≤ rest.length) :
    s.mergeUntil depth limit m (Key.write ⟨tag, type⟩ ++ value ++ rest) =
      s.mergeUntil depth limit m' rest := by
  have hkey := Key.read_write ⟨tag, type⟩ hpos hle (value ++ rest)
  have hrecord : s.mergeRecord depth ⟨tag, type⟩ m (value ++ rest) = .ok (m', rest) := by
    rw [mergeRecord, hfield]
    dsimp only
    rw [hmerge]
    rfl
  have hshort : rest.length < (Key.write ⟨tag, type⟩ ++ value ++ rest).length := by
    have hread := Key.length_of_read hkey
    simp only [List.length_append] at hread ⊢
    omega
  rw [← List.append_assoc] at hkey
  rw [mergeUntil, if_pos (Nat.lt_of_le_of_lt hlimit hshort)]
  split
  · next herror => cases hkey.symm.trans herror
  · next key input hread =>
    obtain ⟨rfl, rfl⟩ := Prod.mk.inj (Except.ok.inj (hkey.symm.trans hread))
    split
    · next herror => cases hrecord.symm.trans herror
    · next next input hnext =>
      obtain ⟨rfl, rfl⟩ := Prod.mk.inj (Except.ok.inj (hrecord.symm.trans hnext))
      rfl

/-- Reading goes on after all records of a declared field. -/
theorem mergeUntil_records {name : String} {codec : Codec V} {slot : Slot M V}
    (hfield : s.field? tag = some (.of tag name codec slot)) (hpos : 0 < tag)
    (hle : tag ≤ Key.maxTag) {v v' : V} {bytes : Bytes} (h : codec.Records depth tag v bytes v')
    {limit : Nat} (m : M) {rest : Bytes} (hlimit : limit ≤ rest.length) :
    s.mergeUntil depth limit (slot.set m v) (bytes ++ rest) =
      s.mergeUntil depth limit (slot.set m v') rest := by
  induction h with
  | nil v => rfl
  | @cons v v' w type value bytes hmerge _ ih =>
    rw [List.append_assoc]
    refine (mergeUntil_record hfield hpos hle ?_ ?_).trans ih
    · apply Field.merge_of_eq_ok_iff.2
      refine ⟨v', ?_, (slot.set_set m v v').symm⟩
      rw [slot.get_set]
      exact hmerge _
    · rw [List.length_append]
      exact Nat.le_add_left_of_le hlimit

/-- Fields that are blank in a message `acc` until each of them is filled with its value in `m`,
which then gives `m`. -/
inductive Fills (depth : Nat) (m : M) : M → List (Field M) → Prop where
  | nil : Fills depth m m []
  | cons {V : Type} {tag : Nat} {name : String} {codec : Codec V} {slot : Slot M V} {blank : V}
      {acc : M} {fields : List (Field M)} (hcodec : codec.Lawful depth blank)
      (hblank : slot.get acc = blank) (hfields : Fills depth m (slot.set acc (slot.get m)) fields) :
      Fills depth m acc (.of tag name codec slot :: fields)

/-- What a table of fields has to keep: each field has a number of its own, and none of them touches
another. -/
structure Table (s : Schema M) : Prop where
  nodup : (s.fields.map Field.tag).Nodup
  range : ∀ field ∈ s.fields, 0 < field.tag ∧ field.tag ≤ Key.maxTag
  apart : s.fields.Pairwise Field.Apart

/-- The laws of a message type at a depth. -/
structure Lawful (s : Schema M) (depth : Nat) : Prop extends s.Table where
  fills : ∀ m, Fills depth m s.empty s.fields

namespace Lawful

/-- A declared field is found by its number. -/
theorem field?_of_mem (h : s.Lawful depth) {field : Field M} (hmem : field ∈ s.fields) :
    s.field? field.tag = some field := by
  cases hfound : s.field? field.tag with
  | none => exact absurd (decide_eq_true rfl) (List.find?_eq_none.1 hfound field hmem)
  | some other =>
    have htag : other.tag = field.tag := by simpa using List.find?_some hfound
    rw [List.inj_on_of_nodup_map h.nodup (List.mem_of_find?_eq_some hfound) hmem htag]

/-- Reading the records of fields that are blank fills them. -/
theorem mergeUntil_fields (h : s.Lawful depth) {m acc : M} {fields : List (Field M)}
    (hfills : Fills depth m acc fields) (hsub : fields ⊆ s.fields)
    (hlength : (fields.flatMap fun field => field.write m).length < UInt64.size) (rest : Bytes) :
    s.mergeUntil depth rest.length acc ((fields.flatMap fun field => field.write m) ++ rest) =
      .ok (m, rest) := by
  induction hfills with
  | nil =>
    rw [List.flatMap_nil, List.nil_append, mergeUntil, if_neg (Nat.lt_irrefl _), if_pos rfl]
  | @cons V tag name codec slot blank acc fields hcodec hblank _ ih =>
    rw [List.flatMap_cons] at hlength ⊢
    rw [List.length_append] at hlength
    have hmem := hsub List.mem_cons_self
    obtain ⟨hpos, hle⟩ := h.range _ hmem
    have hrecords :=
      hcodec.restores tag (slot.get m) (Nat.lt_of_le_of_lt (Nat.le_add_right _ _) hlength)
    have hstart : slot.set acc blank = acc := by rw [← hblank, slot.set_get]
    have hrest : rest.length ≤ ((fields.flatMap fun field => field.write m) ++ rest).length := by
      rw [List.length_append]
      exact Nat.le_add_left _ _
    have hfirst := mergeUntil_records (h.field?_of_mem hmem) hpos hle hrecords acc hrest
    rw [hstart] at hfirst
    rw [List.append_assoc]
    refine hfirst.trans (ih (List.Subset.trans (List.subset_cons_self _ _) hsub) ?_)
    exact Nat.lt_of_le_of_lt (Nat.le_add_left _ _) hlength

/-- **A body is read back as the message that was written**, whatever follows it. -/
theorem mergeUntil_write (h : s.Lawful depth) {m : M}
    (hlength : (s.write m).length < UInt64.size) (rest : Bytes) :
    s.mergeUntil depth rest.length s.empty (s.write m ++ rest) = .ok (m, rest) :=
  h.mergeUntil_fields (h.fills m) (List.Subset.refl _) hlength rest

/-- A message is read back from its body. -/
theorem read_write (h : s.Lawful maxDepth) {m : M} (hlength : (s.write m).length < UInt64.size) :
    s.read (s.write m) = .ok m := by
  have hread := h.mergeUntil_write hlength []
  rw [List.append_nil, List.length_nil] at hread
  rw [read, hread]
  rfl

/-- A lawful message type is compact, since its fields are and none of them touches another. -/
theorem compact (h : s.Lawful depth) : s.Compact := by
  suffices ∀ {m acc fields}, Fills depth m acc fields → ∀ field ∈ fields, Field.Compact field from
    compact_of_fields h.apart (this (h.fills s.empty))
  intro m acc fields hfills
  induction hfills with
  | nil => exact List.forall_mem_nil _
  | cons hcodec _ _ ih => exact List.forall_mem_cons.2 ⟨Field.compact_of hcodec.compact, ih⟩

/-- Nothing is written for a message without fields. -/
theorem write_empty (h : s.Lawful depth) : s.write s.empty = [] := by
  suffices ∀ {m acc fields}, Fills depth m acc fields → m = acc →
      (fields.flatMap fun field => field.write m) = [] from this (h.fills s.empty) rfl
  intro m acc fields hfills
  induction hfills with
  | nil => exact fun _ => rfl
  | @cons V tag name codec slot blank acc fields hcodec hblank _ ih =>
    rintro rfl
    rw [List.flatMap_cons, ih (slot.set_get m).symm, List.append_nil]
    show codec.write tag (slot.get m) = []
    rw [hblank, hcodec.write_blank]

/-- A message that was read takes no more room when it is written again. -/
theorem length_write_of_read (h : s.Lawful depth) {body : Bytes} {m : M}
    (hread : s.read body = .ok m) (hlength : body.length < UInt64.size) :
    (s.write m).length ≤ body.length :=
  h.compact.length_write_of_read h.write_empty hread hlength

end Lawful

/-! ## Messages of numbers -/

/-- Numbers that are zero in a message `acc` until each of them is set as it is in `m`, which then
gives `m`. -/
inductive Counts (m : M) : M → List (Field M) → Prop where
  | nil : Counts m m []
  | cons {tag : Nat} {name : String} {slot : Slot M UInt64} {acc : M} {fields : List (Field M)}
      (hzero : slot.get acc = 0) (hfields : Counts m (slot.set acc (slot.get m)) fields) :
      Counts m acc (.of tag name .number slot :: fields)

namespace Counts

variable {m acc : M} {fields : List (Field M)}

/-- Fields of numbers are filled one after the other. -/
theorem fills (h : Counts m acc fields) (depth : Nat) : Fills depth m acc fields := by
  induction h with
  | nil => exact .nil
  | cons hzero _ ih => exact .cons (Codec.lawful_number depth) hzero ih

/-- The fields that are counted are fields of numbers. -/
theorem exists_of_mem (h : Counts m acc fields) :
    ∀ field ∈ fields, ∃ tag name slot, field = .of tag name .number slot := by
  induction h with
  | nil => exact List.forall_mem_nil _
  | cons _ _ ih => exact List.forall_mem_cons.2 ⟨⟨_, _, _, rfl⟩, ih⟩

end Counts

/-- A message type whose fields are numbers. -/
structure Numeric (s : Schema M) : Prop extends s.Table where
  counts : ∀ m, Counts m s.empty s.fields

namespace Numeric

/-- A message of numbers has nothing below it. -/
theorem lawful (h : s.Numeric) (depth : Nat) : s.Lawful depth :=
  ⟨h.toTable, fun m => (h.counts m).fills depth⟩

/-- A message of numbers is never too long. -/
theorem length_write_le (h : s.Numeric) (m : M) : (s.write m).length ≤ s.fields.length * 20 := by
  refine Schema.length_write_le 20 fun field hmem => ?_
  have hrange := h.range field hmem
  obtain ⟨tag, name, slot, rfl⟩ := (h.counts s.empty).exists_of_mem field hmem
  exact Field.length_write_number_le hrange.2 m

end Numeric

end Schema

/-! ## Messages inside messages -/

namespace Codec

variable {s : Schema M}

/-- A message inside a message is read back into a message without fields. -/
theorem mergeMessage_writeDelimited (h : s.Lawful depth) {m : M}
    (hlength : (s.write m).length < UInt64.size) (rest : Bytes) :
    mergeMessage s (depth + 1) .lengthDelimited s.empty (writeDelimited (s.write m) ++ rest) =
      .ok (m, rest) := by
  show s.mergeDelimited depth s.empty _ = _
  rw [Schema.mergeDelimited, readLength_writeDelimited hlength]
  dsimp only
  rw [List.length_append, Nat.add_sub_cancel_left]
  exact h.mergeUntil_write hlength rest

/-- The record of a message inside a message leads from nothing to it. -/
theorem restores_message (h : s.Lawful depth) : (message s).Restores (depth + 1) none := by
  intro tag v hlength
  cases v with
  | none => exact .nil none
  | some m =>
    have hbody := length_write_le_writeMessage s tag m
    apply Records.single
    intro rest
    have hread := mergeMessage_writeDelimited h (Nat.lt_of_le_of_lt hbody hlength) rest
    exact merge_message_eq_ok_iff.2 ⟨m, hread, rfl⟩

/-- The records of a list of messages, one for each, lead from the empty list to it. -/
theorem restores_messages (h : s.Lawful depth) : (messages s).Restores (depth + 1) [] := by
  intro tag ms hlength
  -- the list grows at its end
  suffices ∀ done, (messages s).Records (depth + 1) tag done (ms.flatMap (writeMessage s tag))
      (done ++ ms) from this []
  replace hlength : (ms.flatMap (writeMessage s tag)).length < UInt64.size := hlength
  induction ms with
  | nil =>
    intro done
    rw [List.append_nil]
    exact .nil done
  | cons m ms ih =>
    intro done
    rw [List.flatMap_cons] at hlength ⊢
    rw [List.length_append] at hlength
    have hbody := length_write_le_writeMessage s tag m
    have hrest := ih (by omega) (done ++ [m])
    rw [List.append_assoc, List.singleton_append] at hrest
    refine .cons (fun rest => ?_) hrest
    have hread := mergeMessage_writeDelimited h (Nat.lt_of_le_of_lt hbody (by omega)) rest
    exact merge_messages_eq_ok_iff.2 ⟨m, hread, rfl⟩

/-- Messages inside messages are lawful, one level above their type. -/
theorem lawful_message (h : s.Lawful depth) : (message s).Lawful (depth + 1) none :=
  ⟨fun _ => rfl, restores_message h, compact_message h.compact h.write_empty⟩

/-- Lists of messages are lawful, one level above their type. -/
theorem lawful_messages (h : s.Lawful depth) : (messages s).Lawful (depth + 1) [] :=
  ⟨fun _ => rfl, restores_messages h, compact_messages h.compact h.write_empty⟩

end Codec

end ContainerUsage.Wire
