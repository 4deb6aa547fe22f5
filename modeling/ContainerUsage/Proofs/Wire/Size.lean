import Mathlib
import ContainerUsage.Wire.Message

/-!
# Writing again takes no more room

What is read can have been written in many ways: numbers with more bytes than they need, a message
in several records, fields that nobody declared. Writing it again gives the shortest way, so a
message that was read is never written with more bytes than it was read from.

* `Varint.length_writeNat_add_le` is the reason for this where two records of one message become
  one: the length of the two together takes no more bytes than their two lengths.
* `Codec.Compact` is the law of a codec, for one record, and `Schema.Compact` that of a schema, for
  a whole body. A schema has it if its codecs do and no field touches another
  (`Schema.compact_of_fields`).
-/

namespace ContainerUsage.Wire

/-! ## Numbers -/

namespace Varint

/-- A number below 128 takes one byte. -/
theorem length_writeNat_of_lt {n : Nat} (h : n < 128) : (writeNat n).length = 1 := by
  rw [writeNat_of_lt h, List.length_singleton]

/-- A number of 128 or more takes one byte more than its quotient by 128. -/
theorem length_writeNat_of_le {n : Nat} (h : 128 ≤ n) :
    (writeNat n).length = (writeNat (n / 128)).length + 1 := by
  rw [writeNat_of_le h, List.length_cons]

/-- Every number takes at least one byte. -/
theorem length_writeNat_pos (n : Nat) : 0 < (writeNat n).length := by
  by_cases h : n < 128
  · rw [length_writeNat_of_lt h]
    exact Nat.one_pos
  · rw [length_writeNat_of_le (Nat.le_of_not_lt h)]
    exact Nat.succ_pos _

/-- A greater number takes no fewer bytes. -/
theorem length_writeNat_mono {m n : Nat} (h : m ≤ n) :
    (writeNat m).length ≤ (writeNat n).length := by
  induction n using Nat.strong_induction_on generalizing m with
  | _ n ih =>
    by_cases hm : m < 128
    · rw [length_writeNat_of_lt hm]
      exact length_writeNat_pos n
    · have hn : 128 ≤ n := Nat.le_trans (Nat.le_of_not_lt hm) h
      rw [length_writeNat_of_le (Nat.le_of_not_lt hm), length_writeNat_of_le hn]
      have hdiv := ih (n / 128) (by omega) (Nat.div_le_div_right h)
      omega

/-- A sum takes no more bytes than its parts. -/
theorem length_writeNat_add_le (m n : Nat) :
    (writeNat (m + n)).length ≤ (writeNat m).length + (writeNat n).length := by
  -- one byte more than the greater part is enough
  have hdouble (k : Nat) : (writeNat (k + k)).length ≤ (writeNat k).length + 1 := by
    by_cases hk : k + k < 128
    · rw [length_writeNat_of_lt hk]
      exact Nat.le_add_left _ _
    · rw [length_writeNat_of_le (Nat.le_of_not_lt hk)]
      exact Nat.succ_le_succ (length_writeNat_mono (by omega))
  have hm := length_writeNat_pos m
  have hn := length_writeNat_pos n
  rcases Nat.le_total m n with hle | hle
  · have hsum := length_writeNat_mono (Nat.add_le_add_right hle n)
    have := hdouble n
    omega
  · have hsum := length_writeNat_mono (Nat.add_le_add_left hle m)
    have := hdouble m
    omega

/-- A number of 64 bits takes at most ten bytes. -/
theorem length_writeNat_le {n : Nat} (h : n < UInt64.size) : (writeNat n).length ≤ 10 := by
  suffices ∀ count n, n < 128 ^ (count + 1) → (writeNat n).length ≤ count + 1 from
    this 9 n (Nat.lt_trans h (by decide))
  intro count
  induction count with
  | zero =>
    intro n hn
    rw [length_writeNat_of_lt (by omega)]
  | succ count ih =>
    intro n hn
    by_cases hsmall : n < 128
    · rw [length_writeNat_of_lt hsmall]
      exact Nat.le_add_left _ _
    · have hdiv : n / 128 < 128 ^ (count + 1) := by
        apply Nat.div_lt_of_lt_mul
        rwa [← Nat.pow_succ']
      rw [length_writeNat_of_le (Nat.le_of_not_lt hsmall)]
      exact Nat.succ_le_succ (ih _ hdiv)

/-- A number is read from no fewer bytes than it is written with. -/
theorem length_writeNat_of_readNat {count n : Nat} {input rest : Bytes}
    (h : readNat count input = some (n, rest)) :
    (writeNat n).length + rest.length ≤ input.length := by
  induction count generalizing input n with
  | zero => cases h
  | succ count ih =>
    cases input with
    | nil => cases h
    | cons b input =>
      rw [readNat] at h
      rw [List.length_cons]
      split at h
      · next hb =>
        obtain ⟨rfl, rfl⟩ := Prod.mk.inj (Option.some.inj h)
        rw [length_writeNat_of_lt hb, Nat.add_comm]
      · obtain ⟨⟨more, rest⟩, hmore, heq⟩ := Option.map_eq_some_iff.1 h
        obtain ⟨rfl, rfl⟩ := Prod.mk.inj heq
        have hrest := ih hmore
        by_cases hn : b.toNat - 128 + 128 * more < 128
        · rw [length_writeNat_of_lt hn]
          have := length_writeNat_pos more
          omega
        · have hb : b.toNat < 256 := b.toNat_lt
          have hdiv : (b.toNat - 128 + 128 * more) / 128 = more := by omega
          rw [length_writeNat_of_le (Nat.le_of_not_lt hn), hdiv]
          omega

/-- A varint is written in no more bytes than it was read from. -/
theorem length_write_of_read {input rest : Bytes} {v : UInt64} (h : read input = some (v, rest)) :
    (write v).length + rest.length ≤ input.length := by
  unfold read at h
  split at h
  · next n rest hread =>
    split at h
    · next hn =>
      obtain ⟨rfl, rfl⟩ := Prod.mk.inj (Option.some.inj h)
      have hto : n.toUInt64.toNat = n := UInt64.toNat_ofNat_of_lt' hn
      rw [write, hto]
      exact length_writeNat_of_readNat hread
    · simp at h
  · simp at h

end Varint

/-! ## Keys and lengths -/

/-- A wire type has the code that it was read from. -/
theorem WireType.code_of_ofCode? {n : Nat} {type : WireType} (h : ofCode? n = some type) :
    type.code = n := by
  unfold ofCode? at h
  split at h <;> simp only [Option.some.injEq, reduceCtorEq] at h
  all_goals
    rw [← h]
    rfl

/-- A key is written in no more bytes than it was read from. -/
theorem Key.length_write_of_read {key : Key} {input rest : Bytes}
    (h : Key.read input = .ok (key, rest)) :
    (Key.write key).length + rest.length ≤ input.length := by
  unfold Key.read at h
  split at h
  · simp at h
  · next v rest hread =>
    split at h
    · simp at h
    · split at h
      · simp at h
      · next type htype =>
        split at h
        · simp at h
        · obtain ⟨rfl, rfl⟩ := Prod.mk.inj (Except.ok.inj h)
          have hcode := WireType.code_of_ofCode? htype
          have hkey : Key.toNat ⟨v.toNat / 8, type⟩ = v.toNat := by
            show v.toNat / 8 * 8 + type.code = v.toNat
            rw [hcode]
            exact Nat.div_add_mod' v.toNat 8
          rw [Key.write, hkey]
          exact Varint.length_write_of_read hread

/-- A number is written in no more bytes than it was read from. -/
theorem length_write_of_readNumber {v : UInt64} {input rest : Bytes}
    (h : readNumber input = .ok (v, rest)) :
    (Varint.write v).length + rest.length ≤ input.length := by
  unfold readNumber at h
  split at h
  · next hread =>
    obtain rfl := Except.ok.inj h
    exact Varint.length_write_of_read hread
  · simp at h

/-- A length is written in no more bytes than it was read from. -/
theorem length_writeNat_of_readLength {n : Nat} {input rest : Bytes}
    (h : readLength input = .ok (n, rest)) :
    (Varint.writeNat n).length + rest.length ≤ input.length := by
  unfold readLength at h
  split at h
  · simp at h
  · next hread =>
    split at h
    · simp at h
    · obtain ⟨rfl, rfl⟩ := Prod.mk.inj (Except.ok.inj h)
      exact length_write_of_readNumber hread

/-- Delimiting bytes takes none away. -/
theorem length_le_length_writeDelimited (body : Bytes) :
    body.length ≤ (writeDelimited body).length := by
  rw [writeDelimited, List.length_append]
  exact Nat.le_add_left _ _

/-- Delimited bytes take the bytes of their length in addition. -/
theorem length_writeDelimited {body : Bytes} (h : body.length < UInt64.size) :
    (writeDelimited body).length = (Varint.writeNat body.length).length + body.length := by
  have hto : body.length.toUInt64.toNat = body.length := UInt64.toNat_ofNat_of_lt' h
  rw [writeDelimited, List.length_append, Varint.write, hto]

variable {M V : Type}

/-- Something that is made of what was read takes just as much input. -/
theorem make_eq_ok_iff {W : Type} {reading : Reading V} {make : V → W} {w : W} {rest : Bytes} :
    (match reading with
      | .error e => .error e
      | .ok (v, rest) => .ok (make v, rest) : Reading W) = .ok (w, rest) ↔
      ∃ v, reading = .ok (v, rest) ∧ w = make v := by
  cases reading with
  | error cause => simp
  | ok result =>
    obtain ⟨v, left⟩ := result
    simp only [Except.ok.injEq, Prod.mk.injEq]
    constructor
    · rintro ⟨rfl, rfl⟩
      exact ⟨v, ⟨rfl, rfl⟩, rfl⟩
    · rintro ⟨v', ⟨rfl, rfl⟩, rfl⟩
      exact ⟨rfl, rfl⟩

/-! ## Codecs -/

namespace Codec

/-- One more record makes the records of a value longer by no more than it takes itself. -/
def Compact (codec : Codec V) : Prop :=
  ∀ ⦃depth tag : Nat⦄ ⦃type : WireType⦄ ⦃v v' : V⦄ ⦃input rest : Bytes⦄,
    codec.merge depth type v input = .ok (v', rest) →
    (codec.write tag v).length + (Key.write ⟨tag, type⟩).length + input.length < UInt64.size →
    (codec.write tag v').length + rest.length ≤
      (codec.write tag v).length + (Key.write ⟨tag, type⟩).length + input.length

/-- A value of the expected wire type is read as before, and none of any other. -/
theorem expect_eq_ok_iff {α : Type} {expected actual : WireType} {next : Reading α}
    {r : α × Bytes} :
    expect expected actual next = .ok r ↔ actual = expected ∧ next = .ok r := by
  unfold expect
  split <;> simp [*]

/-- Numbers are compact. -/
theorem compact_number : number.Compact := by
  intro depth tag type v v' input rest h _
  replace h : expect .varint type (readNumber input) = .ok (v', rest) := h
  obtain ⟨rfl, hread⟩ := expect_eq_ok_iff.1 h
  have hnumber := length_write_of_readNumber hread
  show (if v' = 0 then [] else _ : Bytes).length + _ ≤ _
  split
  · rw [List.length_nil]
    omega
  · rw [List.length_append]
    omega

/-- Texts are compact. -/
theorem compact_text : text.Compact := by
  intro depth tag type s s' input rest h hlength
  replace h : expect .lengthDelimited type (readText input) = .ok (s', rest) := h
  obtain ⟨rfl, htext⟩ := expect_eq_ok_iff.1 h
  unfold readText at htext
  split at htext
  · simp at htext
  · next count body hread =>
    split at htext
    · simp at htext
    · next text hdecode =>
      obtain ⟨rfl, rfl⟩ := Prod.mk.inj (Except.ok.inj htext)
      have hcount := (length_of_readLength hread).1
      have hinput := length_writeNat_of_readLength hread
      have hbody : (Utf8.encode text).length = count := by
        rw [Utf8.encode_of_decode? hdecode, List.length_take, Nat.min_eq_left hcount]
      show (if text = "" then [] else _ : Bytes).length + _ ≤ _
      rw [List.length_drop]
      split
      · rw [List.length_nil]
        omega
      · rw [List.length_append, length_writeDelimited (by omega), hbody]
        omega

end Codec

/-! ## Fields -/

namespace Field

/-- One more record of a field makes its records longer by no more than it takes itself. -/
def Compact (field : Field M) : Prop :=
  ∀ ⦃depth : Nat⦄ ⦃type : WireType⦄ ⦃m m' : M⦄ ⦃input rest : Bytes⦄,
    field.merge depth type m input = .ok (m', rest) →
    (field.write m).length + (Key.write ⟨field.tag, type⟩).length + input.length < UInt64.size →
    (field.write m').length + rest.length ≤
      (field.write m).length + (Key.write ⟨field.tag, type⟩).length + input.length

/-- Reading a record of one field leaves another one as it is. -/
def Keeps (field other : Field M) : Prop :=
  ∀ ⦃depth : Nat⦄ ⦃type : WireType⦄ ⦃m m' : M⦄ ⦃input rest : Bytes⦄,
    field.merge depth type m input = .ok (m', rest) → other.write m' = other.write m

/-- Neither of two fields touches the other. -/
structure Apart (field other : Field M) : Prop where
  keeps : field.Keeps other
  kept : other.Keeps field

variable {W : Type} {tag tag' : Nat} {name name' : String} {codec : Codec V} {codec' : Codec W}
  {slot : Slot M V} {slot' : Slot M W}

/-- Reading a record changes what is kept in the place of its field. -/
theorem merge_of_eq_ok_iff {depth : Nat} {type : WireType} {m m' : M} {input rest : Bytes} :
    (Field.of tag name codec slot).merge depth type m input = .ok (m', rest) ↔
      ∃ v, codec.merge depth type (slot.get m) input = .ok (v, rest) ∧ m' = slot.set m v :=
  make_eq_ok_iff

/-- A field is compact if its codec is. -/
theorem compact_of (h : codec.Compact) : (Field.of tag name codec slot).Compact := by
  intro depth type m m' input rest hmerge hlength
  obtain ⟨v, hv, rfl⟩ := merge_of_eq_ok_iff.1 hmerge
  have hcompact := h hv hlength
  show (codec.write tag (slot.get (slot.set m v))).length + rest.length ≤ _
  rw [slot.get_set]
  exact hcompact

/-- A field keeps another one if setting its slot leaves the slot of the other. -/
theorem keeps_of (h : ∀ m v, slot'.get (slot.set m v) = slot'.get m) :
    (Field.of tag name codec slot).Keeps (Field.of tag' name' codec' slot') := by
  intro depth type m m' input rest hmerge
  obtain ⟨v, -, rfl⟩ := merge_of_eq_ok_iff.1 hmerge
  show codec'.write tag' (slot'.get (slot.set m v)) = _
  rw [h]
  rfl

/-- Fields that are kept in different places are apart. -/
@[simp] theorem apart_of (h : ∀ m v, slot'.get (slot.set m v) = slot'.get m)
    (h' : ∀ m v, slot.get (slot'.set m v) = slot.get m) :
    (Field.of tag name codec slot).Apart (Field.of tag' name' codec' slot') :=
  ⟨keeps_of h, keeps_of h'⟩

end Field

/-! ## Messages -/

namespace Schema

variable {s : Schema M}

/-- Reading records makes what is written for a message longer by no more than they take. -/
def Compact (s : Schema M) : Prop :=
  ∀ ⦃depth limit : Nat⦄ ⦃m m' : M⦄ ⦃input rest : Bytes⦄,
    s.mergeUntil depth limit m input = .ok (m', rest) →
    (s.write m).length + input.length < UInt64.size →
    (s.write m').length + rest.length ≤ (s.write m).length + input.length

/-- Reading a record of one field changes what is written for this field only. -/
theorem length_write_of_merge (hapart : s.fields.Pairwise Field.Apart) {tag : Nat}
    {field : Field M} (hfield : s.field? tag = some field) {depth : Nat}
    {type : WireType} {m m' : M}
    {input rest : Bytes} (h : field.merge depth type m input = .ok (m', rest)) :
    (s.write m').length + (field.write m).length =
      (s.write m).length + (field.write m').length := by
  obtain ⟨-, before, after, hsplit, -⟩ := List.find?_eq_some_iff_append.1 hfield
  rw [hsplit] at hapart
  obtain ⟨-, hafter, hbefore⟩ := List.pairwise_append.1 hapart
  have hkept : ∀ fields : List (Field M), (∀ other ∈ fields, field.Keeps other) →
      (fields.flatMap fun other => other.write m') = fields.flatMap fun other => other.write m :=
    fun fields hfields => List.flatMap_congr fun other hmem => hfields other hmem h
  rw [write, write, hsplit, List.flatMap_append, List.flatMap_append, List.flatMap_cons,
    List.flatMap_cons,
    hkept before fun other hmem => (hbefore other hmem field List.mem_cons_self).kept,
    hkept after fun other hmem => ((List.pairwise_cons.1 hafter).1 other hmem).keeps]
  simp only [List.length_append]
  omega

/-- A field takes no more bytes than the whole message. -/
theorem length_write_field_le {field : Field M} (hmem : field ∈ s.fields) (m : M) :
    (field.write m).length ≤ (s.write m).length := by
  obtain ⟨before, after, hsplit⟩ := List.append_of_mem hmem
  rw [write, hsplit, List.flatMap_append, List.flatMap_cons, List.length_append, List.length_append]
  omega

/-- One more record makes what is written for a message longer by no more than it takes itself. -/
theorem length_write_of_mergeRecord (hapart : s.fields.Pairwise Field.Apart)
    (hfields : ∀ field ∈ s.fields, field.Compact) {depth : Nat} {key : Key} {m m' : M}
    {input rest : Bytes} (h : s.mergeRecord depth key m input = .ok (m', rest))
    (hlength : (s.write m).length + (Key.write key).length + input.length < UInt64.size) :
    (s.write m').length + rest.length ≤
      (s.write m).length + (Key.write key).length + input.length := by
  unfold mergeRecord at h
  split at h
  · next field hfield =>
    obtain ⟨tag, type⟩ := key
    have hmem := List.mem_of_find?_eq_some hfield
    obtain rfl : field.tag = tag := by simpa using List.find?_some hfield
    cases hmerge : field.merge depth type m input with
    | error cause =>
      rw [hmerge] at h
      cases h
    | ok result =>
      rw [hmerge] at h
      obtain rfl := Except.ok.inj h
      have hwhole := length_write_of_merge hapart hfield hmerge
      have hpart := length_write_field_le hmem m
      have hfield := hfields field hmem hmerge (by omega)
      omega
  · -- the record of a field that is not declared leaves nothing behind
    split at h
    · simp at h
    · next hskip =>
      obtain ⟨rfl, rfl⟩ := Prod.mk.inj (Except.ok.inj h)
      have hskipped := length_of_skip hskip
      omega

/-- A schema is compact if its fields are and none of them touches another. -/
theorem compact_of_fields (hapart : s.fields.Pairwise Field.Apart)
    (hfields : ∀ field ∈ s.fields, field.Compact) : s.Compact := by
  intro depth limit m m' input rest h hlength
  fun_induction mergeUntil s depth limit m input with
  | case1 => simp at h
  | case2 => simp at h
  | case3 m input _ key value hkey next input' hrecord _ _ ih =>
    have hread := Key.length_write_of_read hkey
    have hfirst := length_write_of_mergeRecord hapart hfields hrecord (by omega)
    have hrest := ih h (by omega)
    omega
  | case4 m input _ heq =>
    obtain ⟨rfl, rfl⟩ := Prod.mk.inj (Except.ok.inj h)
    exact Nat.le_refl _
  | case5 => simp at h

/-- A body that was read is written again with no more bytes. -/
theorem Compact.length_write_of_read (h : s.Compact) (hempty : s.write s.empty = []) {body : Bytes}
    {m : M} (hread : s.read body = .ok m) (hlength : body.length < UInt64.size) :
    (s.write m).length ≤ body.length := by
  unfold read at hread
  cases hmerge : s.mergeUntil maxDepth 0 s.empty body with
  | error cause =>
    rw [hmerge] at hread
    cases hread
  | ok result =>
    rw [hmerge] at hread
    obtain rfl := Except.ok.inj hread
    have hcompact := h hmerge (by rwa [hempty, List.length_nil, Nat.zero_add])
    rw [hempty, List.length_nil] at hcompact
    omega

end Schema

/-! ## Messages inside messages -/

namespace Codec

variable {s : Schema M}

/-- What a record with a message takes: its length, and the bytes of a body that makes what is
written for the message longer by no more than they are. -/
theorem length_write_of_mergeMessage (h : s.Compact) {depth : Nat} {type : WireType} {m m' : M}
    {input rest : Bytes} (hmerge : mergeMessage s depth type m input = .ok (m', rest))
    (hlength : (s.write m).length + input.length < UInt64.size) :
    type = .lengthDelimited ∧ ∃ count, (s.write m').length ≤ (s.write m).length + count ∧
      (Varint.writeNat count).length + count + rest.length ≤ input.length := by
  obtain ⟨rfl, hinner⟩ := expect_eq_ok_iff.1 hmerge
  refine ⟨rfl, ?_⟩
  cases depth with
  | zero => simp at hinner
  | succ depth =>
    dsimp only at hinner
    unfold Schema.mergeDelimited at hinner
    split at hinner
    · simp at hinner
    · next count body hread =>
      have hcount := (length_of_readLength hread).1
      have hinput := length_writeNat_of_readLength hread
      have hrest := (Schema.length_of_mergeUntil hinner).1
      have hwrite := h hinner (by omega)
      exact ⟨count, by omega, by omega⟩

/-- What is written for a message inside a message is longer than its body. -/
theorem length_write_le_writeMessage (s : Schema M) (tag : Nat) (m : M) :
    (s.write m).length ≤ (writeMessage s tag m).length := by
  have hbody := length_le_length_writeDelimited (s.write m)
  rw [writeMessage, List.length_append]
  omega

/-- A message inside a message takes the bytes of its key and of its length in addition. -/
theorem length_writeMessage {tag : Nat} {m : M} (h : (s.write m).length < UInt64.size) :
    (writeMessage s tag m).length = (Key.write ⟨tag, .lengthDelimited⟩).length +
      ((Varint.writeNat (s.write m).length).length + (s.write m).length) := by
  rw [writeMessage, List.length_append, length_writeDelimited h]

/-- A message that comes again is merged into the one before. -/
theorem merge_message_eq_ok_iff {depth : Nat} {type : WireType} {v v' : Option M}
    {input rest : Bytes} :
    (message s).merge depth type v input = .ok (v', rest) ↔
      ∃ m, mergeMessage s depth type (v.getD s.empty) input = .ok (m, rest) ∧ v' = some m :=
  make_eq_ok_iff

/-- In a list, a message that comes again is a further one. -/
theorem merge_messages_eq_ok_iff {depth : Nat} {type : WireType} {v v' : List M}
    {input rest : Bytes} :
    (messages s).merge depth type v input = .ok (v', rest) ↔
      ∃ m, mergeMessage s depth type s.empty input = .ok (m, rest) ∧ v' = v ++ [m] :=
  make_eq_ok_iff

/-- A record with a message of its own takes no more room when it is written again. -/
theorem length_writeMessage_le (h : s.Compact) (hempty : s.write s.empty = []) {depth tag : Nat}
    {type : WireType} {m : M} {input rest : Bytes}
    (hmerge : mergeMessage s depth type s.empty input = .ok (m, rest))
    (hlength : input.length < UInt64.size) :
    (writeMessage s tag m).length + rest.length ≤ (Key.write ⟨tag, type⟩).length +
      input.length := by
  have hblank : (s.write s.empty).length = 0 := by rw [hempty, List.length_nil]
  obtain ⟨rfl, count, hbody, hinput⟩ := length_write_of_mergeMessage h hmerge (by omega)
  have hcount : (s.write m).length ≤ count := by omega
  have hprefix := Varint.length_writeNat_mono hcount
  rw [length_writeMessage (by omega)]
  omega

/-- Messages inside messages are compact, if the empty one takes no bytes. -/
theorem compact_message (h : s.Compact) (hempty : s.write s.empty = []) :
    (message s).Compact := by
  intro depth tag type v v' input rest hmerge hlength
  obtain ⟨m', hm, rfl⟩ := merge_message_eq_ok_iff.1 hmerge
  show (writeMessage s tag m').length + rest.length ≤ _
  cases v with
  | none =>
    have hone : (writeMessage s tag m').length + _ ≤ _ :=
      length_writeMessage_le h hempty hm (by omega)
    omega
  | some m =>
    -- the two bodies become one, and so do their lengths
    replace hlength : (writeMessage s tag m).length + (Key.write ⟨tag, type⟩).length +
      input.length < UInt64.size := hlength
    show _ ≤ (writeMessage s tag m).length + _ + _
    have hbound := length_write_le_writeMessage s tag m
    obtain ⟨rfl, count, hbody, hinput⟩ := length_write_of_mergeMessage h hm (by
      rw [Option.getD_some]
      omega)
    rw [Option.getD_some] at hbody
    have hprefix := Nat.le_trans (Varint.length_writeNat_mono hbody)
      (Varint.length_writeNat_add_le (s.write m).length count)
    rw [length_writeMessage (by omega)] at hlength ⊢
    rw [length_writeMessage (by omega)]
    omega

/-- Lists of messages are compact, if the empty one takes no bytes. -/
theorem compact_messages (h : s.Compact) (hempty : s.write s.empty = []) :
    (messages s).Compact := by
  intro depth tag type v v' input rest hmerge hlength
  obtain ⟨m, hm, rfl⟩ := merge_messages_eq_ok_iff.1 hmerge
  show ((v ++ [m]).flatMap (writeMessage s tag)).length + _ ≤ _
  have hone : (writeMessage s tag m).length + _ ≤ _ :=
    length_writeMessage_le h hempty hm (by omega)
  rw [List.flatMap_append, List.flatMap_singleton, List.length_append]
  show _ ≤ (v.flatMap (writeMessage s tag)).length + _ + _
  omega

end Codec

/-! ## Messages of bounded size -/

/-- The key of a field takes at most ten bytes. -/
theorem Key.length_write_le {key : Key} (htag : key.tag ≤ Key.maxTag) :
    (Key.write key).length ≤ 10 := by
  have hcode := key.type.code_lt
  apply Varint.length_writeNat_le
  rw [Key.toNat, UInt64.size]
  rw [Key.maxTag] at htag
  omega

/-- A field with a number takes at most twenty bytes. -/
theorem Field.length_write_number_le {tag : Nat} {name : String} {slot : Slot M UInt64}
    (htag : tag ≤ Key.maxTag) (m : M) :
    ((Field.of tag name .number slot).write m).length ≤ 20 := by
  show (if slot.get m = 0 then [] else _ : Bytes).length ≤ 20
  split
  · exact Nat.zero_le _
  · have hkey : (Key.write ⟨tag, .varint⟩).length ≤ 10 := Key.length_write_le htag
    have hnumber := Varint.length_writeNat_le (slot.get m).toNat_lt
    rw [List.length_append, Varint.write]
    omega

/-- A field with a message takes at most twenty bytes more than its body. -/
theorem Field.length_write_message_le {N : Type} {s : Schema N} {bound : Nat}
    (hbound : ∀ n, (s.write n).length ≤ bound) {tag : Nat} {name : String}
    {slot : Slot M (Option N)} (htag : tag ≤ Key.maxTag) (m : M) :
    ((Field.of tag name (.message s) slot).write m).length ≤ 20 + bound := by
  show ((Codec.message s).write tag (slot.get m)).length ≤ 20 + bound
  cases slot.get m with
  | none => exact Nat.zero_le _
  | some n =>
    have hkey : (Key.write ⟨tag, .lengthDelimited⟩).length ≤ 10 := Key.length_write_le htag
    have hlength := Varint.length_writeNat_le (s.write n).length.toUInt64.toNat_lt
    have hbody := hbound n
    show (_ ++ (Varint.writeNat _ ++ s.write n)).length ≤ 20 + bound
    rw [List.length_append, List.length_append]
    omega

/-- A message is as long as its fields are. -/
theorem Schema.length_write_le {s : Schema M} {m : M} (bound : Nat)
    (h : ∀ field ∈ s.fields, (field.write m).length ≤ bound) :
    (s.write m).length ≤ s.fields.length * bound := by
  rw [write, List.length_flatMap, ← List.length_map (f := fun field => (field.write m).length),
    ← smul_eq_mul]
  exact List.sum_le_card_nsmul _ _ (List.forall_mem_map.2 h)

end ContainerUsage.Wire
