import Mathlib
import ContainerUsage.Proofs.Wire.Size

/-!
# Reading from the front

Whatever is read from a wire message is read from the front of an input, and what stands behind it
plays no part: with other bytes behind it the same is read, and the same is left over in front of
these bytes.

* `FromFront` says this of any kind of reading. It is kept when one thing is read after another
  (`FromFront.bind`), which is how the readings of keys, numbers and skipped values have it.
* `Codec.Framed` is the law of a codec: it reads from the front, and takes just the bytes that are
  skipped where nobody has declared the field. The four codecs have it, those of messages if their
  fields do (`Schema.Framed`).
* `Schema.mergeUntil_append_iff` is the same for a whole body, by induction over its records.
-/

namespace ContainerUsage.Wire

/-! ## Readings -/

/-- What is read from the front of an input, in which `reads input a rest` says that `a` is read and
`rest` is left over, does not depend on what is behind it. -/
structure FromFront {α : Type} (reads : Bytes → α → Bytes → Prop) : Prop where
  suffix : ∀ {input a rest}, reads input a rest → rest <:+ input
  append_iff : ∀ {input a rest} (more : Bytes),
    reads (input ++ more) a (rest ++ more) ↔ reads input a rest

namespace FromFront

variable {α β : Type} {reads reads' : Bytes → α → Bytes → Prop}

/-- Another description of the same reads. -/
theorem congr (h : FromFront reads)
    (hiff : ∀ input a rest, reads' input a rest ↔ reads input a rest) :
    FromFront reads' := by
  have heq : reads' = reads := by
    funext input a rest
    exact propext (hiff input a rest)
  rwa [heq]

/-- What is read before some bytes of the input, these left over, can be read without them. -/
theorem exists_of_append (h : FromFront reads) {input more rest : Bytes} {a : α}
    (hreads : reads (input ++ more) a rest) (hmore : more <:+ rest) :
    ∃ left, rest = left ++ more ∧ reads input a left := by
  obtain ⟨left, rfl⟩ := hmore
  exact ⟨left, rfl, (h.append_iff more).1 hreads⟩

/-- One thing is read after another, in a way that may depend on it. -/
theorem bind {next : α → Bytes → β → Bytes → Prop} (h : FromFront reads)
    (hnext : ∀ a, FromFront (next a)) :
    FromFront fun input b rest => ∃ a mid, reads input a mid ∧ next a mid b rest where
  suffix := by
    rintro input b rest ⟨a, mid, hfirst, hsecond⟩
    exact ((hnext a).suffix hsecond).trans (h.suffix hfirst)
  append_iff := by
    intro input b rest more
    constructor
    · rintro ⟨a, mid, hfirst, hsecond⟩
      have hmore : more <:+ mid := (List.suffix_append rest more).trans ((hnext a).suffix hsecond)
      obtain ⟨left, rfl, hleft⟩ := h.exists_of_append hfirst hmore
      exact ⟨a, left, hleft, ((hnext a).append_iff more).1 hsecond⟩
    · rintro ⟨a, mid, hfirst, hsecond⟩
      exact ⟨a, mid ++ more, (h.append_iff more).2 hfirst, ((hnext a).append_iff more).2 hsecond⟩

/-- What is read is turned into something else, or refused. -/
theorem map (h : FromFront reads) (P : α → β → Prop) :
    FromFront fun input b rest => ∃ a, reads input a rest ∧ P a b where
  suffix := by
    rintro input b rest ⟨a, hreads, -⟩
    exact h.suffix hreads
  append_iff := by
    intro input b rest more
    simp only [h.append_iff]

/-- Nothing is read. -/
theorem of_forall_not (h : ∀ input a rest, ¬ reads input a rest) : FromFront reads where
  suffix hreads := absurd hreads (h _ _ _)
  append_iff _ := iff_of_false (h _ _ _) (h _ _ _)

end FromFront

/-! ## Bytes and numbers -/

/-- A given number of bytes is taken from an input. -/
def Takes (count : Nat) (input bytes rest : Bytes) : Prop :=
  input = bytes ++ rest ∧ bytes.length = count

/-- Taking bytes reads them from the front. -/
theorem fromFront_takes (count : Nat) : FromFront (Takes count) where
  suffix := by
    rintro input bytes rest ⟨rfl, -⟩
    exact List.suffix_append bytes rest
  append_iff more := by
    unfold Takes
    rw [← List.append_assoc, List.append_left_inj]

/-- Where enough bytes are there, the first of them can be taken. -/
theorem takes_iff {count : Nat} {input bytes rest : Bytes} :
    Takes count input bytes rest ↔
      count ≤ input.length ∧ bytes = input.take count ∧ rest = input.drop count := by
  constructor
  · rintro ⟨rfl, rfl⟩
    simp
  · rintro ⟨hle, rfl, rfl⟩
    exact ⟨(List.take_append_drop count input).symm, List.length_take_of_le hle⟩

namespace Varint

/-- A number in base 128 is read from the front, byte by byte. -/
theorem fromFront_readNat (count : Nat) :
    FromFront fun input n rest => readNat count input = some (n, rest) := by
  induction count with
  | zero => exact .of_forall_not fun input n rest => by simp [readNat]
  | succ count ih =>
    constructor
    · intro input n rest h
      cases input with
      | nil => simp [readNat] at h
      | cons b input =>
        rw [readNat] at h
        split at h
        · obtain ⟨-, rfl⟩ := Prod.mk.inj (Option.some.inj h)
          exact List.suffix_cons b input
        · obtain ⟨⟨n, rest⟩, hmore, heq⟩ := Option.map_eq_some_iff.1 h
          obtain ⟨-, rfl⟩ := Prod.mk.inj heq
          exact (ih.suffix hmore).trans (List.suffix_cons b input)
    · intro input n rest more
      cases input with
      | nil =>
        -- what is left over would be longer than the input
        refine iff_of_false (fun h => ?_) (by simp [readNat])
        have hlength := length_of_readNat h
        simp at hlength
      | cons b input =>
        rw [List.cons_append, readNat, readNat]
        split
        · simp
        · simp only [Option.map_eq_some_iff, Prod.mk.injEq, Prod.exists]
          constructor
          · rintro ⟨n, rest', hmore, rfl, rfl⟩
            exact ⟨n, rest, (ih.append_iff more).1 hmore, rfl, rfl⟩
          · rintro ⟨n, rest', hmore, rfl, rfl⟩
            exact ⟨n, rest' ++ more, (ih.append_iff more).2 hmore, rfl, rfl⟩

/-- A varint is a number of at most ten bytes that has room in a word. -/
theorem read_eq_some_iff {input rest : Bytes} {v : UInt64} :
    read input = some (v, rest) ↔
      ∃ n, readNat 10 input = some (n, rest) ∧ n < UInt64.size ∧ n.toUInt64 = v := by
  unfold read
  cases hread : readNat 10 input with
  | none => simp
  | some result =>
    obtain ⟨n, left⟩ := result
    by_cases hn : n < UInt64.size
    · simp [hn, and_comm]
    · simp only [hn, if_false, reduceCtorEq, false_iff]
      rintro ⟨m, hm, hlt, -⟩
      obtain ⟨rfl, -⟩ := Prod.mk.inj (Option.some.inj hm)
      exact hn hlt

/-- A varint is read from the front. -/
theorem fromFront_read : FromFront fun input v rest => read input = some (v, rest) :=
  ((fromFront_readNat 10).map fun n v => n < UInt64.size ∧ n.toUInt64 = v).congr
    fun _ _ _ => read_eq_some_iff

end Varint

/-- Reading a number is reading a varint. -/
theorem readNumber_eq_ok_iff {input rest : Bytes} {v : UInt64} :
    readNumber input = .ok (v, rest) ↔ Varint.read input = some (v, rest) := by
  unfold readNumber
  cases Varint.read input <;> simp

/-- A number is read from the front. -/
theorem fromFront_readNumber : FromFront fun input v rest => readNumber input = .ok (v, rest) :=
  Varint.fromFront_read.congr fun _ _ _ => readNumber_eq_ok_iff

/-- A key is a varint of 32 bits with a known wire type and a tag that is not zero. -/
theorem Key.read_eq_ok_iff {input rest : Bytes} {key : Key} :
    Key.read input = .ok (key, rest) ↔ ∃ v, Varint.read input = some (v, rest) ∧
      v.toNat < UInt32.size ∧ WireType.ofCode? (v.toNat % 8) = some key.type ∧
        v.toNat / 8 = key.tag ∧ key.tag ≠ 0 := by
  obtain ⟨tag, type⟩ := key
  unfold Key.read
  cases Varint.read input with
  | none => simp
  | some result =>
    obtain ⟨v, left⟩ := result
    by_cases hsize : UInt32.size ≤ v.toNat
    · simp [hsize]
    · cases htype : WireType.ofCode? (v.toNat % 8) with
      | none => simp [hsize, htype]
      | some other =>
        by_cases htag : v.toNat / 8 = 0
        · simp [hsize, htype, htag]
          omega
        · simp [hsize, htype, htag]
          grind

/-- A key is read from the front. -/
theorem Key.fromFront_read : FromFront fun input key rest => Key.read input = .ok (key, rest) :=
  (Varint.fromFront_read.map fun v key => v.toNat < UInt32.size ∧
    WireType.ofCode? (v.toNat % 8) = some key.type ∧ v.toNat / 8 = key.tag ∧ key.tag ≠ 0).congr
    fun _ _ _ => Key.read_eq_ok_iff

/-! ## Values -/

/-- Bytes that are preceded by their number are taken from an input. -/
def Delimited (input bytes rest : Bytes) : Prop :=
  ∃ count mid, readNumber input = .ok (count, mid) ∧ Takes count.toNat mid bytes rest

/-- A length and so many bytes are read from the front. -/
theorem fromFront_delimited : FromFront Delimited :=
  fromFront_readNumber.bind fun count => fromFront_takes count.toNat

/-- A length is a number, and there are so many bytes behind it. -/
theorem readLength_eq_ok_iff {input mid : Bytes} {count : Nat} :
    readLength input = .ok (count, mid) ↔
      ∃ v, readNumber input = .ok (v, mid) ∧ v.toNat = count ∧ count ≤ mid.length := by
  unfold readLength
  cases readNumber input with
  | error cause => simp
  | ok result =>
    obtain ⟨v, left⟩ := result
    by_cases hlt : left.length < v.toNat <;> simp [hlt] <;> grind

/-- A length and the bytes behind it. -/
theorem delimited_iff {input bytes rest : Bytes} :
    Delimited input bytes rest ↔ ∃ count mid, readLength input = .ok (count, mid) ∧
      bytes = mid.take count ∧ rest = mid.drop count := by
  unfold Delimited
  simp only [takes_iff, readLength_eq_ok_iff]
  constructor
  · rintro ⟨v, mid, hread, hle, hbytes, hrest⟩
    exact ⟨v.toNat, mid, ⟨v, hread, rfl, hle⟩, hbytes, hrest⟩
  · rintro ⟨count, mid, ⟨v, hread, rfl, hle⟩, hbytes, hrest⟩
    exact ⟨v, mid, hread, hle, hbytes, hrest⟩

/-- Skipping bytes is taking them and forgetting which they were. -/
theorem skipBytes_eq_ok_iff {count : Nat} {input rest : Bytes} :
    skipBytes count input = .ok rest ↔ ∃ bytes, Takes count input bytes rest := by
  unfold skipBytes
  simp only [takes_iff]
  split <;> grind

/-- Skipping a delimited value is taking its bytes. -/
theorem skipValue_delimited {input rest : Bytes} :
    skipValue .lengthDelimited input = .ok rest ↔ ∃ bytes, Delimited input bytes rest := by
  simp only [delimited_iff, skipValue]
  cases readLength input with
  | error cause => simp
  | ok result =>
    obtain ⟨count, mid⟩ := result
    simp [eq_comm]

/-- A value of any wire type is skipped from the front. -/
theorem fromFront_skipValue (type : WireType) :
    FromFront fun input (_ : Unit) rest => skipValue type input = .ok rest := by
  have htakes : ∀ count, FromFront fun input (_ : Unit) rest => skipBytes count input = .ok rest :=
    fun count => ((fromFront_takes count).map fun _ _ => True).congr fun _ _ _ => by
      simp [skipBytes_eq_ok_iff]
  cases type with
  | varint =>
    refine (fromFront_readNumber.map fun _ _ => True).congr fun input _ rest => ?_
    unfold skipValue
    cases readNumber input <;> simp [Except.map, Prod.ext_iff]
  | sixtyFourBit => exact htakes 8
  | thirtyTwoBit => exact htakes 4
  | lengthDelimited =>
    refine (fromFront_delimited.map fun _ _ => True).congr fun input _ rest => ?_
    simp [skipValue_delimited]
  | startGroup | endGroup => exact .of_forall_not fun input _ rest => by simp [skipValue]

/-! ## Groups -/

/-- What is done inside some groups after a key: the innermost group ends, another group begins, or
a value is skipped. -/
def GroupStep (depth group : Nat) (outer : List Nat) (key : Key) (mid rest : Bytes) : Prop :=
  (key = ⟨group, .endGroup⟩ ∧ outer = [] ∧ rest = mid) ∨
    (key = ⟨group, .endGroup⟩ ∧ ∃ next others, outer = next :: others ∧
      skipGroups depth next others mid = .ok rest) ∨
    (outer.length + 1 < depth ∧ key.type = .startGroup ∧
      skipGroups depth key.tag (group :: outer) mid = .ok rest) ∨
    (outer.length + 1 < depth ∧ ∃ left, skipValue key.type mid = .ok left ∧
      skipGroups depth group outer left = .ok rest)

/-- Skipping the rest of a group reads a key, and goes on as the key says. -/
theorem skipGroups_eq_ok_iff {depth group : Nat} {outer : List Nat} {input rest : Bytes} :
    skipGroups depth group outer input = .ok rest ↔ ∃ key mid, Key.read input = .ok (key, mid) ∧
      GroupStep depth group outer key mid rest := by
  unfold GroupStep
  have hread : ∀ {key mid}, Key.read input = .ok (key, mid) → ∀ P : Key → Bytes → Prop,
      (∃ key mid, Key.read input = .ok (key, mid) ∧ P key mid) ↔ P key mid := by
    intro key mid hkey P
    simp [hkey]
  rw [skipGroups]
  split
  · next herror => simp [herror]
  · next tag mid hkey =>
    rw [hread hkey]
    by_cases htag : tag = group
    · subst htag
      cases outer <;> simp [skipValue, eq_comm]
    · simp [skipValue, htag]
  · next tag mid hkey =>
    rw [hread hkey]
    by_cases hdepth : depth ≤ outer.length + 1
    · simp [hdepth, Nat.not_lt.2 hdepth]
    · simp [hdepth, Nat.lt_of_not_le hdepth, skipValue]
  · next tag type mid hend hstart hkey =>
    have hend : type ≠ .endGroup := hend
    have hstart : type ≠ .startGroup := hstart
    rw [hread hkey]
    by_cases hdepth : depth ≤ outer.length + 1
    · simp [hdepth, Nat.not_lt.2 hdepth, hend]
    · rw [if_neg hdepth]
      split
      · next herror => simp [herror, hend, hstart]
      · next next hskip => simp [hskip, hend, hstart, Nat.lt_of_not_le hdepth]

/-- A step leaves over what is behind it, if this is so for the records after it. -/
theorem GroupStep.suffix {depth group : Nat} {outer : List Nat} {key : Key} {mid rest : Bytes}
    (h : GroupStep depth group outer key mid rest)
    (hnext : ∀ {group outer left}, left.length ≤ mid.length →
      skipGroups depth group outer left = .ok rest → rest <:+ left) : rest <:+ mid := by
  rcases h with ⟨-, -, rfl⟩ | ⟨-, next, others, -, hskip⟩ | ⟨-, -, hskip⟩ | ⟨-, left, hvalue, hskip⟩
  · exact List.suffix_rfl
  · exact hnext (Nat.le_refl _) hskip
  · exact hnext (Nat.le_refl _) hskip
  · exact (hnext (length_of_skipValue hvalue) hskip).trans
      ((fromFront_skipValue _).suffix (a := ()) hvalue)

/-- What is left after skipping a group is the end of what there was. -/
theorem suffix_of_skipGroups {depth group : Nat} {outer : List Nat} {input rest : Bytes}
    (h : skipGroups depth group outer input = .ok rest) : rest <:+ input := by
  induction hn : input.length using Nat.strong_induction_on generalizing group outer input with
  | _ n ih =>
    subst hn
    obtain ⟨key, mid, hkey, hstep⟩ := skipGroups_eq_ok_iff.1 h
    have hmid := hstep.suffix fun hle hskip =>
      ih _ (Nat.lt_of_le_of_lt hle (Key.length_of_read hkey)) hskip rfl
    exact hmid.trans (Key.fromFront_read.suffix hkey)

/-- Groups are skipped from the front. -/
theorem skipGroups_append_iff {depth group : Nat} {outer : List Nat} {input rest : Bytes}
    (more : Bytes) : skipGroups depth group outer (input ++ more) = .ok (rest ++ more) ↔
      skipGroups depth group outer input = .ok rest := by
  induction hn : input.length using Nat.strong_induction_on generalizing group outer input with
  | _ n ih =>
    subst hn
    have hstep : ∀ key mid, mid.length < input.length →
        (GroupStep depth group outer key (mid ++ more) (rest ++ more) ↔
          GroupStep depth group outer key mid rest) := by
      intro key mid hlt
      have hvalue : (∃ left, skipValue key.type (mid ++ more) = .ok left ∧
            skipGroups depth group outer left = .ok (rest ++ more)) ↔
          ∃ left, skipValue key.type mid = .ok left ∧
            skipGroups depth group outer left = .ok rest := by
        constructor
        · rintro ⟨left, hvalue, hskip⟩
          obtain ⟨left, rfl, hleft⟩ := (fromFront_skipValue _).exists_of_append (a := ()) hvalue
            ((List.suffix_append rest more).trans (suffix_of_skipGroups hskip))
          have hle := length_of_skipValue hleft
          exact ⟨left, hleft, (ih _ (Nat.lt_of_le_of_lt hle hlt) rfl).1 hskip⟩
        · rintro ⟨left, hvalue, hskip⟩
          have hle := length_of_skipValue hvalue
          exact ⟨left ++ more, ((fromFront_skipValue _).append_iff (a := ()) more).2 hvalue,
            (ih _ (Nat.lt_of_le_of_lt hle hlt) rfl).2 hskip⟩
      simp only [GroupStep, List.append_left_inj, ih _ hlt rfl, hvalue]
    rw [skipGroups_eq_ok_iff, skipGroups_eq_ok_iff]
    constructor
    · rintro ⟨key, mid, hkey, hnext⟩
      have hmid := hnext.suffix fun _ hskip => suffix_of_skipGroups hskip
      obtain ⟨left, rfl, hleft⟩ := Key.fromFront_read.exists_of_append hkey
        ((List.suffix_append rest more).trans hmid)
      exact ⟨key, left, hleft, (hstep key left (Key.length_of_read hleft)).1 hnext⟩
    · rintro ⟨key, mid, hkey, hnext⟩
      exact ⟨key, mid ++ more, (Key.fromFront_read.append_iff more).2 hkey,
        (hstep key mid (Key.length_of_read hkey)).2 hnext⟩

/-- A record of any kind is skipped from the front, groups included. -/
theorem fromFront_skip (depth : Nat) (key : Key) :
    FromFront fun input (_ : Unit) rest => skip depth key input = .ok rest := by
  unfold skip
  split
  · exact .of_forall_not fun input _ rest => by simp
  · split
    · exact ⟨suffix_of_skipGroups, skipGroups_append_iff⟩
    · exact fromFront_skipValue key.type

/-! ## The values of fields -/

variable {M V : Type}

/-- The values of a codec are framed as their shape says: they are read from the front, and from the
bytes that are skipped where nobody has declared the field. -/
structure Codec.Framed (codec : Codec V) : Prop where
  skips : ∀ {depth type v v' input rest}, codec.merge depth type v input = .ok (v', rest) →
    skipValue type input = .ok rest
  fromFront : ∀ depth type v,
    FromFront fun input v' rest => codec.merge depth type v input = .ok (v', rest)

/-- The records of a field are framed as their shape says. -/
structure Field.Framed (field : Field M) : Prop where
  skips : ∀ {depth type m m' input rest}, field.merge depth type m input = .ok (m', rest) →
    skipValue type input = .ok rest
  fromFront : ∀ depth type m,
    FromFront fun input m' rest => field.merge depth type m input = .ok (m', rest)

/-- The records of all declared fields are framed as their shape says. -/
def Schema.Framed (s : Schema M) : Prop := ∀ field ∈ s.fields, field.Framed

/-- A field is framed if its values are. -/
@[simp] theorem Field.framed_of {tag : Nat} {name : String} {codec : Codec V} {slot : Slot M V}
    (h : codec.Framed) : (Field.of tag name codec slot).Framed where
  skips hmerge := by
    obtain ⟨v, hv, -⟩ := merge_of_eq_ok_iff.1 hmerge
    exact h.skips hv
  fromFront depth type m :=
    ((h.fromFront depth type (slot.get m)).map fun v m' => m' = slot.set m v).congr
      fun _ _ _ => merge_of_eq_ok_iff

namespace Codec

/-- Numbers are framed. -/
@[simp] theorem framed_number : number.Framed where
  skips := by
    intro depth type v v' input rest h
    obtain ⟨rfl, hread⟩ := expect_eq_ok_iff.1 h
    unfold skipValue
    rw [hread]
    rfl
  fromFront depth type v := by
    by_cases htype : type = .varint
    · subst htype
      exact fromFront_readNumber
    · refine .of_forall_not fun input v' rest h => htype ?_
      exact (expect_eq_ok_iff.1 h).1

/-- A text is delimited bytes that are UTF-8. -/
theorem readText_eq_ok_iff {input rest : Bytes} {s : String} :
    readText input = .ok (s, rest) ↔
      ∃ bytes, Delimited input bytes rest ∧ Utf8.decode? bytes = some s := by
  simp only [delimited_iff, readText]
  cases readLength input with
  | error cause => simp
  | ok result =>
    obtain ⟨count, mid⟩ := result
    cases hdecode : Utf8.decode? (mid.take count) <;> grind

/-- Texts are framed. -/
@[simp] theorem framed_text : text.Framed where
  skips := by
    intro depth type v v' input rest h
    obtain ⟨rfl, hread⟩ := expect_eq_ok_iff.1 h
    obtain ⟨bytes, hbytes, -⟩ := readText_eq_ok_iff.1 hread
    exact skipValue_delimited.2 ⟨bytes, hbytes⟩
  fromFront depth type v := by
    by_cases htype : type = .lengthDelimited
    · subst htype
      exact (fromFront_delimited.map fun bytes s => Utf8.decode? bytes = some s).congr
        fun _ _ _ => readText_eq_ok_iff
    · refine .of_forall_not fun input v' rest h => htype ?_
      exact (expect_eq_ok_iff.1 h).1

end Codec

/-! ## The body of a message -/

namespace Schema

variable {s : Schema M}

/-- A record with the tag of a field is merged into this field. -/
theorem mergeRecord_of_declared {field : Field M} {key : Key}
    (hfield : s.field? key.tag = some field) {depth : Nat} {m m' : M} {input rest : Bytes} :
    s.mergeRecord depth key m input = .ok (m', rest) ↔
      field.merge depth key.type m input = .ok (m', rest) := by
  unfold mergeRecord
  rw [hfield]
  dsimp only
  cases field.merge depth key.type m input with
  | error cause => exact iff_of_false nofun nofun
  | ok result => exact Iff.rfl

/-- A record with any other tag is skipped, and changes nothing. -/
theorem mergeRecord_of_undeclared {key : Key} (hfield : s.field? key.tag = none) {depth : Nat}
    {m m' : M} {input rest : Bytes} :
    s.mergeRecord depth key m input = .ok (m', rest) ↔
      skip depth key input = .ok rest ∧ m' = m := by
  unfold mergeRecord
  rw [hfield]
  dsimp only
  cases skip depth key input with
  | error cause => simp
  | ok left => simp [and_comm, eq_comm]

/-- Merging a record reads from the front, as the codecs of all fields do. -/
theorem fromFront_mergeRecord (h : s.Framed) (depth : Nat) (key : Key) (m : M) :
    FromFront fun input m' rest => s.mergeRecord depth key m input = .ok (m', rest) := by
  cases hfield : s.field? key.tag with
  | some field =>
    exact ((h field (List.mem_of_find?_eq_some hfield)).fromFront depth key.type m).congr
      fun _ _ _ => mergeRecord_of_declared hfield
  | none =>
    refine ((fromFront_skip depth key).map fun _ m' => m' = m).congr fun _ _ _ => ?_
    rw [mergeRecord_of_undeclared hfield]
    simp

/-- A body is read record by record, until as much is left as should be. -/
theorem mergeUntil_eq_ok_iff {depth limit : Nat} {m m' : M} {input rest : Bytes} :
    s.mergeUntil depth limit m input = .ok (m', rest) ↔
      (input.length = limit ∧ m' = m ∧ rest = input) ∨
        limit < input.length ∧ ∃ key mid, Key.read input = .ok (key, mid) ∧
          ∃ next left, s.mergeRecord depth key m mid = .ok (next, left) ∧
            s.mergeUntil depth limit next left = .ok (m', rest) := by
  rw [mergeUntil]
  split
  · next hlt =>
    have hne : input.length ≠ limit := Nat.ne_of_gt hlt
    split
    · next cause hkey => simp [hkey, hne]
    · next key mid hkey =>
      split
      · next cause hrecord => simp [hkey, hrecord, hne]
      · next next left hrecord => simp [hkey, hrecord, hlt, hne]
  · next hge =>
    split
    · next heq => simp [heq, eq_comm]
    · next hne => simp [hne, hge]

/-- What is left after merging records is the end of what there was. -/
theorem suffix_of_mergeUntil (h : s.Framed) {depth limit : Nat} {m m' : M} {input rest : Bytes}
    (hmerge : s.mergeUntil depth limit m input = .ok (m', rest)) : rest <:+ input := by
  induction hn : input.length using Nat.strong_induction_on generalizing m input with
  | _ n ih =>
    subst hn
    rcases mergeUntil_eq_ok_iff.1 hmerge with
      ⟨-, -, rfl⟩ | ⟨-, key, mid, hkey, next, left, hrecord, hleft⟩
    · exact List.suffix_rfl
    · have hlt := Nat.lt_of_le_of_lt (length_of_mergeRecord hrecord) (Key.length_of_read hkey)
      exact (ih _ hlt hleft rfl).trans
        (((fromFront_mergeRecord h depth key m).suffix hrecord).trans
          (Key.fromFront_read.suffix hkey))

/-- **A body is read from the front**: what is behind the bytes that should be left does not
matter. -/
theorem mergeUntil_append_iff (h : s.Framed) {depth limit : Nat} {m m' : M} {input rest : Bytes}
    (more : Bytes) :
    s.mergeUntil depth (limit + more.length) m (input ++ more) = .ok (m', rest ++ more) ↔
      s.mergeUntil depth limit m input = .ok (m', rest) := by
  induction hn : input.length using Nat.strong_induction_on generalizing m input with
  | _ n ih =>
    subst hn
    rw [mergeUntil_eq_ok_iff, mergeUntil_eq_ok_iff, List.length_append, Nat.add_right_cancel_iff,
      Nat.add_lt_add_iff_right, List.append_left_inj]
    refine or_congr Iff.rfl (and_congr_right fun _ => ?_)
    constructor
    · rintro ⟨key, mid, hkey, next, left, hrecord, hleft⟩
      have hmore := (List.suffix_append rest more).trans (suffix_of_mergeUntil h hleft)
      have hfront := fromFront_mergeRecord h depth key m
      obtain ⟨mid, rfl, hmid⟩ := Key.fromFront_read.exists_of_append hkey
        (hmore.trans (hfront.suffix hrecord))
      obtain ⟨left, rfl, hnext⟩ := hfront.exists_of_append hrecord hmore
      have hlt := Nat.lt_of_le_of_lt (length_of_mergeRecord hnext) (Key.length_of_read hmid)
      exact ⟨key, mid, hmid, next, left, hnext, (ih _ hlt rfl).1 hleft⟩
    · rintro ⟨key, mid, hkey, next, left, hrecord, hleft⟩
      have hlt := Nat.lt_of_le_of_lt (length_of_mergeRecord hrecord) (Key.length_of_read hkey)
      exact ⟨key, mid ++ more, (Key.fromFront_read.append_iff more).2 hkey, next, left ++ more,
        ((fromFront_mergeRecord h depth key m).append_iff more).2 hrecord, (ih _ hlt rfl).2 hleft⟩

/-- A message that is preceded by its length is what its own body is read as. -/
theorem mergeDelimited_eq_ok_iff (h : s.Framed) {depth : Nat} {m m' : M} {input rest : Bytes} :
    s.mergeDelimited depth m input = .ok (m', rest) ↔
      ∃ body, Delimited input body rest ∧ s.mergeUntil depth 0 m body = .ok (m', []) := by
  unfold mergeDelimited
  simp only [delimited_iff]
  cases hlength : readLength input with
  | error cause => simp
  | ok result =>
    obtain ⟨count, mid⟩ := result
    have hcount := (length_of_readLength hlength).1
    have hbody : ∀ rest, s.mergeUntil depth 0 m (mid.take count) = .ok (m', []) ∧
        rest = mid.drop count ↔ s.mergeUntil depth (mid.length - count) m mid = .ok (m', rest) := by
      intro rest
      have happend :
          s.mergeUntil depth (0 + (mid.drop count).length) m (mid.take count ++ mid.drop count) =
              .ok (m', [] ++ mid.drop count) ↔
            s.mergeUntil depth 0 m (mid.take count) = .ok (m', []) :=
        mergeUntil_append_iff h (mid.drop count)
      rw [List.take_append_drop, List.nil_append, Nat.zero_add, List.length_drop] at happend
      rw [← happend]
      constructor
      · rintro ⟨hmerge, rfl⟩
        exact hmerge
      · intro hmerge
        -- what is left over has the right length, so it is the rest of the input
        obtain ⟨front, rfl⟩ := suffix_of_mergeUntil h hmerge
        have hrest := (length_of_mergeUntil hmerge).1
        rw [List.length_append] at hrest hcount
        have hfront : front.length = count := by omega
        have hdrop : (front ++ rest).drop count = rest := by rw [← hfront, List.drop_left]
        rw [hdrop]
        exact ⟨hmerge, rfl⟩
    dsimp only
    rw [← hbody rest]
    constructor
    · rintro ⟨hmerge, hrest⟩
      exact ⟨_, ⟨count, mid, rfl, rfl, hrest⟩, hmerge⟩
    · rintro ⟨_, ⟨count', mid', heq, rfl, hrest⟩, hmerge⟩
      obtain ⟨rfl, rfl⟩ := Prod.mk.inj (Except.ok.inj heq)
      exact ⟨hmerge, hrest⟩

end Schema

/-! ## Messages inside messages -/

namespace Codec

variable {s : Schema M}

/-- A message inside a message takes one level, and is what its own body is read as. -/
theorem mergeMessage_eq_ok_iff (h : s.Framed) {depth : Nat} {type : WireType} {m m' : M}
    {input rest : Bytes} :
    mergeMessage s depth type m input = .ok (m', rest) ↔ ∃ body, Delimited input body rest ∧
      type = .lengthDelimited ∧ ∃ inner, depth = inner + 1 ∧
        s.mergeUntil inner 0 m body = .ok (m', []) := by
  unfold mergeMessage
  rw [expect_eq_ok_iff]
  cases depth with
  | zero => simp
  | succ depth => simp [Schema.mergeDelimited_eq_ok_iff h, and_left_comm]

/-- A message inside a message is read from the front. -/
theorem fromFront_mergeMessage (h : s.Framed) (depth : Nat) (type : WireType) (m : M) :
    FromFront fun input m' rest => mergeMessage s depth type m input = .ok (m', rest) :=
  (fromFront_delimited.map fun body m' => type = .lengthDelimited ∧ ∃ inner, depth = inner + 1 ∧
    s.mergeUntil inner 0 m body = .ok (m', [])).congr fun _ _ _ => mergeMessage_eq_ok_iff h

/-- Reading a message inside a message takes what skipping it takes. -/
theorem skips_mergeMessage (h : s.Framed) {depth : Nat} {type : WireType} {m m' : M}
    {input rest : Bytes} (hmerge : mergeMessage s depth type m input = .ok (m', rest)) :
    skipValue type input = .ok rest := by
  obtain ⟨body, hbody, rfl, -⟩ := (mergeMessage_eq_ok_iff h).1 hmerge
  exact skipValue_delimited.2 ⟨body, hbody⟩

/-- Messages inside messages are framed. -/
@[simp] theorem framed_message (h : s.Framed) : (message s).Framed where
  skips hmerge := by
    obtain ⟨m, hm, -⟩ := merge_message_eq_ok_iff.1 hmerge
    exact skips_mergeMessage h hm
  fromFront depth type v :=
    ((fromFront_mergeMessage h depth type (v.getD s.empty)).map fun m v' => v' = some m).congr
      fun _ _ _ => merge_message_eq_ok_iff

/-- Lists of messages are framed. -/
@[simp] theorem framed_messages (h : s.Framed) : (messages s).Framed where
  skips hmerge := by
    obtain ⟨m, hm, -⟩ := merge_messages_eq_ok_iff.1 hmerge
    exact skips_mergeMessage h hm
  fromFront depth type v :=
    ((fromFront_mergeMessage h depth type s.empty).map fun m v' => v' = v ++ [m]).congr
      fun _ _ _ => merge_messages_eq_ok_iff

end Codec

end ContainerUsage.Wire
