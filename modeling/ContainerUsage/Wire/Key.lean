import ContainerUsage.Wire.Error
import ContainerUsage.Wire.Varint
/-!
# Keys and the parts of a record

A record of a message is a key and a value.  The key is one base-128 number that holds the field's
number and the shape of the value.  This file reads and writes keys, the two kinds of value that the
payloads use (numbers and length-prefixed bytes), and skips a record whose field nobody declared,
groups included.

A group is skipped by one loop over the records inside it, with the groups that are open kept on a
stack: a group can hold groups, and each end has to name the group that was begun last.
-/

namespace ContainerUsage.Wire

/-- The result of reading from the front of an input: a value and the input after it. -/
abbrev Reading (α : Type) := Except Error (α × Bytes)

/-- The key of a record. -/
structure Key where
  tag : Nat
  type : WireType
  deriving DecidableEq, Repr

namespace Key

/-- The greatest number of a field. -/
def maxTag : Nat := 536870911

/-- The number that stands for a key. -/
def toNat (k : Key) : Nat := k.tag * 8 + k.type.code

/-- The bytes of a key. -/
def write (k : Key) : Bytes := Varint.writeNat k.toNat

/-- Reads a key.  The number is checked first for its size, then for the shape, and then for the
field number zero, which nothing has. -/
def read (input : Bytes) : Reading Key :=
  match Varint.read input with
  | none => .error ⟨.invalidVarint, []⟩
  | some (v, rest) =>
    if UInt32.size ≤ v.toNat then .error ⟨.invalidKey v.toNat, []⟩
    else match WireType.ofCode? (v.toNat % 8) with
      | none => .error ⟨.invalidWireType (v.toNat % 8), []⟩
      | some type =>
        if v.toNat / 8 = 0 then .error ⟨.invalidTag, []⟩ else .ok (⟨v.toNat / 8, type⟩, rest)

/-- Reading a key takes at least one byte, so that reading records ends. -/
theorem length_of_read {input rest : Bytes} {k : Key} (h : read input = .ok (k, rest)) :
    rest.length < input.length := by
  unfold read at h
  split at h
  · simp at h
  · next v r hv =>
    repeat' split at h
    all_goals try simp only [reduceCtorEq, Except.ok.injEq, Prod.mk.injEq] at h
    exact h.2 ▸ Varint.length_of_read hv

/-- A key is read back from what was written. -/
theorem read_write (k : Key) (hpos : 0 < k.tag) (hle : k.tag ≤ maxTag) (rest : Bytes) :
    read (write k ++ rest) = .ok (k, rest) := by
  obtain ⟨tag, type⟩ := k
  have hc := type.code_lt
  have hn : tag * 8 + type.code < UInt32.size := by simp only [maxTag, UInt32.size] at hle ⊢; omega
  have hto : (tag * 8 + type.code).toUInt64.toNat = tag * 8 + type.code :=
    UInt64.toNat_ofNat_of_lt' (Nat.lt_trans hn (by decide))
  have hw : write ⟨tag, type⟩ = Varint.write (tag * 8 + type.code).toUInt64 := by
    simp only [write, toNat, Varint.write, hto]
  have hmod : (tag * 8 + type.code) % 8 = type.code := by omega
  have hdiv : (tag * 8 + type.code) / 8 = tag := by omega
  simp only at hpos
  rw [hw, read, Varint.read_write]
  simp only [hto, hmod, hdiv, WireType.ofCode?_code]
  rw [if_neg (by omega), if_neg (by omega)]

end Key

/-! ## Values -/

/-- Reads a number. -/
def readNumber (input : Bytes) : Reading UInt64 :=
  match Varint.read input with
  | some result => .ok result
  | none => .error ⟨.invalidVarint, []⟩

/-- Reading a number takes at least one byte. -/
theorem length_of_readNumber {input rest : Bytes} {v : UInt64}
    (h : readNumber input = .ok (v, rest)) : rest.length < input.length := by
  unfold readNumber at h
  split at h
  · next hv => simp only [Except.ok.injEq] at h; exact Varint.length_of_read (h ▸ hv)
  · simp at h

/-- A number is read back from what it is written as. -/
@[simp] theorem readNumber_write (v : UInt64) (rest : Bytes) :
    readNumber (Varint.write v ++ rest) = .ok (v, rest) := by
  simp [readNumber, Varint.read_write]

/-- Reads a length that is not greater than what is left of the input. -/
def readLength (input : Bytes) : Reading Nat :=
  match readNumber input with
  | .error e => .error e
  | .ok (v, rest) => if rest.length < v.toNat then .error ⟨.underflow, []⟩ else .ok (v.toNat, rest)

/-- There are as many bytes left as a length says, and fewer than before. -/
theorem length_of_readLength {input rest : Bytes} {n : Nat} (h : readLength input = .ok (n, rest)) :
    n ≤ rest.length ∧ rest.length < input.length := by
  unfold readLength at h
  split at h
  · simp at h
  · next hv =>
    split at h
    · simp at h
    · simp only [Except.ok.injEq, Prod.mk.injEq] at h
      obtain ⟨rfl, rfl⟩ := h
      exact ⟨by omega, length_of_readNumber hv⟩

/-- The bytes of a value that is preceded by its length. -/
def writeDelimited (body : Bytes) : Bytes := Varint.write body.length.toUInt64 ++ body

/-- The length in front of a value is read back. -/
theorem readLength_writeDelimited {body : Bytes} (h : body.length < UInt64.size) (rest : Bytes) :
    readLength (writeDelimited body ++ rest) = .ok (body.length, body ++ rest) := by
  have hto : body.length.toUInt64.toNat = body.length := UInt64.toNat_ofNat_of_lt' h
  simp [readLength, writeDelimited, hto]

/-! ## Skipping -/

/-- Leaves out `count` bytes. -/
def skipBytes (count : Nat) (input : Bytes) : Except Error Bytes :=
  if input.length < count then .error ⟨.underflow, []⟩ else .ok (input.drop count)

/-- Skipping bytes adds none. -/
theorem length_of_skipBytes {count : Nat} {input rest : Bytes}
    (h : skipBytes count input = .ok rest) : rest.length ≤ input.length := by
  unfold skipBytes at h
  split at h
  · simp at h
  · simp only [Except.ok.injEq] at h
    simp [← h]

/-- Skips a value that is no group. -/
def skipValue (type : WireType) (input : Bytes) : Except Error Bytes :=
  match type with
  | .varint => (readNumber input).map Prod.snd
  | .sixtyFourBit => skipBytes 8 input
  | .thirtyTwoBit => skipBytes 4 input
  | .lengthDelimited =>
    match readLength input with
    | .error e => .error e
    | .ok (count, rest) => .ok (rest.drop count)
  | .startGroup | .endGroup => .error ⟨.unexpectedEndGroup, []⟩

/-- Skipping a value adds no bytes. -/
theorem length_of_skipValue {type : WireType} {input rest : Bytes}
    (h : skipValue type input = .ok rest) : rest.length ≤ input.length := by
  unfold skipValue at h
  split at h
  · cases hv : readNumber input with
    | error e => simp [hv, Except.map] at h
    | ok r =>
      obtain ⟨v, r⟩ := r
      simp only [hv, Except.map, Except.ok.injEq] at h
      exact h ▸ Nat.le_of_lt (length_of_readNumber hv)
  · exact length_of_skipBytes h
  · exact length_of_skipBytes h
  · split at h
    · simp at h
    · next hv =>
      have := length_of_readLength hv
      simp only [Except.ok.injEq] at h
      simp only [← h, List.length_drop]
      omega
  · simp at h
  · simp at h

/-- Skips records until all the groups in `outer` and the group `group` inside them have ended.
Each record needs one more level of nesting than the groups around it, of which there may be at most
`depth`. -/
def skipGroups (depth : Nat) (group : Nat) (outer : List Nat) (input : Bytes) :
    Except Error Bytes :=
  match h : Key.read input with
  | .error e => .error e
  | .ok (⟨tag, .endGroup⟩, rest) =>
    if tag = group then
      match outer with
      | [] => .ok rest
      | next :: outer =>
        have := Key.length_of_read h
        skipGroups depth next outer rest
    else .error ⟨.unexpectedEndGroup, []⟩
  | .ok (⟨tag, .startGroup⟩, rest) =>
    if depth ≤ outer.length + 1 then .error ⟨.recursionLimit, []⟩
    else
      have := Key.length_of_read h
      skipGroups depth tag (group :: outer) rest
  | .ok (⟨_, type⟩, rest) =>
    if depth ≤ outer.length + 1 then .error ⟨.recursionLimit, []⟩
    else
      match h' : skipValue type rest with
      | .error e => .error e
      | .ok rest' =>
        have := Key.length_of_read h
        have := length_of_skipValue h'
        skipGroups depth group outer rest'
termination_by input.length

/-- Skipping the rest of a group adds no bytes. -/
theorem length_of_skipGroups {depth group : Nat} {outer : List Nat} {input rest : Bytes}
    (h : skipGroups depth group outer input = .ok rest) : rest.length ≤ input.length := by
  fun_induction skipGroups depth group outer input with
  | case1 => simp at h
  | case2 input tag rest' hk =>
    have := Key.length_of_read hk
    simp only [Except.ok.injEq] at h
    subst h
    omega
  | case3 _ _ _ _ _ _ _ ih => have := ih h; omega
  | case4 => simp at h
  | case5 => simp at h
  | case6 _ _ _ _ _ _ _ _ ih => have := ih h; omega
  | case7 => simp at h
  | case8 => simp at h
  | case9 _ _ _ _ _ _ _ _ _ _ _ _ _ _ ih => have := ih h; omega

/-- Skips the value of a record whose field is not declared, inside at most `depth` levels. -/
def skip (depth : Nat) (key : Key) (input : Bytes) : Except Error Bytes :=
  if depth = 0 then .error ⟨.recursionLimit, []⟩
  else if key.type = .startGroup then skipGroups depth key.tag [] input
  else skipValue key.type input

/-- Skipping a record adds no bytes. -/
theorem length_of_skip {depth : Nat} {key : Key} {input rest : Bytes}
    (h : skip depth key input = .ok rest) : rest.length ≤ input.length := by
  unfold skip at h
  split at h
  · simp at h
  · split at h
    · exact length_of_skipGroups h
    · exact length_of_skipValue h

end ContainerUsage.Wire
