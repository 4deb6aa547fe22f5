import ContainerUsage.Text.Utf8
/-!
# Base-128 numbers

The numbers of a wire message are written in base 128, the least significant digit first, one digit
a byte; every byte but the last has its top bit set.  `write` uses as few bytes as it can.  `read`
also accepts longer forms with zero digits at the end, but no more than ten bytes and no number of
more than 64 bits.

The main statement is `read_write`: a number is read back from what was written, whatever follows.
`length_of_read` says that reading always consumes something, which is what ends the loops over a
message.
-/

namespace ContainerUsage.Wire.Varint

/-! ## Writing -/

/-- The digits of a number in base 128, with the top bit set on all but the last. -/
def writeNat (n : Nat) : Bytes :=
  if n < 128 then [n.toUInt8] else (n % 128 + 128).toUInt8 :: writeNat (n / 128)
termination_by n

/-- The shortest form of a number. -/
def write (v : UInt64) : Bytes := writeNat v.toNat

/-! ## Reading -/

/-- Reads a number of at most `count` bytes and returns it with the bytes after it. -/
def readNat : (count : Nat) → Bytes → Option (Nat × Bytes)
  | 0, _ => none
  | _ + 1, [] => none
  | count + 1, b :: rest =>
    if b.toNat < 128 then some (b.toNat, rest)
    else (readNat count rest).map fun more => (b.toNat - 128 + 128 * more.1, more.2)

/-- Reads a number of at most ten bytes and at most 64 bits. -/
def read (input : Bytes) : Option (UInt64 × Bytes) :=
  match readNat 10 input with
  | some (n, rest) => if n < UInt64.size then some (n.toUInt64, rest) else none
  | none => none

/-! ## Reading consumes -/

/-- Reading a number takes at least one byte. -/
theorem length_of_readNat {count : Nat} {input rest : Bytes} {n : Nat}
    (h : readNat count input = some (n, rest)) : rest.length < input.length := by
  induction count generalizing input n with
  | zero => simp [readNat] at h
  | succ count ih =>
    cases input with
    | nil => simp [readNat] at h
    | cons b input =>
      rw [readNat] at h
      split at h
      · simp only [Option.some.injEq, Prod.mk.injEq] at h
        simp [← h.2]
      · simp only [Option.map_eq_some_iff, Prod.mk.injEq, Prod.exists] at h
        obtain ⟨m, r, hr, -, rfl⟩ := h
        have := ih hr
        simp only [List.length_cons]
        omega

/-- Reading a varint takes at least one byte. -/
theorem length_of_read {input rest : Bytes} {v : UInt64} (h : read input = some (v, rest)) :
    rest.length < input.length := by
  unfold read at h
  split at h
  · next n r hn =>
    split at h
    · simp only [Option.some.injEq, Prod.mk.injEq] at h
      exact h.2 ▸ length_of_readNat hn
    · simp at h
  · simp at h

/-! ## Reading what is written -/

/-- A number below 128 is one byte. -/
theorem writeNat_of_lt {n : Nat} (h : n < 128) : writeNat n = [n.toUInt8] := by
  rw [writeNat, if_pos h]

/-- A number of 128 or more is its last seven bits, marked, before the rest. -/
theorem writeNat_of_le {n : Nat} (h : 128 ≤ n) :
    writeNat n = (n % 128 + 128).toUInt8 :: writeNat (n / 128) := by
  rw [writeNat, if_neg (by omega)]

/-- A number is read back from what it is written as, if it has no more bytes than are read. -/
theorem readNat_writeNat (count n : Nat) (h : n < 1 <<< (7 * (count + 1))) (rest : Bytes) :
    readNat (count + 1) (writeNat n ++ rest) = some (n, rest) := by
  induction count generalizing n with
  | zero =>
    have hn : n < 128 := by simpa using h
    have hb : (n.toUInt8).toNat = n := by simp; omega
    simp [writeNat_of_lt hn, readNat, hb, hn]
  | succ count ih =>
    by_cases hn : n < 128
    · have hb : (n.toUInt8).toNat = n := by simp; omega
      simp [writeNat_of_lt hn, readNat, hb, hn]
    · have hb : ((n % 128 + 128).toUInt8).toNat = n % 128 + 128 := by simp; omega
      have hd : n / 128 < 1 <<< (7 * (count + 1)) := by
        rw [Nat.one_shiftLeft] at h ⊢
        rw [Nat.mul_add 7 (count + 1), Nat.pow_add] at h
        exact Nat.div_lt_of_lt_mul (by rwa [Nat.mul_comm] at h)
      rw [writeNat_of_le (by omega), List.cons_append, readNat, hb, if_neg (by omega), ih _ hd]
      simp only [Option.map_some, Option.some.injEq, Prod.mk.injEq, and_true]
      omega

/-- A number is read back from its shortest form. -/
theorem read_write (v : UInt64) (rest : Bytes) : read (write v ++ rest) = some (v, rest) := by
  have hv := v.toNat_lt
  have h := readNat_writeNat 9 v.toNat (by omega) rest
  simp [read, write, h, hv]

end ContainerUsage.Wire.Varint
