import Mathlib
import ContainerUsage.Text.Utf8

/-!
# Texts and their bytes

The bytes of a text are those of its characters, one after the other (`encode_eq_flatMap`). Two
things follow for those who look at bytes only:

* `mem_encode_iff`: an ASCII byte stands for its character, and is no part of another one. So a text
  can be cut at a newline or a slash in either form. Bytes that are all ASCII are always those of a
  text (`exists_encode_eq`).
* `encode_lt_encode_iff`: texts are ordered as their bytes are.
-/

namespace ContainerUsage.Utf8

/-! ## Characters -/

/-- An ASCII byte is the byte of one character, and of no other. -/
theorem mem_utf8EncodeChar_iff {b : UInt8} (hb : b < 128) {c : Char} :
    b ∈ String.utf8EncodeChar c ↔ c.toNat = b.toNat := by
  have hc := c.val.toNat_lt
  have hlow : b.toNat < 128 := hb
  fun_cases String.utf8EncodeChar c <;>
  · simp only [List.mem_cons, List.not_mem_nil, or_false, ← UInt8.toNat_inj, UInt8.toNat_ofNat',
      Char.toNat]
    omega

/-- An ASCII character is one byte. -/
theorem utf8EncodeChar_ofNat {b : UInt8} (hb : b < 128) :
    String.utf8EncodeChar (Char.ofNat b.toNat) = [b] := by
  have hlow : b.toNat < 128 := hb
  have hnat : (Char.ofNat b.toNat).val.toNat = b.toNat := by
    show (Char.ofNat b.toNat).toNat = b.toNat
    rw [Char.toNat_ofNat, if_pos (.inl (by omega))]
  rw [String.utf8EncodeChar]
  simp only [hnat, if_pos (show b.toNat ≤ 0x7f by omega)]
  simp

/-- There are fewer code points than this. -/
theorem toNat_val_lt (c : Char) : c.val.toNat < 1114112 := by
  rcases c.valid with hlow | ⟨-, hhigh⟩
  · exact Nat.lt_trans hlow (by decide)
  · exact hhigh

/-- Numbers are compared by their last six bits only if they agree in the others. -/
theorem div_lt_or_mod_lt {m n : Nat} (h : m < n) :
    m / 64 < n / 64 ∨ m / 64 = n / 64 ∧ m % 64 < n % 64 := by
  omega

/-- A lesser character has lesser bytes, whatever follows it. -/
theorem utf8EncodeChar_append_lt {c d : Char} (h : c < d) (xs ys : Bytes) :
    String.utf8EncodeChar c ++ xs < String.utf8EncodeChar d ++ ys := by
  have hlt : c.val.toNat < d.val.toNat := h
  have hc := toNat_val_lt c
  have hd := toNat_val_lt d
  unfold String.utf8EncodeChar
  dsimp only
  generalize c.val.toNat = m at *
  generalize d.val.toNat = n at *
  -- the bytes hold groups of six bits, here from the last one on
  have hfirst := div_lt_or_mod_lt hlt
  have hsecond := @div_lt_or_mod_lt (m / 64) (n / 64)
  have hthird := @div_lt_or_mod_lt (m / 64 / 64) (n / 64 / 64)
  simp only [Nat.div_div_eq_div_mul, Nat.reduceMul] at hsecond hthird
  split_ifs <;>
  · simp only [List.cons_append, List.nil_append, List.cons_lt_cons_iff, UInt8.lt_iff_toNat_lt,
      ← UInt8.toNat_inj, UInt8.toNat_ofNat']
    simp (disch := omega) only [Nat.reducePow, Nat.mod_eq_of_lt]
    omega

/-! ## Texts -/

/-- The bytes of a text are those of its characters. -/
theorem encode_eq_flatMap (s : String) : encode s = s.toList.flatMap String.utf8EncodeChar := by
  rw [encode, ← String.utf8Encode_toList, List.utf8Encode, List.data_toByteArray]

/-- Texts are encoded one after the other. -/
theorem encode_append (s t : String) : encode (s ++ t) = encode s ++ encode t := by
  rw [encode_eq_flatMap, encode_eq_flatMap, encode_eq_flatMap, String.toList_append,
    List.flatMap_append]

/-- **An ASCII byte stands for its character.** -/
theorem mem_encode_iff {c : Char} (hc : c.toNat < 128) {s : String} :
    UInt8.ofNat c.toNat ∈ encode s ↔ c ∈ s.toList := by
  have hbyte : (UInt8.ofNat c.toNat).toNat = c.toNat := by
    rw [UInt8.toNat_ofNat']
    omega
  have hlow : UInt8.ofNat c.toNat < 128 := by
    rw [UInt8.lt_iff_toNat_lt, hbyte]
    exact hc
  rw [encode_eq_flatMap, List.mem_flatMap]
  constructor
  · rintro ⟨d, hd, hmem⟩
    rw [mem_utf8EncodeChar_iff hlow, hbyte] at hmem
    rwa [← Char.toNat_inj.1 hmem]
  · intro hmem
    exact ⟨c, hmem, (mem_utf8EncodeChar_iff hlow).2 hbyte.symm⟩

/-- ASCII bytes are the bytes of a text. -/
theorem exists_encode_eq {bytes : Bytes} (h : ∀ b ∈ bytes, b < 128) : ∃ s, encode s = bytes := by
  refine ⟨String.ofList (bytes.map fun b => Char.ofNat b.toNat), ?_⟩
  rw [encode_eq_flatMap, String.toList_ofList, List.flatMap_map]
  calc bytes.flatMap (fun b => String.utf8EncodeChar (Char.ofNat b.toNat))
      = bytes.flatMap fun b => [b] := List.flatMap_congr fun b hb => utf8EncodeChar_ofNat (h b hb)
    _ = bytes := List.flatMap_singleton' bytes

/-- Lesser texts have lesser bytes. -/
theorem encode_lt_encode {s t : String} (h : s < t) : encode s < encode t := by
  rw [String.lt_iff] at h
  rw [encode_eq_flatMap, encode_eq_flatMap]
  generalize s.toList = cs at *
  generalize t.toList = ds at *
  induction h with
  | @nil d ds =>
    obtain ⟨byte, bytes, hbytes⟩ :=
      List.exists_cons_of_ne_nil (String.utf8EncodeChar_ne_nil (c := d))
    rw [List.flatMap_cons, hbytes]
    exact List.nil_lt_cons _ _
  | rel hlt => exact utf8EncodeChar_append_lt hlt _ _
  | cons _ ih => exact List.append_left_lt ih

/-- **Texts are ordered as their bytes are.** -/
theorem encode_lt_encode_iff {s t : String} : encode s < encode t ↔ s < t := by
  refine ⟨fun h => ?_, encode_lt_encode⟩
  rcases lt_trichotomy s t with hlt | rfl | hgt
  · exact hlt
  · exact absurd h (List.lt_irrefl _)
  · exact absurd h (List.lt_asymm (encode_lt_encode hgt))

end ContainerUsage.Utf8
