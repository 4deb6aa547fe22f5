/-!
# UTF-8

Files and wire messages hold bytes, labels and names are texts.  `encode` and `decode?` go between
the two: `decode?` is strict, and the two are inverse to each other (`decode?_encode`,
`encode_of_decode?`).

An error text may have to show bytes that are no UTF-8.  `decodeLossy` reads them as far as it can
and puts one U+FFFD for every *maximal subpart*: the longest run of bytes that starts a character
and could still have been continued, or a single byte that starts none.  It is an automaton over the
bytes whose state says which continuation bytes would be good next.
-/

namespace ContainerUsage

/-- The contents of a file or of a message body. -/
abbrev Bytes := List UInt8

namespace Utf8

/-! ## Strict -/

/-- The bytes of a text. -/
def encode (s : String) : Bytes := s.toByteArray.data.toList

/-- The text that bytes encode, unless they are no UTF-8. -/
def decode? (bytes : Bytes) : Option String := String.fromUTF8? ⟨bytes.toArray⟩

/-- A text is decoded from its own bytes. -/
theorem decode?_encode (s : String) : decode? (encode s) = some s := by
  have h : (⟨s.toByteArray.data.toList.toArray⟩ : ByteArray) = s.toByteArray := by simp
  unfold decode? encode
  rw [h]
  unfold String.fromUTF8?
  rw [dif_pos s.isValidUTF8]
  rfl

/-- A text is decoded from no other bytes than its own. -/
theorem encode_of_decode? {bytes : Bytes} {s : String} (h : decode? bytes = some s) :
    encode s = bytes := by
  unfold decode? String.fromUTF8? at h
  split at h
  · simp only [Option.some.injEq] at h
    subst h
    simp [encode, String.fromUTF8]
  · simp at h

/-- Bytes are read as a text exactly if they are the bytes of that text. -/
theorem decode?_eq_some_iff {bytes : Bytes} {s : String} :
    decode? bytes = some s ↔ bytes = encode s :=
  ⟨fun h => (encode_of_decode? h).symm, fun h => h ▸ decode?_encode s⟩

/-! ## Lossy -/

/-- The character that stands for bytes that are no character. -/
def replacement : Char := '\ufffd'

/-- What has been read of a character that is not complete: the bits of its code point so far, and
for each byte that is still missing the least and the greatest good value. -/
structure Pending where
  bits : Nat
  missing : List (UInt8 × UInt8)

/-- The state between two characters. -/
def Pending.between : Pending := ⟨0, []⟩

/-- A continuation byte that is not restricted further. -/
def anyContinuation : UInt8 × UInt8 := (0x80, 0xBF)

/-- What the first byte of a character of more than one byte asks for.  The restrictions on the
second byte keep out overlong forms, surrogates and numbers above U+10FFFF. -/
def lead? (b : UInt8) : Option Pending :=
  if 0xC2 ≤ b && b ≤ 0xDF then some ⟨b.toNat - 0xC0, [anyContinuation]⟩
  else if b = 0xE0 then some ⟨0, [(0xA0, 0xBF), anyContinuation]⟩
  else if b = 0xED then some ⟨0xD, [(0x80, 0x9F), anyContinuation]⟩
  else if 0xE1 ≤ b && b ≤ 0xEF then some ⟨b.toNat - 0xE0, [anyContinuation, anyContinuation]⟩
  else if b = 0xF0 then some ⟨0, [(0x90, 0xBF), anyContinuation, anyContinuation]⟩
  else if 0xF1 ≤ b && b ≤ 0xF3 then
    some ⟨b.toNat - 0xF0, [anyContinuation, anyContinuation, anyContinuation]⟩
  else if b = 0xF4 then some ⟨4, [(0x80, 0x8F), anyContinuation, anyContinuation]⟩
  else none

/-- Reads a byte where a character starts: what is written and the state afterwards. -/
def start (b : UInt8) : List Char × Pending :=
  if b < 0x80 then ([Char.ofNat b.toNat], .between)
  else match lead? b with
    | some state => ([], state)
    | none => ([replacement], .between)

/-- Reads one byte.  A byte that does not continue the character that was begun ends it as a
subpart and is read as the start of the next one. -/
def step (state : Pending) (b : UInt8) : List Char × Pending :=
  match state.missing with
  | [] => start b
  | (low, high) :: more =>
    if low ≤ b && b ≤ high then
      let bits := state.bits * 64 + b.toNat % 64
      if more.isEmpty then ([Char.ofNat bits], .between) else ([], ⟨bits, more⟩)
    else (replacement :: (start b).1, (start b).2)

/-- Reads bytes from a state on. -/
def decodeFrom (state : Pending) : Bytes → List Char
  | [] => if state.missing.isEmpty then [] else [replacement]
  | b :: rest => (step state b).1 ++ decodeFrom (step state b).2 rest

/-- The text of bytes, with U+FFFD for each maximal subpart that is no character. -/
def decodeLossy (bytes : Bytes) : String := String.ofList (decodeFrom .between bytes)

/-- A character cut short by the end, a surrogate, and a byte that starts nothing. -/
example : decodeFrom .between [0xE2, 0x82] = ['\ufffd'] ∧
    decodeFrom .between [0xED, 0xA0, 0x80] = ['\ufffd', '\ufffd', '\ufffd'] ∧
    decodeFrom .between [0x61, 0xFF, 0xC3, 0xA9] = ['a', '\ufffd', 'é'] := by decide

end Utf8

end ContainerUsage
