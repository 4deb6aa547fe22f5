import ContainerUsage.Text.Utf8
/-!
# Container identifiers

An identifier is a text of at least one and at most 255 bytes.  Runtimes name the scopes of their
containers after digests, so an identifier that comes from a scope is made of lowercase ASCII
letters and digits only.
-/

namespace ContainerUsage

/-- The greatest length of an identifier in bytes. -/
def ContainerId.maxLength : Nat := 255

/-- The identifier of a container. -/
structure ContainerId where
  text : String
  nonempty : text.utf8ByteSize ≠ 0
  length_le : text.utf8ByteSize ≤ ContainerId.maxLength
  deriving DecidableEq

namespace ContainerId

/-- A text that is no identifier. -/
structure Invalid where
  text : String
  deriving DecidableEq, Repr

/-- The text of the error. -/
def Invalid.message (e : Invalid) : String := "invalid container id: " ++ e.text

/-- The identifier with a given text. -/
def ofText (text : String) : Except Invalid ContainerId :=
  if h : text.utf8ByteSize ≠ 0 ∧ text.utf8ByteSize ≤ maxLength then .ok ⟨text, h.1, h.2⟩
  else .error ⟨text⟩

/-- Whether a byte is a lowercase ASCII letter or a digit. -/
def isScopeByte (b : UInt8) : Bool := (0x30 ≤ b && b ≤ 0x39) || (0x61 ≤ b && b ≤ 0x7A)

/-- The identifier in the name of a scope.  Bytes that are none are shown as far as they are
UTF-8. -/
def ofScope (bytes : Bytes) : Except Invalid ContainerId :=
  match Utf8.decode? bytes with
  | some text => if bytes.all isScopeByte then ofText text else .error ⟨Utf8.decodeLossy bytes⟩
  | none => .error ⟨Utf8.decodeLossy bytes⟩

/-- An identifier that is made of a text has this text. -/
theorem ofText_eq_ok_iff {text : String} {id : ContainerId} :
    ofText text = .ok id ↔ id.text = text := by
  obtain ⟨t, hne, hle⟩ := id
  unfold ofText
  constructor
  · intro h
    split at h
    · simp only [Except.ok.injEq, ContainerId.mk.injEq] at h
      exact h.symm
    · simp at h
  · rintro rfl
    simp [hne, hle]

end ContainerId

end ContainerUsage
