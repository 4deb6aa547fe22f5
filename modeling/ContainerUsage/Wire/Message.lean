import ContainerUsage.Wire.Key
/-!
# Messages given by a table of fields

A message type is a `Schema`: its name, the message without any field, and a table of its declared
fields.  A field has a number, a name, the place in the message where its value is kept (a `Slot`),
and the way in which a value of its kind is written and read (a `Codec`).  There are four kinds:
numbers, texts, messages inside the message, and lists of such messages.

Reading is merging.  The records of a body are taken in order; each one changes the value of its
field, so a number that comes again replaces the earlier one, a message inside the message is
continued, and a list grows.  Records of undeclared fields are skipped.  What a reader consumes is
bounded by `length_le`, a law that every codec carries: it is what makes the loop over a body end.
-/

namespace ContainerUsage.Wire

/-! ## Codecs and fields -/

/-- How values of one kind are written and read. -/
structure Codec (V : Type) where
  /-- Reads one record's value into the value that there is, inside at most `depth` levels. -/
  merge : (depth : Nat) → WireType → V → Bytes → Reading V
  /-- Reading a record never gives input back. -/
  length_le : ∀ {depth type v input v' rest}, merge depth type v input = .ok (v', rest) →
    rest.length ≤ input.length
  /-- The records of a value in a field with a given number. -/
  write : (tag : Nat) → V → Bytes

/-- The place in a message where the value of a field is kept. -/
structure Slot (M V : Type) where
  get : M → V
  set : M → V → M
  /-- What is put there is there. -/
  get_set : ∀ m v, get (set m v) = v := by intros; rfl
  /-- What was put there before is gone. -/
  set_set : ∀ m v w, set (set m v) w = set m w := by intros; rfl
  /-- Nothing else of the message changes. -/
  set_get : ∀ m, set m (get m) = m := by intros; rfl

/-- A declared field of a message. -/
structure Field (M : Type) where
  tag : Nat
  name : String
  /-- Reads one record of the field into a message. -/
  merge : (depth : Nat) → WireType → M → Bytes → Reading M
  length_le : ∀ {depth type m input m' rest}, merge depth type m input = .ok (m', rest) →
    rest.length ≤ input.length
  /-- The records of the field in a message. -/
  write : M → Bytes

/-- The field that keeps a value of a given kind in a given place. -/
def Field.of {M V : Type} (tag : Nat) (name : String) (codec : Codec V) (slot : Slot M V) :
    Field M where
  tag := tag
  name := name
  merge depth type m input :=
    match codec.merge depth type (slot.get m) input with
    | .error e => .error e
    | .ok (v, rest) => .ok (slot.set m v, rest)
  length_le h := by
    split at h
    · simp at h
    · next hv =>
      simp only [Except.ok.injEq, Prod.mk.injEq] at h
      exact h.2 ▸ codec.length_le hv
  write m := codec.write tag (slot.get m)

/-- A message type. -/
structure Schema (M : Type) where
  name : String
  /-- The message without any field. -/
  empty : M
  /-- The declared fields, in the order of their numbers, in which they are also written. -/
  fields : List (Field M)

namespace Schema

variable {M : Type}

/-! ## Writing -/

/-- The body of a message. -/
def write (s : Schema M) (m : M) : Bytes := s.fields.flatMap fun field => field.write m

/-! ## Reading -/

/-- The declared field with a given number. -/
def field? (s : Schema M) (tag : Nat) : Option (Field M) := s.fields.find? (·.tag = tag)

/-- Reads the value of one record into a message. -/
def mergeRecord (s : Schema M) (depth : Nat) (key : Key) (m : M) (input : Bytes) : Reading M :=
  match s.field? key.tag with
  | some field => (field.merge depth key.type m input).mapError (Error.within ⟨s.name, field.name⟩)
  | none =>
    match skip depth key input with
    | .error e => .error e
    | .ok rest => .ok (m, rest)

/-- Merging a record adds no bytes. -/
theorem length_of_mergeRecord {s : Schema M} {depth : Nat} {key : Key} {m m' : M}
    {input rest : Bytes} (h : s.mergeRecord depth key m input = .ok (m', rest)) :
    rest.length ≤ input.length := by
  unfold mergeRecord at h
  split at h
  · next field _ =>
    cases hf : field.merge depth key.type m input with
    | error e =>
      rw [hf] at h
      cases h
    | ok r =>
      rw [hf] at h
      exact field.length_le (Except.ok.inj h ▸ hf)
  · split at h
    · simp at h
    · next hs =>
      simp only [Except.ok.injEq, Prod.mk.injEq] at h
      exact h.2 ▸ length_of_skip hs

/-- Reads records into a message until no more than `limit` bytes of the input are left, which
have to be exactly `limit`.  A record may run past that point, and is refused only afterwards. -/
def mergeUntil (s : Schema M) (depth limit : Nat) (m : M) (input : Bytes) : Reading M :=
  if limit < input.length then
    match hk : Key.read input with
    | .error e => .error e
    | .ok (key, rest) =>
      match hm : s.mergeRecord depth key m rest with
      | .error e => .error e
      | .ok (m', rest') =>
        have := Key.length_of_read hk
        have := length_of_mergeRecord hm
        s.mergeUntil depth limit m' rest'
  else if input.length = limit then .ok (m, input)
  else .error ⟨.lengthExceeded, []⟩
termination_by input.length

/-- Records are merged exactly down to the limit. -/
theorem length_of_mergeUntil {s : Schema M} {depth limit : Nat} {m m' : M} {input rest : Bytes}
    (h : s.mergeUntil depth limit m input = .ok (m', rest)) :
    rest.length = limit ∧ rest.length ≤ input.length := by
  fun_induction mergeUntil s depth limit m input with
  | case1 => simp at h
  | case2 => simp at h
  | case3 _ _ _ _ _ _ _ _ _ _ _ ih => have := ih h; omega
  | case4 m input _ heq =>
    simp only [Except.ok.injEq, Prod.mk.injEq] at h
    rw [← h.2]
    exact ⟨heq, Nat.le_refl _⟩
  | case5 => simp at h

/-- How deeply groups and messages may be nested. -/
def maxDepth : Nat := 100

/-- Reads the body of a message. -/
def read (s : Schema M) (body : Bytes) : Except Error M :=
  (s.mergeUntil maxDepth 0 s.empty body).map Prod.fst

/-- Reads a message that is preceded by its length. -/
def mergeDelimited (s : Schema M) (depth : Nat) (m : M) (input : Bytes) : Reading M :=
  match readLength input with
  | .error e => .error e
  | .ok (count, rest) => s.mergeUntil depth (rest.length - count) m rest

/-- Merging delimited bytes adds none. -/
theorem length_of_mergeDelimited {s : Schema M} {depth : Nat} {m m' : M} {input rest : Bytes}
    (h : s.mergeDelimited depth m input = .ok (m', rest)) : rest.length ≤ input.length := by
  unfold mergeDelimited at h
  split at h
  · simp at h
  · next hl =>
    have := length_of_readLength hl
    have := length_of_mergeUntil h
    omega

end Schema

/-! ## The four kinds of values -/

/-- Refuses a record that has another shape than its field is declared with. -/
def expect {α : Type} (expected actual : WireType) (next : Reading α) : Reading α :=
  if actual = expected then next else .error ⟨.unexpectedWireType actual expected, []⟩

/-- What is read under an expected wire type is read by the rest. -/
theorem eq_ok_of_expect {α : Type} {expected actual : WireType} {next : Reading α}
    {r : α × Bytes} (h : expect expected actual next = .ok r) : next = .ok r := by
  unfold expect at h
  split at h
  · exact h
  · simp at h

namespace Codec

/-- Numbers.  Zero is not written. -/
def number : Codec UInt64 where
  merge _ type _ input := expect .varint type (readNumber input)
  length_le h := Nat.le_of_lt (length_of_readNumber (eq_ok_of_expect h))
  write tag v := if v = 0 then [] else Key.write ⟨tag, .varint⟩ ++ Varint.write v

/-- Reads a text that is preceded by its length. -/
def readText (input : Bytes) : Reading String :=
  match readLength input with
  | .error e => .error e
  | .ok (count, rest) =>
    match Utf8.decode? (rest.take count) with
    | none => .error ⟨.invalidText, []⟩
    | some s => .ok (s, rest.drop count)

/-- Reading a text adds no bytes. -/
theorem length_of_readText {input rest : Bytes} {s : String} (h : readText input = .ok (s, rest)) :
    rest.length ≤ input.length := by
  unfold readText at h
  split at h
  · simp at h
  · next hl =>
    have := length_of_readLength hl
    split at h
    · simp at h
    · simp only [Except.ok.injEq, Prod.mk.injEq] at h
      rw [← h.2, List.length_drop]
      omega

/-- Texts.  The empty text is not written. -/
def text : Codec String where
  merge _ type _ input := expect .lengthDelimited type (readText input)
  length_le h := length_of_readText (eq_ok_of_expect h)
  write tag s :=
    if s = "" then [] else Key.write ⟨tag, .lengthDelimited⟩ ++ writeDelimited (Utf8.encode s)

/-- The record of a message inside a message. -/
def writeMessage {M : Type} (s : Schema M) (tag : Nat) (m : M) : Bytes :=
  Key.write ⟨tag, .lengthDelimited⟩ ++ writeDelimited (s.write m)

/-- Reads a message inside a message, at one level less. -/
def mergeMessage {M : Type} (s : Schema M) (depth : Nat) (type : WireType) (m : M)
    (input : Bytes) : Reading M :=
  expect .lengthDelimited type <|
    match depth with
    | 0 => .error ⟨.recursionLimit, []⟩
    | depth + 1 => s.mergeDelimited depth m input

/-- Merging a message adds no bytes. -/
theorem length_of_mergeMessage {M : Type} {s : Schema M} {depth : Nat} {type : WireType}
    {m m' : M} {input rest : Bytes} (h : mergeMessage s depth type m input = .ok (m', rest)) :
    rest.length ≤ input.length := by
  have h := eq_ok_of_expect h
  split at h
  · simp at h
  · exact Schema.length_of_mergeDelimited h

/-- Messages that may be absent.  A record continues the message that is there. -/
def message {M : Type} (s : Schema M) : Codec (Option M) where
  merge depth type m input :=
    match mergeMessage s depth type (m.getD s.empty) input with
    | .error e => .error e
    | .ok (m', rest) => .ok (some m', rest)
  length_le h := by
    split at h
    · simp at h
    · next hm =>
      simp only [Except.ok.injEq, Prod.mk.injEq] at h
      exact h.2 ▸ length_of_mergeMessage hm
  write tag
    | none => []
    | some m => writeMessage s tag m

/-- Lists of messages.  Each record is a message of its own at the end of the list. -/
def messages {M : Type} (s : Schema M) : Codec (List M) where
  merge depth type ms input :=
    match mergeMessage s depth type s.empty input with
    | .error e => .error e
    | .ok (m, rest) => .ok (ms ++ [m], rest)
  length_le h := by
    split at h
    · simp at h
    · next hm =>
      simp only [Except.ok.injEq, Prod.mk.injEq] at h
      exact h.2 ▸ length_of_mergeMessage hm
  write tag ms := ms.flatMap (writeMessage s tag)

end Codec

end ContainerUsage.Wire
