import Mathlib
import ContainerUsage.Proofs.Wire.Records
import ContainerUsage.Proofs.Payload.Content

/-!
# What a payload is read from

The writers of payloads know more fields than are declared here, and write fields in orders of their
own. Neither changes what is read: a payload is read from the records of its declared fields, of
each field in their own order, and so is every message inside it.

* `MessageType` lists the message types of the two payloads, which are all steady
  (`MessageType.steady`).
* `Alike` relates two sequences of records that differ in what does not matter, at any level:
  records of undeclared fields (`Alike.insert`), and the order of the others (`Alike.swap`).
* `read_alike` is the result, for the bodies of all message types and for envelopes.
-/

/-! ## Framing -/

namespace ContainerUsage.Wire.Schema

/-- Messages of numbers are framed. -/
theorem Numeric.framed {M : Type} {s : Schema M} (h : s.Numeric) : s.Framed := by
  intro field hmem
  obtain ⟨tag, name, slot, rfl⟩ := (h.counts s.empty).exists_of_mem field hmem
  exact Field.framed_of Codec.framed_number

end ContainerUsage.Wire.Schema

namespace ContainerUsage.Payload

open Wire

namespace Unified

/-- The io group is framed, as its devices are. -/
theorem Io.framed : Io.schema.Framed := by
  unfold Schema.Framed Io.schema
  simp [Device.numeric.framed]

/-- The numbers and the text of a page size are framed. -/
theorem HugePages.framed : HugePages.schema.Framed := by
  unfold Schema.Framed HugePages.schema
  simp

/-- The unified stats are framed, as the messages in them are. -/
theorem Stats.framed : Stats.schema.Framed := by
  unfold Schema.Framed Stats.schema
  simp [Pids.numeric.framed, Cpu.numeric.framed, Memory.numeric.framed, MemoryEvents.numeric.framed,
    Io.framed, HugePages.framed]

end Unified

namespace Legacy

/-- The legacy cpu group is framed, as its times and its throttling are. -/
theorem Cpu.framed : Cpu.schema.Framed := by
  unfold Schema.Framed Cpu.schema
  simp [CpuUsage.numeric.framed, Throttle.numeric.framed]

/-- The legacy memory group is framed, as its numbers and its entries are. -/
theorem Memory.framed : Memory.schema.Framed := by
  unfold Schema.Framed Memory.schema
  simp [MemoryEntry.numeric.framed]

/-- The legacy stats are framed, as the messages in them are. -/
theorem Stats.framed : Stats.schema.Framed := by
  unfold Schema.Framed Stats.schema
  simp [Pids.numeric.framed, Cpu.framed, Memory.framed]

end Legacy

/-! ## The message types -/

/-- The message types of the two payloads: the payloads themselves, and those nested in them. -/
inductive MessageType : {M : Type} → Schema M → Prop where
  | unifiedPids : MessageType Unified.Pids.schema
  | unifiedCpu : MessageType Unified.Cpu.schema
  | unifiedMemory : MessageType Unified.Memory.schema
  | unifiedMemoryEvents : MessageType Unified.MemoryEvents.schema
  | unifiedDevice : MessageType Unified.Device.schema
  | unifiedIo : MessageType Unified.Io.schema
  | unifiedHugePages : MessageType Unified.HugePages.schema
  | unifiedStats : MessageType Unified.Stats.schema
  | legacyPids : MessageType Legacy.Pids.schema
  | legacyCpuUsage : MessageType Legacy.CpuUsage.schema
  | legacyThrottle : MessageType Legacy.Throttle.schema
  | legacyCpu : MessageType Legacy.Cpu.schema
  | legacyMemoryEntry : MessageType Legacy.MemoryEntry.schema
  | legacyMemory : MessageType Legacy.Memory.schema
  | legacyStats : MessageType Legacy.Stats.schema

namespace MessageType

variable {M : Type} {s : Schema M}

/-- All these messages are framed. -/
theorem framed (h : MessageType s) : s.Framed := by
  cases h with
  | unifiedPids => exact Unified.Pids.numeric.framed
  | unifiedCpu => exact Unified.Cpu.numeric.framed
  | unifiedMemory => exact Unified.Memory.numeric.framed
  | unifiedMemoryEvents => exact Unified.MemoryEvents.numeric.framed
  | unifiedDevice => exact Unified.Device.numeric.framed
  | unifiedIo => exact Unified.Io.framed
  | unifiedHugePages => exact Unified.HugePages.framed
  | unifiedStats => exact Unified.Stats.framed
  | legacyPids => exact Legacy.Pids.numeric.framed
  | legacyCpuUsage => exact Legacy.CpuUsage.numeric.framed
  | legacyThrottle => exact Legacy.Throttle.numeric.framed
  | legacyCpu => exact Legacy.Cpu.framed
  | legacyMemoryEntry => exact Legacy.MemoryEntry.numeric.framed
  | legacyMemory => exact Legacy.Memory.framed
  | legacyStats => exact Legacy.Stats.framed

/-- All message types are steady: each field has a place of its own. -/
theorem steady (h : MessageType s) : s.Steady where
  framed := h.framed
  commute := by
    cases h <;>
      simp [Unified.Pids.schema, Unified.Cpu.schema, Unified.Memory.schema,
        Unified.MemoryEvents.schema, Unified.Device.schema, Unified.Io.schema,
        Unified.HugePages.schema, Unified.Stats.schema, Legacy.Pids.schema, Legacy.CpuUsage.schema,
        Legacy.Throttle.schema, Legacy.Cpu.schema, Legacy.MemoryEntry.schema, Legacy.Memory.schema,
        Legacy.Stats.schema]

end MessageType

/-! ## Records that mean the same -/

/-- Two sequences of records of a message that has `depth` levels for others inside it mean the
same. -/
inductive Alike : {M : Type} → Schema M → (depth : Nat) → List Record → List Record → Prop where
  /-- The records of each declared field are the same, in the same order. -/
  | declared {M : Type} {s : Schema M} {depth : Nat} {rs rs' : List Record}
      (h : ∀ field ∈ s.fields,
        rs.filter (·.key.tag = field.tag) = rs'.filter (·.key.tag = field.tag)) :
      Alike s (depth + 1) rs rs'
  /-- A message inside the message has another body, whose records mean the same, and the length of
  that body. -/
  | nested {M N : Type} {s : Schema M} {inner : Schema N} {depth : Nat} {field : Wire.Field M}
      {r r' : Record} {body body' : List Record} (hinner : MessageType inner)
      (hfield : s.field? r.key.tag = some field) (hnests : field.Nests inner)
      (hbody : r.Holds (Record.body body)) (hbody' : r'.Holds (Record.body body'))
      (hkey : r'.key = r.key) (h : Alike inner depth body body') (before after : List Record) :
      Alike s (depth + 1) (before ++ r :: after) (before ++ r' :: after)
  | trans {M : Type} {s : Schema M} {depth : Nat} {rs rs' rs'' : List Record}
      (h : Alike s depth rs rs') (h' : Alike s depth rs' rs'') : Alike s depth rs rs''

namespace Alike

variable {M : Type} {s : Schema M} {depth : Nat} {rs rs' : List Record}

/-- A record of a field that nobody declared can stand anywhere. -/
theorem insert {r : Record} (h : s.field? r.key.tag = none) (before after : List Record) :
    Alike s (depth + 1) (before ++ after) (before ++ r :: after) := by
  apply declared
  intro field hmem
  have htag : r.key.tag ≠ field.tag := by
    simpa [eq_comm] using List.find?_eq_none.1 h field hmem
  simp [htag]

/-- Records of different fields can stand in either order. -/
theorem swap {r r' : Record} (h : r.key.tag ≠ r'.key.tag) (before after : List Record) :
    Alike s (depth + 1) (before ++ r :: r' :: after) (before ++ r' :: r :: after) := by
  apply declared
  intro field _
  by_cases htag : r.key.tag = field.tag
  · have htag' : r'.key.tag ≠ field.tag := fun h' => h (htag.trans h'.symm)
    simp [htag, htag']
  · simp [htag, List.filter_cons]

/-- Records that mean the same lead to the same message. -/
theorem foldlM_eq (hs : MessageType s) (h : Alike s depth rs rs') (m : M) :
    rs.foldlM (s.after depth) m = rs'.foldlM (s.after depth) m := by
  induction h with
  | declared h => exact hs.steady.foldlM_eq (Nat.succ_ne_zero _) h m
  | @nested M N s inner depth field r r' body body' hinner hfield hnests hbody hbody' hkey _
    before after ih =>
    have hstep : ∀ m, s.after (depth + 1) m r = s.after (depth + 1) m r' := by
      intro m
      have hfield' : s.field? r'.key.tag = some field := by rw [hkey, hfield]
      rw [Schema.after_of_declared hfield, Schema.after_of_declared hfield', hbody.1, hbody'.1]
      refine hnests.after_eq hinner.framed hbody.2 hbody'.2 (fun m m' => ?_) m
      rw [Schema.mergeUntil_body hinner.framed, Schema.mergeUntil_body hinner.framed, ih hinner]
    simp only [List.foldlM_append, List.foldlM_cons, hstep]
  | trans _ _ ih ih' => exact (ih hs m).trans (ih' hs m)

/-- Bodies that mean the same are read as the same message, or neither is read. -/
theorem read_iff (hs : MessageType s) (h : Alike s Schema.maxDepth rs rs') {m : M} :
    s.read (Record.body rs) = .ok m ↔ s.read (Record.body rs') = .ok m := by
  rw [Schema.read_body hs.framed, Schema.read_body hs.framed, h.foldlM_eq hs]

end Alike

/-! ## What is read -/

/-- **A message is read from the records of its declared fields**, of each field in their own order,
whatever their order is among each other and whatever stands between them. This is so for all
message types, and for the messages inside a payload as well: a payload that has been written with
other records of undeclared fields, or in another order, at any level is the same payload. -/
theorem read_alike :
    (∀ {M : Type} {s : Schema M}, MessageType s → ∀ rs rs' : List Record,
        (∀ field ∈ s.fields,
          rs.filter (·.key.tag = field.tag) = rs'.filter (·.key.tag = field.tag)) →
        ∀ m, s.read (Record.body rs) = .ok m ↔ s.read (Record.body rs') = .ok m) ∧
      (∀ rs rs' : List Record, Alike Unified.Stats.schema Schema.maxDepth rs rs' →
        ∀ typeUrl ∈ [unifiedTypeUrl, typeHost ++ unifiedTypeUrl], ∀ content,
          (Envelope.mk typeUrl (Record.body rs)).content = .ok content ↔
            (Envelope.mk typeUrl (Record.body rs')).content = .ok content) ∧
      ∀ rs rs' : List Record, Alike Legacy.Stats.schema Schema.maxDepth rs rs' →
        ∀ typeUrl ∈ [legacyTypeUrl, typeHost ++ legacyTypeUrl], ∀ content,
          (Envelope.mk typeUrl (Record.body rs)).content = .ok content ↔
            (Envelope.mk typeUrl (Record.body rs')).content = .ok content := by
  refine ⟨fun hs rs rs' h m => (Alike.declared h).read_iff hs, ?_, ?_⟩
  · intro rs rs' h typeUrl htype content
    have hbare : bareTypeUrl typeUrl = unifiedTypeUrl :=
      bareTypeUrl_eq_unified_iff.2 (by simpa using htype)
    have hne : unifiedTypeUrl ≠ legacyTypeUrl := by decide
    simp [Envelope.content_eq_ok_iff, hbare, hne, h.read_iff .unifiedStats]
  · intro rs rs' h typeUrl htype content
    have hbare : bareTypeUrl typeUrl = legacyTypeUrl :=
      bareTypeUrl_eq_legacy_iff.2 (by simpa using htype)
    have hne : legacyTypeUrl ≠ unifiedTypeUrl := by decide
    simp [Envelope.content_eq_ok_iff, hbare, hne, h.read_iff .legacyStats]

/-- The number of processes. -/
def currentRecord : Record := ⟨⟨1, .varint⟩, [8], [7], rfl, 7, rfl⟩

/-- A number that nobody declared, and that is written with more bytes than it needs. -/
def strangeRecord : Record := ⟨⟨9, .varint⟩, [72], [133, 0], rfl, 5, rfl⟩

/-- A record of the cpu group, whose first number is 9. -/
def cpuRecord : Record := ⟨⟨2, .lengthDelimited⟩, [18], [2, 8, 9], rfl, [8, 9], 2, _, rfl, rfl, rfl⟩

/-- A record of the pids group, whose first number is 7. -/
def pidsRecord : Record :=
  ⟨⟨1, .lengthDelimited⟩, [10], [2, 8, 7], rfl, [8, 7], 2, _, rfl, rfl, rfl⟩

/-- The same message with the strange number in it. -/
def strangePidsRecord : Record :=
  ⟨⟨1, .lengthDelimited⟩, [10], [5, 8, 7, 72, 133, 0], rfl, [8, 7, 72, 133, 0], 5, _, rfl, rfl, rfl⟩

/-- Groups in another order, with strange numbers between them and inside one of them. -/
theorem read_alike_strange :
    (Envelope.mk unifiedTypeUrl [72, 133, 0, 18, 2, 8, 9, 10, 5, 8, 7, 72, 133, 0]).content =
        .ok (.unified { pids := some ⟨7, 0⟩, cpu := some { usageUsec := 9 } }) ∧
      Unified.Pids.schema.read [72, 133, 0, 8, 7] = .ok ⟨7, 0⟩ ∧
      (Envelope.mk legacyTypeUrl [72, 133, 0]).content = .ok (.legacy {}) := by
  obtain ⟨hbody, hunified, hlegacy⟩ := read_alike
  have hread : (Envelope.mk unifiedTypeUrl (Record.body [pidsRecord, cpuRecord])).content =
      .ok (.unified { pids := some ⟨7, 0⟩, cpu := some { usageUsec := 9 } }) := by
    decide +kernel
  have hpids : Unified.Pids.schema.read (Record.body [currentRecord]) = .ok ⟨7, 0⟩ := by
    decide +kernel
  have hempty : (Envelope.mk legacyTypeUrl (Record.body [])).content = .ok (.legacy {}) := by
    decide +kernel
  have hinside : Alike Unified.Pids.schema 99 [currentRecord] [currentRecord, strangeRecord] :=
    .insert rfl [currentRecord] []
  have hholds : pidsRecord.Holds (Record.body [currentRecord]) := ⟨rfl, 2, _, rfl, rfl, rfl⟩
  have hstrange : strangePidsRecord.Holds (Record.body [currentRecord, strangeRecord]) :=
    ⟨rfl, 5, _, rfl, rfl, rfl⟩
  have hnested : Alike Unified.Stats.schema Schema.maxDepth [pidsRecord, cpuRecord]
      [strangePidsRecord, cpuRecord] :=
    .nested .unifiedPids rfl (.inl ⟨_, _, _, rfl⟩) hholds hstrange rfl hinside [] [cpuRecord]
  have hswap : Alike Unified.Stats.schema Schema.maxDepth [strangePidsRecord, cpuRecord]
      [cpuRecord, strangePidsRecord] :=
    .swap (by decide) [] []
  have hinsert : Alike Unified.Stats.schema Schema.maxDepth [cpuRecord, strangePidsRecord]
      [strangeRecord, cpuRecord, strangePidsRecord] :=
    .insert rfl [] _
  have hskipped : Alike Legacy.Stats.schema Schema.maxDepth [] [strangeRecord] :=
    .insert (r := strangeRecord) rfl [] []
  refine ⟨?_, ?_, ?_⟩
  · exact (hunified _ _ (hnested.trans (hswap.trans hinsert)) _ List.mem_cons_self _).1 hread
  · refine (hbody .unifiedPids [currentRecord] [strangeRecord, currentRecord] ?_ _).1 hpids
    exact List.forall_mem_cons.2 ⟨rfl, List.forall_mem_singleton.2 rfl⟩
  · exact (hlegacy _ _ hskipped _ List.mem_cons_self _).1 hempty

end ContainerUsage.Payload
