import Mathlib
import ContainerUsage.Container.Scope
import ContainerUsage.Proofs.Task.Key
import ContainerUsage.Proofs.Text.Utf8

/-!
# The names of scopes, read and written

A name is read as a scope in three steps: what is between a runtime's start and the common end, its
length, and the identifier in it. Here is what the steps come to.

* `ScopeName.between?_eq_some_iff` and `ContainerId.ofScope_eq_ok_iff` are the steps, and
  `ScopeName.parseFor?_eq_some_iff` puts them together for one runtime. An identifier is made of
  ASCII characters, so its bytes are always those of a text (`ScopeName.IsDigest.exists_id`).
* Runtimes begin their names with different letters (`ScopeName.runtime_eq_of_bytes_eq`), so it does
  not matter in which order they are tried: `ScopeName.parse?_eq_some_iff`.
* `ScopeName.parse?_exact` says the same of names as runtimes write them, and what follows for the
  keys of tasks.
-/

namespace ContainerUsage

/-! ## Identifiers -/

/-- The characters that the identifiers in the names of scopes are made of. -/
def ContainerId.alphabet : String := "abcdefghijklmnopqrstuvwxyz0123456789"

/-- The bytes that are accepted are those of these characters. -/
theorem ContainerId.isScopeByte_iff (b : UInt8) :
    isScopeByte b = true ↔ b ∈ Utf8.encode alphabet := by
  revert b
  decide +kernel

/-- Bytes are read as an identifier iff they are its text and made of these characters. -/
theorem ContainerId.ofScope_eq_ok_iff {bytes : Bytes} {id : ContainerId} :
    ofScope bytes = .ok id ↔
      bytes = Utf8.encode id.text ∧ ∀ b ∈ bytes, b ∈ Utf8.encode alphabet := by
  have hall : bytes.all isScopeByte = true ↔ ∀ b ∈ bytes, b ∈ Utf8.encode alphabet := by
    simp only [List.all_eq_true, isScopeByte_iff]
  rw [← hall]
  unfold ofScope
  constructor
  · intro h
    split at h
    · next text htext =>
      split at h
      · next hbytes =>
        rw [ofText_eq_ok_iff.1 h]
        exact ⟨Utf8.decode?_eq_some_iff.1 htext, hbytes⟩
      · cases h
    · cases h
  · rintro ⟨rfl, hbytes⟩
    rw [Utf8.decode?_encode]
    dsimp only
    rw [if_pos hbytes, ofText_eq_ok_iff]

/-- Identifiers with the same text are the same. -/
theorem ContainerId.ext_text {id other : ContainerId} (h : id.text = other.text) : id = other := by
  cases id
  cases other
  simp_all

/-! ## Runtimes -/

namespace Runtime

/-- Each runtime has a namespace of its own. -/
theorem ns_injective : Function.Injective ns := by
  intro runtime other
  cases runtime <;> cases other <;> decide

/-- The starts of names and the namespaces, for all runtimes. -/
theorem exists_runtime_iff {start ns : String} :
    (start, ns) ∈ [("cri-containerd-", "k8s.io"), ("docker-", "moby"), ("libpod-", "podman")] ↔
      ∃ runtime : Runtime, runtime.scopeStart = start ∧ runtime.ns = ns := by
  constructor
  · intro h
    simp only [List.mem_cons, Prod.mk.injEq, List.not_mem_nil, or_false] at h
    obtain ⟨rfl, rfl⟩ | ⟨rfl, rfl⟩ | ⟨rfl, rfl⟩ := h
    · exact ⟨.containerd, rfl, rfl⟩
    · exact ⟨.docker, rfl, rfl⟩
    · exact ⟨.podman, rfl, rfl⟩
  · rintro ⟨runtime, rfl, rfl⟩
    cases runtime <;> decide

end Runtime

/-! ## The name of a scope -/

namespace ScopeName

/-- Sixty-four lowercase letters and digits. -/
structure IsDigest (bytes : Bytes) : Prop where
  length_eq : bytes.length = 64
  mem_alphabet : ∀ b ∈ bytes, b ∈ Utf8.encode ContainerId.alphabet

/-- A digest is the text of an identifier. -/
theorem IsDigest.exists_id {digest : Bytes} (h : IsDigest digest) :
    ∃ id : ContainerId, Utf8.encode id.text = digest := by
  have hlow : ∀ b ∈ Utf8.encode ContainerId.alphabet, b < 128 := by decide +kernel
  obtain ⟨text, rfl⟩ := Utf8.exists_encode_eq fun b hb => hlow b (h.mem_alphabet b hb)
  have hsize : text.utf8ByteSize = 64 := h.length_eq
  exact ⟨⟨text, by omega, by rw [hsize]; decide⟩, rfl⟩

/-- What stands between a start and an end, if the name has both and they do not overlap. -/
theorem between?_eq_some_iff {first last name middle : Bytes} :
    between? first last name = some middle ↔ name = first ++ middle ++ last := by
  unfold between?
  constructor
  · intro h
    split at h
    · cases h
    · next rest hrest =>
      rw [List.isPrefixOf?_eq_some_iff_append_eq] at hrest
      rw [List.isSuffixOf?_eq_some_iff_append_eq] at h
      rw [← hrest, ← h, List.append_assoc]
  · rintro rfl
    have hfirst : first.isPrefixOf? (first ++ middle ++ last) = some (middle ++ last) := by
      rw [List.isPrefixOf?_eq_some_iff_append_eq, List.append_assoc]
    rw [hfirst]
    exact List.isSuffixOf?_eq_some_iff_append_eq.2 rfl

/-- The name of a scope of a runtime is read as the identifier in it. -/
theorem parseFor?_eq_some_iff {runtime : Runtime} {name : Bytes} {scope : ScopeName} :
    parseFor? runtime name = some scope ↔
      scope.runtime = runtime ∧ IsDigest (Utf8.encode scope.id.text) ∧ name = scope.bytes := by
  unfold parseFor?
  constructor
  · intro h
    split at h
    · cases h
    · next middle hmiddle =>
      rw [between?_eq_some_iff] at hmiddle
      split at h
      · next hlength =>
        split at h
        · next id hid =>
          obtain rfl := Option.some.inj h
          obtain ⟨rfl, halphabet⟩ := ContainerId.ofScope_eq_ok_iff.1 hid
          exact ⟨rfl, ⟨hlength, halphabet⟩, hmiddle⟩
        · cases h
      · cases h
  · rintro ⟨rfl, hdigest, rfl⟩
    have hbetween : between? (Utf8.encode scope.runtime.scopeStart)
      (Utf8.encode scopeEnd) scope.bytes =
        some (Utf8.encode scope.id.text) := between?_eq_some_iff.2 rfl
    have hid : ContainerId.ofScope (Utf8.encode scope.id.text) = .ok scope.id :=
      ContainerId.ofScope_eq_ok_iff.2 ⟨rfl, hdigest.mem_alphabet⟩
    rw [hbetween]
    dsimp only
    rw [if_pos (show _ = idLength from hdigest.length_eq), hid]

/-! ## Which runtime -/

/-- The first byte of a scope's name tells the runtime. -/
theorem head?_bytes (scope : ScopeName) :
    scope.bytes.head? = (Utf8.encode scope.runtime.scopeStart).head? := by
  obtain ⟨runtime, id⟩ := scope
  rw [bytes, List.append_assoc, List.head?_append]
  cases runtime <;> rfl

/-- The runtime of a scope can be told from the name: no two starts begin with the same byte. -/
theorem runtime_eq_of_bytes_eq {scope other : ScopeName} (h : scope.bytes = other.bytes) :
    scope.runtime = other.runtime := by
  have hhead := congrArg List.head? h
  rw [head?_bytes, head?_bytes] at hhead
  generalize scope.runtime = runtime at hhead
  generalize other.runtime = runtime' at hhead
  revert hhead
  cases runtime <;> cases runtime' <;> decide +kernel

/-- **A scope's name is read as what it was written for**, and nothing else is read as a scope. -/
theorem parse?_eq_some_iff {name : Bytes} {scope : ScopeName} :
    parse? name = some scope ↔ IsDigest (Utf8.encode scope.id.text) ∧ name = scope.bytes := by
  constructor
  · intro h
    obtain ⟨runtime, -, hparse⟩ := List.exists_of_findSome?_eq_some h
    exact (parseFor?_eq_some_iff.1 hparse).2
  · rintro ⟨hdigest, rfl⟩
    have hparse : parseFor? scope.runtime scope.bytes = some scope :=
      parseFor?_eq_some_iff.2 ⟨rfl, hdigest, rfl⟩
    have hsome : (parse? scope.bytes).isSome = true := by
      rw [parse?, List.findSome?_isSome_iff]
      exact ⟨scope.runtime, by cases scope.runtime <;> decide, by rw [hparse]; rfl⟩
    obtain ⟨other, hother⟩ := Option.isSome_iff_exists.1 hsome
    obtain ⟨runtime, -, hfor⟩ := List.exists_of_findSome?_eq_some hother
    obtain ⟨rfl, -, hbytes⟩ := parseFor?_eq_some_iff.1 hfor
    rw [runtime_eq_of_bytes_eq hbytes, hfor] at hparse
    rw [hother, hparse]

/-! ## All names -/

/-- A name as container runtimes write it for a container: what each of them starts with, the
identifier, and the end that is the same for all. -/
def IsWritten (name digest : Bytes) (ns : String) : Prop :=
  IsDigest digest ∧ ∃ start,
    (start, ns) ∈ [("cri-containerd-", "k8s.io"), ("docker-", "moby"), ("libpod-", "podman")] ∧
      name = Utf8.encode start ++ digest ++ Utf8.encode ".scope"

/-- Being written is being the name of a scope with this digest in this namespace. -/
theorem isWritten_iff {name digest : Bytes} {ns : String} :
    IsWritten name digest ns ↔
      ∃ scope : ScopeName, IsDigest (Utf8.encode scope.id.text) ∧ name = scope.bytes ∧
      Utf8.encode scope.id.text = digest ∧ scope.runtime.ns = ns := by
  constructor
  · rintro ⟨hdigest, start, hmem, rfl⟩
    obtain ⟨runtime, rfl, rfl⟩ := Runtime.exists_runtime_iff.1 hmem
    obtain ⟨id, rfl⟩ := hdigest.exists_id
    exact ⟨⟨runtime, id⟩, hdigest, rfl, rfl, rfl⟩
  · rintro ⟨scope, hdigest, rfl, rfl, rfl⟩
    exact ⟨hdigest, scope.runtime.scopeStart,
      Runtime.exists_runtime_iff.2 ⟨scope.runtime, rfl, rfl⟩, rfl⟩

/-- **Scope names are read exactly and reversibly.** A name is read as a scope iff a runtime writes
it, and then as the identifier and the namespace that it was written for. Reading inverts writing.
Names that are read as the same identifier and namespace are equal, and so different ones give
different keys to the registry. -/
theorem parse?_exact :
    (∀ name digest ns, IsWritten name digest ns ↔ ∃ scope, parse? name = some scope ∧
      Utf8.encode scope.id.text = digest ∧ scope.runtime.ns = ns) ∧
    (∀ name scope, parse? name = some scope ↔
      IsDigest (Utf8.encode scope.id.text) ∧ name = scope.bytes) ∧
    ∀ name name' scope scope', parse? name = some scope → parse? name' = some scope' →
      (scope.id = scope'.id → scope.runtime.ns = scope'.runtime.ns → name = name') ∧
      (name ≠ name' →
        taskKey scope.id.text scope.runtime.ns ≠ taskKey scope'.id.text scope'.runtime.ns) := by
  refine ⟨fun name digest ns => ?_, fun name scope => parse?_eq_some_iff, ?_⟩
  · rw [isWritten_iff]
    refine exists_congr fun scope => ?_
    rw [parse?_eq_some_iff, and_assoc]
  · intro name name' scope scope' h h'
    obtain ⟨-, rfl⟩ := parse?_eq_some_iff.1 h
    obtain ⟨-, rfl⟩ := parse?_eq_some_iff.1 h'
    have hname : scope.id = scope'.id → scope.runtime.ns = scope'.runtime.ns →
        scope.bytes = scope'.bytes := by
      intro hid hns
      rw [bytes, bytes, hid, Runtime.ns_injective hns]
    refine ⟨hname, fun hne hkey => hne ?_⟩
    have hparts :=
      (taskKey_inj scope.runtime.hyphen_notMem_ns scope'.runtime.hyphen_notMem_ns).1 hkey
    exact hname (ContainerId.ext_text hparts.1) hparts.2

/-- Two runtimes have a container with the same identifier. -/
theorem parse?_exact_two_runtimes :
    let digest := Utf8.encode "0123456789abcdef0123456789abcdef0123456789abcdef0123456789abcdef"
    let docker := Utf8.encode "docker-" ++ digest ++ Utf8.encode ".scope"
    let podman := Utf8.encode "libpod-" ++ digest ++ Utf8.encode ".scope"
    ∃ scope scope', parse? docker = some scope ∧ parse? podman = some scope' ∧
      Utf8.encode scope.id.text = digest ∧ Utf8.encode scope'.id.text = digest ∧
      taskKey scope.id.text scope.runtime.ns ≠ taskKey scope'.id.text scope'.runtime.ns := by
  intro digest docker podman
  obtain ⟨hwritten, -, hkeys⟩ := parse?_exact
  have hdigest : IsDigest digest := ⟨by decide +kernel, by decide +kernel⟩
  obtain ⟨scope, hscope, hid, -⟩ :=
    (hwritten docker digest "moby").1 ⟨hdigest, "docker-", by decide, rfl⟩
  obtain ⟨scope', hscope', hid', -⟩ :=
    (hwritten podman digest "podman").1 ⟨hdigest, "libpod-", by decide, rfl⟩
  have hne : docker ≠ podman := by decide +kernel
  exact ⟨scope, scope', hscope, hscope', hid, hid',
    (hkeys docker podman scope scope' hscope hscope').2 hne⟩

end ScopeName

end ContainerUsage
