import ContainerUsage.Container.Id
/-!
# The names of container scopes

A container runtime puts each container into a cgroup directory of its own, a *scope*, and names it
after itself and the container: `docker-`, sixty-four characters of identifier, `.scope`.  Three
such runtimes are known, each with the namespace in which its containers live.

Names are bytes.  `ScopeName.bytes` writes the name of a scope and `ScopeName.parse?` reads it.
-/

namespace ContainerUsage

/-- The container runtimes whose scopes are recognised. -/
inductive Runtime where
  | containerd
  | docker
  | podman
  deriving DecidableEq, Repr

namespace Runtime

/-- All runtimes, in the order in which a name is compared with them. -/
def all : List Runtime := [.containerd, .docker, .podman]

/-- What the names of a runtime's scopes start with. -/
def scopeStart : Runtime → String
  | .containerd => "cri-containerd-"
  | .docker => "docker-"
  | .podman => "libpod-"

/-- The namespace of a runtime's containers. -/
def ns : Runtime → String
  | .containerd => "k8s.io"
  | .docker => "moby"
  | .podman => "podman"

end Runtime

/-- What the name of a scope tells. -/
structure ScopeName where
  runtime : Runtime
  id : ContainerId
  deriving DecidableEq

namespace ScopeName

/-- What the names of all scopes end with. -/
def scopeEnd : String := ".scope"

/-- The length of the identifier in the name of a scope. -/
def idLength : Nat := 64

/-- The name of a scope. -/
def bytes (scope : ScopeName) : Bytes :=
  Utf8.encode scope.runtime.scopeStart ++ Utf8.encode scope.id.text ++ Utf8.encode scopeEnd

/-- The bytes between the start and the end of a name, if it has both and they do not overlap. -/
def between? (first last name : Bytes) : Option Bytes :=
  match first.isPrefixOf? name with
  | none => none
  | some rest => last.isSuffixOf? rest

/-- Reads the name of a scope of a given runtime. -/
def parseFor? (runtime : Runtime) (name : Bytes) : Option ScopeName :=
  match between? (Utf8.encode runtime.scopeStart) (Utf8.encode scopeEnd) name with
  | none => none
  | some middle =>
    if middle.length = idLength then
      match ContainerId.ofScope middle with
      | .ok id => some ⟨runtime, id⟩
      | .error _ => none
    else none

/-- Reads the name of a scope. -/
def parse? (name : Bytes) : Option ScopeName := Runtime.all.findSome? (parseFor? · name)

end ScopeName

end ContainerUsage
