import ContainerUsage.Cgroup.StatReader
import ContainerUsage.Container.Id
import ContainerUsage.Payload.Envelope
import ContainerUsage.Task.Basic
/-!
# The host of the tasks

A `Host` is what tasks are asked through: the file system with the cgroups, and the sources that
were opened so far.  The source of a container is a reader of its cgroup.  A source may also be a
script of answers that are given one after the other, the last one again and again; it stands for
any other kind of task.

Asking a source changes it and no other source (`sources_ask_of_ne`), so tasks do not interfere.
-/

namespace ContainerUsage

open Cgroup Payload

/-- Why a task gives no stats. -/
inductive TaskError where
  /-- A file of its cgroup could not be read. -/
  | read (cause : Stat.ReadError)
  /-- The task reports why. -/
  | reported (text : String)
  /-- There is no such source. -/
  | gone
  deriving DecidableEq, Repr

/-- The text of an error. -/
def TaskError.message : TaskError → String
  | .read cause => cause.message
  | .reported text => text
  | .gone => "task is gone"

/-- What a task answers when it is asked for its stats. -/
abbrev Answer := Except TaskError Envelope

/-- What a task is asked through. -/
inductive Source where
  /-- The files of a cgroup. -/
  | cgroup (reader : StatReader)
  /-- A script: the next answer, and the ones after it. -/
  | script (next : Answer) (later : List Answer)

/-- Asks a source once: its answer and the source afterwards. -/
def Source.ask (fs : FileSystem) : Source → Answer × Source
  | .cgroup reader =>
    let run := reader.read fs
    ((run.1.map Envelope.ofUnified).mapError .read, .cgroup run.2)
  | .script next [] => (next, .script next [])
  | .script next (after :: later) => (next, .script after later)

/-- What tasks are asked through. -/
structure Host where
  files : FileSystem := {}
  sources : List Source := []

namespace Host

/-- Adds a source. -/
def addSource (host : Host) (source : Source) : SourceId × Host :=
  (⟨host.sources.length⟩, { host with sources := host.sources ++ [source] })

/-- Asks one of the sources. -/
def ask (host : Host) (source : SourceId) : Answer × Host :=
  match host.sources[source.index]? with
  | none => (.error .gone, host)
  | some asked =>
    let run := asked.ask host.files
    (run.1, { host with sources := host.sources.set source.index run.2 })

/-- Asking a source leaves the others alone. -/
theorem sources_ask_of_ne (host : Host) {source other : SourceId} (h : other ≠ source) :
    (host.ask source).2.sources[other.index]? = host.sources[other.index]? := by
  have hne : source.index ≠ other.index := fun he => h (by cases other; cases source; simp_all)
  unfold ask
  split
  · rfl
  · simp [List.getElem?_set_ne hne]

/-- Opens the cgroup of a container at a path as a task. -/
def openTask (host : Host) (id : ContainerId) (ns : String) (path : Path) :
    Except IoError (Task × Host) :=
  match StatReader.ofCgroup host.files path with
  | .error e => .error e
  | .ok reader =>
    let added := host.addSource (.cgroup reader)
    .ok (⟨id.text, ns, added.1⟩, added.2)

end Host

end ContainerUsage
