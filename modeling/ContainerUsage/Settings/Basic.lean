import ContainerUsage.Metric.Catalog
import ContainerUsage.Net.SocketAddress
import ContainerUsage.Text.Words
/-!
# Settings from the environment

The settings of an exporter come from six environment variables, all of which may be unset.  They
are looked at in a fixed order, and the first with a value that cannot be used is reported.

Task labels are written as `key=value` pairs with commas between them.  Blanks around a pair, a key
or a value do not count, nor do blank pairs; of two pairs with the same key the later one counts.
The labels are checked at once by describing a metric of a task with them, so that a name that
cannot be a label, or that shadows the labels that name the task, is found before any task is.
-/

namespace ContainerUsage

/-- The environment variables that are looked at. -/
inductive Variable where
  | cgroupRoot
  | listenAddr
  | metricsNamespace
  | metricsSubsystem
  | scanIntervalSecs
  | taskLabels
  deriving DecidableEq, Repr

/-- The name of a variable. -/
def Variable.name : Variable → String
  | .cgroupRoot => "CGROUP_ROOT"
  | .listenAddr => "LISTEN_ADDR"
  | .metricsNamespace => "METRICS_NAMESPACE"
  | .metricsSubsystem => "METRICS_SUBSYSTEM"
  | .scanIntervalSecs => "SCAN_INTERVAL_SECS"
  | .taskLabels => "TASK_LABELS"

/-- All variables. -/
def Variable.all : List Variable :=
  [.cgroupRoot, .listenAddr, .metricsNamespace, .metricsSubsystem, .scanIntervalSecs, .taskLabels]

/-- There are no other variables. -/
theorem Variable.mem_all (v : Variable) : v ∈ all := by cases v <;> decide

/-- Why settings cannot be used. -/
inductive SettingsError where
  /-- The value of a variable is not what it should be. -/
  | invalidValue (source : Variable) (value reason : String)
  /-- A pair of the task labels has no key. -/
  | malformedLabel (pair : String)
  /-- The task labels cannot be the labels of a task. -/
  | invalidLabels (cause : MetricError)
  deriving DecidableEq, Repr

/-- The text of an error. -/
def SettingsError.message : SettingsError → String
  | .invalidValue source value reason =>
    "invalid value `" ++ value ++ "` for `" ++ source.name ++ "`: " ++ reason
  | .malformedLabel pair =>
    "malformed label `" ++ pair ++ "` in `" ++ Variable.taskLabels.name ++ "`, expected `key=value`"
  | .invalidLabels cause => "invalid `" ++ Variable.taskLabels.name ++ "`: " ++ cause.message

/-- The settings of an exporter. -/
structure Settings where
  /-- The root of the cgroup tree as it is written. -/
  cgroupRoot : String
  listenAddr : SocketAddress
  /-- How metrics are named, unless they are disabled. -/
  naming : Option Naming
  /-- The seconds between two scans. -/
  scanInterval : UInt64
  /-- The labels of all tasks. -/
  taskLabels : LabelSet
  deriving DecidableEq

namespace Settings

/-! ## Single settings -/

/-- The root of the cgroup tree if none is set. -/
def defaultCgroupRoot : String := "/sys/fs/cgroup"

/-- The address to listen on if none is set. -/
def defaultListenAddr : String := "0.0.0.0:9100"

/-- The start of metric names if none is set. -/
def defaultNamespace : String := "container"

/-- The seconds between two scans if they are not set. -/
def defaultScanInterval : UInt64 := 5

/-- Reads the address to listen on. -/
def parseListenAddr (value : String) : Except SettingsError SocketAddress :=
  match SocketAddress.parse? value with
  | some address => .ok address
  | none => .error (.invalidValue .listenAddr value "invalid socket address syntax")

/-- Reads the seconds between two scans, of which there is at least one. -/
def parseScanInterval (value : String) : Except SettingsError UInt64 :=
  match Decimal.parse value.toList with
  | .error cause => .error (.invalidValue .scanIntervalSecs value cause.message)
  | .ok seconds =>
    if seconds = 0 then .error (.invalidValue .scanIntervalSecs value "must be greater than zero")
    else .ok seconds

/-- How metrics are named.  An empty namespace disables them, and an empty subsystem is none. -/
def namingOf (ns subsystem : Option String) : Option Naming :=
  let name := ns.getD defaultNamespace
  if name = "" then none else some ⟨name, subsystem.filter (· ≠ ""), .empty⟩

/-! ## Task labels -/

/-- The pairs of a list of labels that are not blank, without the blanks around them. -/
def labelPairs (value : List Char) : List (List Char) :=
  ((Text.pieces (· = ',') value).map Text.trim).filter (!·.isEmpty)

/-- Reads one pair. -/
def parseLabel (pair : List Char) : Except SettingsError Label :=
  match Text.cutOnce '=' pair with
  | none => .error (.malformedLabel (String.ofList pair))
  | some (key, value) =>
    if (Text.trim key).isEmpty then .error (.malformedLabel (String.ofList pair))
    else .ok (String.ofList (Text.trim key), String.ofList (Text.trim value))

/-- Reads pairs, up to the first that is malformed. -/
def parsePairs : List (List Char) → Except SettingsError (List Label)
  | [] => .ok []
  | pair :: rest =>
    match parseLabel pair with
    | .error e => .error e
    | .ok label => (parsePairs rest).map (label :: ·)

/-- Reads labels. -/
def parseLabels (value : String) : Except SettingsError LabelSet :=
  (parsePairs (labelPairs value.toList)).map LabelSet.ofList

/-- Checks that labels can be the labels of a task. -/
def checkLabels (labels : LabelSet) : Except SettingsError Unit :=
  if labels.isEmpty then .ok ()
  else
    match (Naming.mk "task" none labels).describe "labels" "" "Task label validation."
      baseLabels with
    | .error cause => .error (.invalidLabels cause)
    | .ok _ => .ok ()

/-! ## All settings -/

/-- Reads the settings from variables. -/
def ofLookup (lookup : Variable → Option String) : Except SettingsError Settings :=
  match parseListenAddr ((lookup .listenAddr).getD defaultListenAddr) with
  | .error e => .error e
  | .ok listenAddr =>
    match ((lookup .scanIntervalSecs).map parseScanInterval).getD (.ok defaultScanInterval) with
    | .error e => .error e
    | .ok scanInterval =>
      match ((lookup .taskLabels).map parseLabels).getD (.ok .empty) with
      | .error e => .error e
      | .ok taskLabels =>
        match checkLabels taskLabels with
        | .error e => .error e
        | .ok () =>
          .ok {
            cgroupRoot := (lookup .cgroupRoot).getD defaultCgroupRoot
            listenAddr
            naming := namingOf (lookup .metricsNamespace) (lookup .metricsSubsystem)
            scanInterval
            taskLabels }

end Settings

end ContainerUsage
