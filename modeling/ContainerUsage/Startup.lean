import ContainerUsage.Discovery.Scanner
import ContainerUsage.Settings.Basic
/-!
# Starting an exporter

An exporter starts by reading its settings, describing its metrics and scanning for containers once,
so that whatever would keep it from ever exposing anything is found at once.  Each of the three may
fail, and the first failure is the one that is reported.  With metrics disabled there is nothing to
scan for.
-/

namespace ContainerUsage

/-- Why an exporter does not start. -/
inductive StartError where
  | settings (cause : SettingsError)
  | metrics (cause : MetricError)
  | discovery (cause : ScanError)
  deriving DecidableEq, Repr

/-- The text of an error. -/
def StartError.message : StartError → String
  | .settings cause => cause.message
  | .metrics cause => cause.message
  | .discovery cause => cause.message

/-- An exporter that is ready to be asked. -/
structure Exporter where
  settings : Settings
  collector : Collector
  /-- The scanner, unless metrics are disabled. -/
  scanner : Option Scanner
  host : Host
  /-- What was left out of the first scan. -/
  notices : List Notice

namespace Exporter

/-- Starts an exporter on a host. -/
def start (lookup : Variable → Option String) (host : Host) : Except StartError Exporter :=
  match Settings.ofLookup lookup with
  | .error e => .error (.settings e)
  | .ok settings =>
    match Collector.ofNaming settings.naming with
    | .error e => .error (.metrics e)
    | .ok collector =>
      if settings.naming.isNone then .ok ⟨settings, collector, none, host, []⟩
      else
        match (Scanner.ofRoot settings.cgroupRoot settings.taskLabels).scan collector host with
        | .error e => .error (.discovery e)
        | .ok scan => .ok ⟨settings, scan.collector, some scan.scanner, scan.host, scan.notices⟩

end Exporter

end ContainerUsage
