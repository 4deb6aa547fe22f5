import ContainerUsage.Payload.Legacy
/-!
# Self-describing stats

A task hands its stats out in an `Envelope`: the name of a payload type and the bytes of a body.
`Envelope.content` reads the body as the payload that the name stands for.  Tools like to put a host
name in front of a type name, so one such prefix is taken off before the name is looked at; error
texts show the name as it came.
-/

namespace ContainerUsage.Payload

/-- A body and the name of its type. -/
structure Envelope where
  typeUrl : String
  body : Bytes
  deriving DecidableEq, Repr

/-- The stats in an envelope. -/
inductive Content where
  | legacy (stats : Legacy.Stats)
  | unified (stats : Unified.Stats)
  deriving DecidableEq, Repr

/-- The unified form of the stats. -/
def Content.toUnified : Content → Unified.Stats
  | .legacy stats => stats.toUnified
  | .unified stats => stats

/-- Why an envelope cannot be opened. -/
inductive OpenError where
  /-- The name stands for no known payload. -/
  | unknownType (typeUrl : String)
  /-- The body is not what the name says. -/
  | malformed (typeUrl : String) (cause : Wire.Error)
  deriving DecidableEq, Repr

/-- The text of an error. -/
def OpenError.message : OpenError → String
  | .unknownType typeUrl => "unknown stats type `" ++ typeUrl ++ "`"
  | .malformed typeUrl cause =>
    "failed to decode stats type `" ++ typeUrl ++ "`: " ++ cause.message

/-- The type name of the legacy stats. -/
def legacyTypeUrl : String := "io.containerd.cgroups.v1.Metrics"

/-- The type name of the unified stats. -/
def unifiedTypeUrl : String := "io.containerd.cgroups.v2.Metrics"

/-- What tools put in front of a type name. -/
def typeHost : String := "type.googleapis.com/"

/-- A type name without the host in front of it, if there is one. -/
def bareTypeUrl (typeUrl : String) : String :=
  match typeHost.toList.isPrefixOf? typeUrl.toList with
  | some rest => String.ofList rest
  | none => typeUrl

namespace Envelope

/-- The envelope of legacy stats. -/
def ofLegacy (stats : Legacy.Stats) : Envelope := ⟨legacyTypeUrl, Legacy.Stats.schema.write stats⟩

/-- The envelope of unified stats. -/
def ofUnified (stats : Unified.Stats) : Envelope :=
  ⟨unifiedTypeUrl, Unified.Stats.schema.write stats⟩

/-- Reads the stats in an envelope. -/
def content (envelope : Envelope) : Except OpenError Content :=
  let name := bareTypeUrl envelope.typeUrl
  if name = legacyTypeUrl then
    match Legacy.Stats.schema.read envelope.body with
    | .ok stats => .ok (.legacy stats)
    | .error cause => .error (.malformed envelope.typeUrl cause)
  else if name = unifiedTypeUrl then
    match Unified.Stats.schema.read envelope.body with
    | .ok stats => .ok (.unified stats)
    | .error cause => .error (.malformed envelope.typeUrl cause)
  else .error (.unknownType envelope.typeUrl)

end Envelope

/-- The envelope of stats of either kind. -/
def Content.envelope : Content → Envelope
  | .legacy stats => .ofLegacy stats
  | .unified stats => .ofUnified stats

end ContainerUsage.Payload
