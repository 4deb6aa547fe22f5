import ContainerUsage.Collector.Collect
/-!
# The text of a scrape

A scrape is answered in two steps.  First its families are gathered: families with one name are put
together, and all are brought into the order of their names.  The samples of a family are sorted by
the number of their labels, and then by the values of the labels one after the other; samples that
are equal in that stay in their order.

Then the families are written, each with a line of help, a line with its type, and a line for each
sample.  A family without a name or without samples is refused.

The values of labels are quoted.  A backslash, a newline and a quote are escaped in them, so that a
value cannot end its quotes or its line.
-/

namespace ContainerUsage.Exposition

/-- The type of the text. -/
def contentType : String := "text/plain; version=0.0.4"

/-! ## Gathering -/

/-- Puts a family to others.  Its samples go to the family with its name, if there is one. -/
def put (family : Family) : List Family → List Family
  | [] => [family]
  | first :: rest =>
    if first.name = family.name then
      { first with samples := first.samples ++ family.samples } :: rest
    else first :: put family rest

/-- The families that have samples, with one for each name. -/
def merge (families : List Family) : List Family :=
  (families.filter (!·.samples.isEmpty)).foldl (fun merged family => put family merged) []

/-- Whether values come before other values, or are equal to them, one after the other. -/
def valuesLE : List String → List String → Bool
  | v :: vs, w :: ws => if v < w then true else if w < v then false else valuesLE vs ws
  | _, _ => true

/-- Whether a sample is written before another one. -/
def sampleLE (a b : Sample) : Bool :=
  if a.labels.length = b.labels.length then
    valuesLE (a.labels.map Prod.snd) (b.labels.map Prod.snd)
  else a.labels.length < b.labels.length

/-- Families in the order in which they are written. -/
def arrange (families : List Family) : List Family :=
  (families.mergeSort fun a b => a.name ≤ b.name).map fun family =>
    { family with samples := family.samples.mergeSort sampleLE }

/-- The families of a scrape as they are written. -/
def gather (families : List Family) : List Family := arrange (merge families)

/-! ## Lines -/

/-- A character of a text.  A quote is escaped inside quotes only. -/
def escapeChar (quoted : Bool) (c : Char) : List Char :=
  if c = '\\' then ['\\', '\\']
  else if c = '\n' then ['\\', 'n']
  else if quoted && c = '"' then ['\\', '"']
  else [c]

/-- A text on a line, inside quotes or not. -/
def escape (quoted : Bool) (text : String) : String :=
  String.ofList (text.toList.flatMap (escapeChar quoted))

/-- A label. -/
def label (l : Label) : String := l.1 ++ "=\"" ++ escape true l.2 ++ "\""

/-- The labels of a sample. -/
def labels (ls : List Label) : String :=
  if ls.isEmpty then "" else "\x7b" ++ ",".intercalate (ls.map label) ++ "\x7d"

/-- The line of a sample. -/
def sampleLine (name : String) (sample : Sample) : String :=
  name ++ labels sample.labels ++ " " ++ sample.value.print ++ "\n"

/-- The line of help.  Without a help text there is none. -/
def helpLine (name help : String) : String :=
  if help = "" then "" else "# HELP " ++ name ++ " " ++ escape false help ++ "\n"

/-- The name of a kind of metrics. -/
def kindName : MetricKind → String
  | .counter => "counter"
  | .gauge => "gauge"

/-- The line with the type. -/
def typeLine (name : String) (kind : MetricKind) : String :=
  "# TYPE " ++ name ++ " " ++ kindName kind ++ "\n"

/-- The lines of a family. -/
def family (f : Family) : String :=
  helpLine f.name f.help ++ typeLine f.name f.kind ++
    String.join (f.samples.map (sampleLine f.name))

/-! ## The text -/

/-- Why a family is not written. -/
inductive Fault where
  | noSamples (family : Family)
  | noName (family : Family)
  deriving DecidableEq

/-- Checks a family before it is written. -/
def check (f : Family) : Except Fault Unit :=
  if f.samples.isEmpty then .error (.noSamples f)
  else if f.name = "" then .error (.noName f)
  else .ok ()

/-- Writes families, up to the first that is refused. -/
def encode : List Family → Except Fault String
  | [] => .ok ""
  | f :: rest =>
    match check f with
    | .error fault => .error fault
    | .ok () => (encode rest).map (family f ++ ·)

/-- The body of the answer to a scrape. -/
def body (families : List Family) : Except Fault String := encode (gather families)

/-- The text of a scrape. -/
def render (families : List Family) : String := String.join ((gather families).map family)

end ContainerUsage.Exposition
