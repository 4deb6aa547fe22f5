import ContainerUsage.Metric.LabelSet
/-!
# Descriptors

A descriptor says what the samples of a metric have in common: the full name, the help text, the
names of the labels whose values differ from sample to sample, and the labels that are the same on
all of them.  `Descriptor.make` refuses what a scraper could not read: an empty help text, a name
with other characters than ASCII letters, digits, `_` and `:`, a label name that is not a word of
letters, digits and `_`, and a variable label that is named twice.
-/

namespace ContainerUsage

/-! ## Names -/

/-- An ASCII letter or `_`. -/
def isLabelStart (c : Char) : Bool := c.isAlpha || c = '_'

/-- An ASCII letter, a digit or `_`. -/
def isLabelChar (c : Char) : Bool := isLabelStart c || c.isDigit

/-- Whether a text can name a label: it starts with a letter or `_` and goes on with letters, digits
and `_`. -/
def isLabelName (name : String) : Bool :=
  match name.toList with
  | [] => false
  | c :: rest => isLabelStart c && rest.all isLabelChar

/-- Whether a text can name a metric: like a label, but also with `:`. -/
def isMetricName (name : String) : Bool :=
  match name.toList with
  | [] => false
  | c :: rest => (isLabelStart c || c = ':') && rest.all fun c => isLabelChar c || c = ':'

/-! ## Descriptors -/

/-- Why there is no such descriptor. -/
inductive Descriptor.Fault where
  | emptyHelp
  | invalidMetricName (name : String)
  | invalidLabelName (label : String)
  | duplicateLabel (label : String)
  deriving DecidableEq, Repr

/-- The text of a reason. -/
def Descriptor.Fault.message : Descriptor.Fault → String
  | .emptyHelp => "empty help string"
  | .invalidMetricName name => "'" ++ name ++ "' is not a valid metric name"
  | .invalidLabelName label => "'" ++ label ++ "' is not a valid label name"
  | .duplicateLabel label => "duplicate variable label name " ++ label

/-- What the samples of a metric have in common. -/
structure Descriptor where
  fqName : String
  help : String
  variableLabels : List String
  constLabels : LabelSet
  deriving DecidableEq

namespace Descriptor

/-- Checks variable labels in order; `seen` are the ones before them. -/
def checkVariableLabels (seen : List String) : List String → Except Fault Unit
  | [] => .ok ()
  | label :: rest =>
    if !isLabelName label then .error (.invalidLabelName label)
    else if seen.contains label then .error (.duplicateLabel label)
    else checkVariableLabels (label :: seen) rest

/-- The descriptor with given parts.  The help text is checked first, then the name, the names of
the constant labels, and the variable labels. -/
def make (fqName help : String) (variableLabels : List String) (constLabels : LabelSet) :
    Except Fault Descriptor :=
  if help = "" then .error .emptyHelp
  else if !isMetricName fqName then .error (.invalidMetricName fqName)
  else
    match constLabels.names.find? (!isLabelName ·) with
    | some label => .error (.invalidLabelName label)
    | none =>
      match checkVariableLabels [] variableLabels with
      | .error fault => .error fault
      | .ok () => .ok ⟨fqName, help, variableLabels, constLabels⟩

end Descriptor

end ContainerUsage
