import ContainerUsage.FileSystem.Error
import ContainerUsage.Text.Decimal
/-!
# What can be wrong with a stat file

A stat file is refused because of its contents (`StatError`), or because it cannot be read at all,
which includes a line that is no UTF-8.  Both show up as a `ReadError` where files are read, so that
a failure to read keeps its own kind and text.
-/

namespace ContainerUsage.Stat

/-- The reasons to refuse the contents of a stat file.  Lines count from one. -/
inductive StatError where
  /-- A key comes a second time in a file where keys come once. -/
  | duplicateField (field : String) (line : Nat)
  /-- The value of a known key is no number. -/
  | invalidKeyValue (key value : String) (line : Nat) (cause : Decimal.Error)
  /-- The value of a file that holds one is no number. -/
  | invalidValue (value : String) (line : Nat) (cause : Decimal.Error)
  /-- A line does not start with the two numbers of a device. -/
  | invalidDevice (value : String) (line : Nat)
  /-- The file could not be read. -/
  | io (cause : IoError)
  deriving DecidableEq, Repr

/-- The text of a reason. -/
def StatError.message : StatError → String
  | .duplicateField field line =>
    "duplicate field '" ++ field ++ "' at line " ++ toString line
  | .invalidKeyValue key value line cause =>
    "invalid value for '" ++ key ++ "' at line " ++ toString line ++ ": '" ++ value ++ "': "
      ++ cause.message
  | .invalidValue value line cause =>
    "invalid value at line " ++ toString line ++ ": '" ++ value ++ "': " ++ cause.message
  | .invalidDevice value line =>
    "invalid device number at line " ++ toString line ++ ": '" ++ value ++ "'"
  | .io cause => "error during I/O: " ++ cause.text

/-- Why a stat file could not be read. -/
inductive ReadError where
  /-- The file itself could not be read. -/
  | io (cause : IoError)
  /-- Its contents were refused. -/
  | malformed (reason : StatError)
  deriving DecidableEq, Repr

/-- A reason as a failure to read: a failure of the file system is that failure itself. -/
def StatError.toReadError : StatError → ReadError
  | .io cause => .io cause
  | reason => .malformed reason

/-- The text of a failure to read. -/
def ReadError.message : ReadError → String
  | .io cause => cause.text
  | .malformed reason => reason.message

/-- The kind of a failure to read: refused contents are invalid data. -/
def ReadError.kind : ReadError → IoError.Kind
  | .io cause => cause.kind
  | .malformed _ => .invalidData

end ContainerUsage.Stat
