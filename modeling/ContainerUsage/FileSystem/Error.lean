/-!
# Failures of the file system

An operation on files fails with a kind, for which a caller may look, and a text, which is shown.
The kinds that the operating system reports have a fixed text; any other reader of files may report
a kind with a text of its own.
-/

namespace ContainerUsage

/-- The kinds of failures. -/
inductive IoError.Kind where
  | notFound
  | alreadyExists
  | notADirectory
  | isADirectory
  | directoryNotEmpty
  | invalidInput
  | filesystemLoop
  | invalidFilename
  | resourceBusy
  | invalidData
  deriving DecidableEq, Repr

/-- A failure. -/
structure IoError where
  kind : IoError.Kind
  text : String
  deriving DecidableEq, Repr

namespace IoError

/-- The name of a kind. -/
def Kind.name : Kind → String
  | .notFound => "NotFound"
  | .alreadyExists => "AlreadyExists"
  | .notADirectory => "NotADirectory"
  | .isADirectory => "IsADirectory"
  | .directoryNotEmpty => "DirectoryNotEmpty"
  | .invalidInput => "InvalidInput"
  | .filesystemLoop => "FilesystemLoop"
  | .invalidFilename => "InvalidFilename"
  | .resourceBusy => "ResourceBusy"
  | .invalidData => "InvalidData"

/-! ## What the operating system reports -/

/-- Nothing is there. -/
def notFound : IoError := ⟨.notFound, "No such file or directory (os error 2)"⟩

/-- Something is there already. -/
def alreadyExists : IoError := ⟨.alreadyExists, "File exists (os error 17)"⟩

/-- A directory is needed, and this is none. -/
def notADirectory : IoError := ⟨.notADirectory, "Not a directory (os error 20)"⟩

/-- This is a directory, which has no contents to read or replace. -/
def isADirectory : IoError := ⟨.isADirectory, "Is a directory (os error 21)"⟩

/-- What is in use cannot be moved or removed. -/
def resourceBusy : IoError := ⟨.resourceBusy, "Device or resource busy (os error 16)"⟩

/-- A directory cannot be moved into itself, nor removed by the name that stands for itself. -/
def invalidInput : IoError := ⟨.invalidInput, "Invalid argument (os error 22)"⟩

/-- A path, or a name in it, is longer than any can be. -/
def nameTooLong : IoError := ⟨.invalidFilename, "File name too long (os error 36)"⟩

/-- A directory that holds something cannot be replaced or removed. -/
def directoryNotEmpty : IoError := ⟨.directoryNotEmpty, "Directory not empty (os error 39)"⟩

/-- A path leads through too many links. -/
def filesystemLoop : IoError :=
  ⟨.filesystemLoop, "Too many levels of symbolic links (os error 40)"⟩

/-! ## What is reported before the operating system is asked -/

/-- A path holds a zero byte, at which it would end. -/
def zeroByte : IoError := ⟨.invalidInput, "file name contained an unexpected NUL byte"⟩

/-! ## What a reader of texts reports -/

/-- The bytes of a text are no UTF-8. -/
def invalidText : IoError := ⟨.invalidData, "stream did not contain valid UTF-8"⟩

end IoError

end ContainerUsage
