/-!
# Faults of file access

* `FileTree.Fault`: why a file could not be read, written, renamed or removed.
* `Fault.message`: the text shown to the user; `Fault.code?`, `Fault.word`: its number, where the
  system gives it one, and its class.
* `Mishap`: what can befall a write, wherever it goes.
-/

set_option autoImplicit false

namespace RestForge.FileTree

inductive Fault where
  | notFound
  | busy
  | exists
  | notDirectory
  | isDirectory
  | notEmpty
  | tooManyLinks
  | nameTooLong
  | invalidName
  | notText
  | denied
  | noSpace
  | tooLarge
  | overQuota
  | device
  deriving Repr, DecidableEq

namespace Fault

/-- The number of the fault; contents that are no text, and names that no file can have, are
refused before the system is asked. -/
def code? : Fault → Option Nat
  | notFound => some 2
  | busy => some 16
  | «exists» => some 17
  | notDirectory => some 20
  | isDirectory => some 21
  | nameTooLong => some 36
  | notEmpty => some 39
  | tooManyLinks => some 40
  | invalidName => none
  | notText => none
  | denied => some 13
  | noSpace => some 28
  | tooLarge => some 27
  | overQuota => some 122
  | device => some 5

def description : Fault → String
  | notFound => "No such file or directory"
  | busy => "Device or resource busy"
  | «exists» => "File exists"
  | notDirectory => "Not a directory"
  | isDirectory => "Is a directory"
  | nameTooLong => "File name too long"
  | notEmpty => "Directory not empty"
  | tooManyLinks => "Too many levels of symbolic links"
  | invalidName => "file name contained an unexpected NUL byte"
  | notText => "stream did not contain valid UTF-8"
  | denied => "Permission denied"
  | noSpace => "No space left on device"
  | tooLarge => "File too large"
  | overQuota => "Disk quota exceeded"
  | device => "Input/output error"

/-- The class of the fault, as shown in the detailed form of an error. -/
def word : Fault → String
  | notFound => "NotFound"
  | busy => "ResourceBusy"
  | «exists» => "AlreadyExists"
  | notDirectory => "NotADirectory"
  | isDirectory => "IsADirectory"
  | nameTooLong => "InvalidFilename"
  | notEmpty => "DirectoryNotEmpty"
  | tooManyLinks => "FilesystemLoop"
  | invalidName => "InvalidInput"
  | notText => "InvalidData"
  | denied => "PermissionDenied"
  | noSpace => "StorageFull"
  | tooLarge => "FileTooLarge"
  | overQuota => "QuotaExceeded"
  | device => "Uncategorized"

def message (f : Fault) : String :=
  match f.code? with
  | some code => s!"{f.description} (os error {code})"
  | none => f.description

end Fault

inductive Mishap where
  /-- The file is not opened, and stays as it was. -/
  | refused (fault : Fault)
  /-- The file is emptied, and no more than so many bytes are stored in it. -/
  | cutShort (size : Nat) (fault : Fault)
  deriving Repr, DecidableEq

end RestForge.FileTree
