/-!
# What goes wrong with stored files

Failures of operations on stored files, told as the system tells them.
-/

namespace Keyring

/-- The kinds of failure of an operation on stored files that callers tell apart. -/
inductive IoKind where
  | notFound
  | alreadyExists
  | other
deriving DecidableEq

/-- A failure of an operation on stored files. -/
structure IoError where
  kind : IoKind
  text : String
deriving DecidableEq

namespace IoError

/-- There is nothing by that name. -/
def noEntry : IoError := ⟨.notFound, "No such file or directory (os error 2)"⟩

/-- There is something by that name already. -/
def entryExists : IoError := ⟨.alreadyExists, "File exists (os error 17)"⟩

/-- A file stands where a directory is needed. -/
def notDirectory : IoError := ⟨.other, "Not a directory (os error 20)"⟩

/-- A directory stands where a file is needed. -/
def isDirectory : IoError := ⟨.other, "Is a directory (os error 21)"⟩

/-- A name or a path is longer than any can be. -/
def nameTooLong : IoError := ⟨.other, "File name too long (os error 36)"⟩

/-- A path holds a byte that ends paths. -/
def nullByte : IoError := ⟨.other, "file name contained an unexpected NUL byte"⟩

end IoError

end Keyring
