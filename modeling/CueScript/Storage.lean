set_option autoImplicit false

/-! # Storage

What the program needs of a file system: reading and writing files of text, making directories, and
moving a file. Programs over storage are written for any monad; a value of `Storage` says how it is
done. -/

namespace CueScript

/-- Why storage refuses. -/
inductive StorageFault where
  | notFound
  | alreadyThere
  | notDirectory
  | isDirectory
  | nameTooLong
  | nulInName
  | notText
  | other (message : String)
deriving DecidableEq, Repr

/-- The wording of a fault, which is that of the operating system. -/
def StorageFault.message : StorageFault → String
  | notFound => "No such file or directory (os error 2)"
  | alreadyThere => "File exists (os error 17)"
  | notDirectory => "Not a directory (os error 20)"
  | isDirectory => "Is a directory (os error 21)"
  | nameTooLong => "File name too long (os error 36)"
  | nulInName => "file name contained an unexpected NUL byte"
  | notText => "stream did not contain valid UTF-8"
  | other message => message

/-- Does the fault of reading a path mean that there is nothing at the path? -/
def StorageFault.meansAbsent : StorageFault → Bool
  | notFound => true
  | notDirectory => true
  | nameTooLong => true
  | nulInName => true
  | _ => false

/-- Does a path hold the character that ends texts for the operating system? -/
def holdsNul (path : String) : Bool := path.toList.contains '\x00'

/-- Operations on files, by their paths. -/
structure Storage (m : Type → Type) where
  read : String → m (Except StorageFault String)
  makeDirectories : String → m (Except StorageFault Unit)
  write : String → String → m (Except StorageFault Unit)
  rename : String → String → m (Except StorageFault Unit)

/-- The path of a file in a directory. -/
def fileIn (directory file : String) : String :=
  if directory.isEmpty then file
  else if directory.toList.getLast? = some '/' then directory ++ file
  else directory ++ "/" ++ file

end CueScript
