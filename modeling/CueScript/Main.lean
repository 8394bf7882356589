import CueScript.CommandLine.Program

set_option autoImplicit false

/-! # The executable

The file system of the machine as storage, and the entry point. -/

namespace CueScript

/-- A failure of the operating system: its number, which may come with a sign, and its words. -/
def systemFault (code : UInt32) (details : String) : StorageFault :=
  match code.toInt32.toInt.natAbs with
  | 2 => .notFound
  | 17 => .alreadyThere
  | 20 => .notDirectory
  | 21 => .isDirectory
  | 36 => .nameTooLong
  | n => .other (details ++ " (os error " ++ toString n ++ ")")

/-- A failure of an action on files. -/
def storageFault : IO.Error → StorageFault
  | .alreadyExists _ code details => systemFault code details
  | .noFileOrDirectory _ code details => systemFault code details
  | .permissionDenied _ code details => systemFault code details
  | .inappropriateType _ code details => systemFault code details
  | .resourceExhausted _ code details => systemFault code details
  | .noSuchThing _ code details => systemFault code details
  | .invalidArgument _ code details => systemFault code details
  | .otherError code details => systemFault code details
  | e => .other (toString e)

/-- An action on a path, with its failure as a fault. -/
def attempt {α : Type} (path : String) (action : IO α) : IO (Except StorageFault α) := do
  if holdsNul path then return .error .nulInName
  try
    return .ok (← action)
  catch e => return .error (storageFault e)

/-- The file system. -/
def fileSystem : Storage IO where
  read path := do
    match ← attempt path (IO.FS.readBinFile path) with
    | .error fault => return .error fault
    | .ok bytes =>
      match String.fromUTF8? bytes with
      | some text => return .ok text
      | none => return .error .notText
  makeDirectories path := attempt path (IO.FS.createDirAll path)
  write path text := attempt path (IO.FS.writeFile path text)
  rename source path := attempt path (IO.FS.rename source path)

end CueScript

/-- Run the program on the arguments of the command line. -/
def main (arguments : List String) : IO UInt32 := do
  let transcript ← CueScript.CommandLine.invoke CueScript.fileSystem arguments
  for printed in transcript.printed do
    IO.print printed.shown
  IO.eprint transcript.complaint
  return transcript.status.toUInt32
