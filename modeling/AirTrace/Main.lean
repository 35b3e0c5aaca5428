import AirTrace.Program

/-!
# The command line program

The file system of the machine, and the program run on it.
-/

namespace AirTrace

/-- The number of a system error. -/
def systemError : IO.Error → SystemError
  | .noFileOrDirectory _ n _ | .alreadyExists _ n _ | .permissionDenied _ n _
  | .resourceExhausted _ n _ | .inappropriateType _ n _ | .noSuchThing _ n _
  | .interrupted _ n _ | .invalidArgument _ n _ => ⟨n.toNat⟩
  | .otherError n _ | .resourceBusy n _ | .resourceVanished n _ | .unsupportedOperation n _
  | .hardwareFault n _ | .unsatisfiedConstraints n _ | .illegalOperation n _
  | .protocolError n _ | .timeExpired n _ => ⟨n.toNat⟩
  | _ => ⟨5⟩

/-- The file system of the machine. -/
def machine : FileSystem IO where
  read path := do
    match ← (IO.FS.Handle.mk path .read).toBaseIO with
    | .error e => return .error (.cannotOpen (systemError e))
    | .ok h =>
        match ← h.readBinToEnd.toBaseIO with
        | .error e => return .error (.cannotRead (systemError e))
        | .ok b => return .ok b.toList
  create path := do
    match ← (IO.FS.Handle.mk path .write).toBaseIO with
    | .error e => return .error (systemError e)
    | .ok _ => return .ok ()
  append path o := do
    let put : IO Unit := do
      let h ← IO.FS.Handle.mk path .append
      h.write (ByteArray.mk o.toArray)
      h.flush
    match ← put.toBaseIO with
    | .error e => return .error (systemError e)
    | .ok () => return .ok ()

end AirTrace

open AirTrace in
/-- Runs the program. -/
def main (args : List String) : IO UInt32 := do
  let begun ← IO.monoMsNow
  let outcome ← Program.run machine args
  let ended ← IO.monoMsNow
  (← IO.getStdout).putStr outcome.listing
  for n in outcome.notices do
    (← IO.getStderr).putStrLn (Program.noticeText (Float.ofNat (ended - begun) / 1000) n)
  return UInt32.ofNat outcome.exit
