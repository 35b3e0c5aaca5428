import AirTrace.CommandLine
import AirTrace.Replay
import AirTrace.Settings.Json

/-!
# The program

The program reads the settings, replays a capture file, lists its packets and, if asked to, writes
them to another capture file and shows what was counted.  What it needs of the file system is an
argument, so that the program itself is a plain function of it.
-/

namespace AirTrace

/-- A number by which the operating system tells why something cannot be done. -/
structure SystemError where
  number : Nat
  deriving DecidableEq, Repr

namespace SystemError

/-- The name of a system error. -/
def name (e : SystemError) : String :=
  match e.number with
  | 1 => "Operation not permitted"
  | 2 => "No such file or directory"
  | 5 => "Input/output error"
  | 6 => "No such device or address"
  | 13 => "Permission denied"
  | 16 => "Device or resource busy"
  | 17 => "File exists"
  | 19 => "No such device"
  | 20 => "Not a directory"
  | 21 => "Is a directory"
  | 22 => "Invalid argument"
  | 24 => "Too many open files"
  | 26 => "Text file busy"
  | 27 => "File too large"
  | 28 => "No space left on device"
  | 30 => "Read-only file system"
  | 36 => "File name too long"
  | 40 => "Too many levels of symbolic links"
  | n => s!"Unknown error {n}"

/-- The wording of a system error. -/
def message (e : SystemError) : String := e.name ++ s!" (os error {e.number})"

end SystemError

/-- Why a file gives no octets. -/
inductive ReadError where
  | cannotOpen (e : SystemError)
  | cannotRead (e : SystemError)
  deriving DecidableEq, Repr

/-- What the program needs of the file system. -/
structure FileSystem (m : Type → Type) where
  read : String → m (Except ReadError Octets)
  /-- Makes a file, or empties the one that is there. -/
  create : String → m (Except SystemError Unit)
  /-- Puts octets at the end of a file that has been made. -/
  append : String → Octets → m (Except SystemError Unit)

/-- What the program says besides its listing. -/
inductive Notice where
  | usage
  | noInput
  | failure (text : String)
  | statistics (s : Stats)
  deriving DecidableEq, Repr

/-- What a run of the program comes to. -/
structure Outcome where
  exit : Nat
  listing : String
  notices : List Notice
  deriving DecidableEq, Repr

namespace Program

/-- How the program is used. -/
def usage : String :=
  "Usage: airtrace [-f FILE] [-w FILE] [--config FILE] [-v] [--stats]\n"

/-- The text of a notice, given how long the replay took in seconds. -/
def noticeText (elapsed : Float) : Notice → String
  | .usage => usage
  | .noInput => "no input specified. Use -f <file> to decode a capture file."
  | .failure text => "error: " ++ text
  | .statistics s => "done (" ++ Decimal.fixed 1 elapsed ++ "s): " ++ s.text

/-- A run that fails before it lists a packet. -/
def fail (text : String) : Outcome := ⟨1, "", [.failure text]⟩

/-- The wording of an error in a file's header. -/
def headerMessage (e : Capture.HeaderError) : String :=
  e.message?.getD "failed to fill whole buffer"

variable {m : Type → Type} [Monad m]

/-- The settings in a file; the standard ones if there is no file. -/
def loadSettings (fs : FileSystem m) : Option String → m (Except String (Settings Float))
  | none => return .ok .standard
  | some path => do
      match ← fs.read path with
      | .error (.cannotOpen e) => return .error ("failed to open " ++ path ++ ": " ++ e.message)
      | .error (.cannotRead _) => return .error ("invalid config " ++ path)
      | .ok o => match Settings.ofDocument? o with
          | none => return .error ("invalid config " ++ path)
          | some s => return .ok s

/-- The replay of a file. -/
def loadReplay (fs : FileSystem m) (s : Settings Float) (path : String) :
    m (Except String (Replay Float)) := do
  match ← fs.read path with
  | .error (.cannotOpen e) => return .error ("failed to open " ++ path ++ ": " ++ e.message)
  | .error (.cannotRead e) => return .error ("failed to read PCAP header: " ++ e.message)
  | .ok o => match Replay.ofFile s o with
      | .error e => return .error ("failed to read PCAP header: " ++ headerMessage e)
      | .ok r => return .ok r

/-- Makes the file to be written, if one is named, and gives it the header. -/
def makeOutput (fs : FileSystem m) : Option String → m (Except String Unit)
  | none => return .ok ()
  | some path => do
      match ← fs.create path with
      | .error e => return .error ("failed to create " ++ path ++ ": " ++ e.message)
      | .ok () => match ← fs.append path Capture.header with
          | .error e => return .error ("failed to write PCAP header: " ++ e.message)
          | .ok () => return .ok ()

/-- Puts the records of a replay into the file to be written, if one is named. -/
def fillOutput (fs : FileSystem m) (r : Replay Float) : Option String → m (Except String Unit)
  | none => return .ok ()
  | some path => do
      match ← fs.append path r.toRecords with
      | .error e => return .error ("pcap flush failed: " ++ e.message)
      | .ok () => return .ok ()

/-- What the program does for a request.  If the file to be written cannot be made, nothing is
listed; if it cannot be filled, that is told in the place of the statistics. -/
def serve (fs : FileSystem m) (q : CommandLine.Request) : m Outcome := do
  match ← loadSettings fs q.settings with
  | .error text => return fail text
  | .ok s =>
      match q.input with
      | none => return ⟨1, "", [.noInput]⟩
      | some path =>
          match ← loadReplay fs s path with
          | .error text => return fail text
          | .ok r =>
              match ← makeOutput fs q.output with
              | .error text => return fail text
              | .ok () =>
                  match ← fillOutput fs r q.output with
                  | .error text => return ⟨1, r.text, [.failure text]⟩
                  | .ok () =>
                      return ⟨0, r.text, if q.stats then [.statistics r.session.stats] else []⟩

/-- Runs the program on a command line. -/
def run (fs : FileSystem m) (args : List String) : m Outcome :=
  match CommandLine.read args with
  | .error .help => return ⟨0, usage, []⟩
  | .error .usage => return ⟨2, "", [.usage]⟩
  | .ok q => serve fs q

end Program

end AirTrace
