import AirTrace.Json.Text
import AirTrace.Settings

/-!
# Settings from JSON

Settings are written as an object with any of their names as keys, or as an array of at most five
numbers in the order of the names.  What is not given is as in the standard settings.  Keys that
name no setting are ignored; a setting given twice, or given as anything but a number, makes the
document no settings.
-/

namespace AirTrace.Settings

/-- The names of the settings, in order. -/
inductive Key where
  | tickRate
  | interFrameSpace
  | scanTolerance
  | chainMargin
  | lateTolerance
  deriving DecidableEq, Repr

namespace Key

/-- All keys in order. -/
def all : List Key := [tickRate, interFrameSpace, scanTolerance, chainMargin, lateTolerance]

/-- The name of a setting in a document. -/
def name : Key → String
  | tickRate => "tick_rate_hz"
  | interFrameSpace => "ifs_us"
  | scanTolerance => "scan_rsp_tolerance_us"
  | chainMargin => "chain_margin_us"
  | lateTolerance => "late_tolerance_us"

/-- The setting with a name. -/
def ofName? (s : String) : Option Key := all.find? fun k => k.name == s

end Key

variable {τ : Type}

/-- Replaces one setting. -/
def set (s : Settings τ) (k : Key) (x : τ) : Settings τ :=
  match k with
  | .tickRate => { s with tickRate := x }
  | .interFrameSpace => { s with interFrameSpace := x }
  | .scanTolerance => { s with scanTolerance := x }
  | .chainMargin => { s with chainMargin := x }
  | .lateTolerance => { s with lateTolerance := x }

/-- The number that a value of a document gives. -/
def number? : Json → Option Float
  | .number l => l.toFloat?
  | _ => none

/-- Replaces settings by the members of an object, `seen` being the settings given before them. -/
def setMembers (s : Settings Float) (seen : List Key) :
    List (Octets × Json) → Option (Settings Float)
  | [] => some s
  | (written, v) :: rest => do
      let name ← Json.text? written
      match Key.ofName? name with
      | none => setMembers s seen rest
      | some k =>
          if k ∈ seen then none
          else
            let x ← number? v
            setMembers (s.set k x) (k :: seen) rest

/-- Replaces settings in order by the items of an array. -/
def setItems (s : Settings Float) : List Key → List Json → Option (Settings Float)
  | _, [] => some s
  | [], _ :: _ => none
  | k :: ks, v :: rest => do
      let x ← number? v
      setItems (s.set k x) ks rest

/-- The settings that a document gives. -/
def ofJson? : Json → Option (Settings Float)
  | .object ms => setMembers standard [] ms
  | .array vs => setItems standard Key.all vs
  | _ => none

/-- The settings that the octets of a document give. -/
def ofDocument? (o : Octets) : Option (Settings Float) := (Json.ofOctets? o).bind ofJson?

end AirTrace.Settings
