import AccessTree.Literal
import AccessTree.Problem

/-! # Timestamps

An instant is a number of microseconds since the start of 1970. A number of seconds is rounded to
microseconds, a tie to the even one. `Timestamp.render` writes an instant as date and time of the
proleptic Gregorian calendar in the universal time zone, with microseconds only if there are any;
the years from 1 to 9999 can be written. -/

namespace AccessTree.Timestamp

/-- Why an instant cannot be written. -/
inductive Fault where
  | nan
  /-- The seconds do not fit into 64 bits. -/
  | tooFar
  /-- The year does not fit into 32 bits. -/
  | yearTooFar
  | year (year : Int)
  deriving DecidableEq

/-- The failure that a fault amounts to. -/
def Fault.toFailure : Fault → Failure
  | .nan => .breakdown .value "Invalid value NaN (not a number)"
  | .tooFar => .breakdown .overflow "timestamp out of range for platform time_t"
  | .yearTooFar => .breakdown .system "[Errno 75] Value too large for defined data type"
  | .year y => .breakdown .value ("year " ++ Text.ofInt y ++ " is out of range")

/-- Microseconds in a second. -/
def perSecond : Nat := 1000000

/-- The microseconds in a number of seconds. The fraction of a second is multiplied as a floating
point number before it is rounded. -/
def ofSeconds : Binary64 → Except Fault Int
  | .nan => .error .nan
  | .infinite _ => .error .tooFar
  | .finite negative m e _ =>
    let units := m <<< e
    let micros := match Binary64.ofRatio false (units % Binary64.one * perSecond) Binary64.one with
      | .finite _ m e _ => Binary64.roundQuotient (m <<< e) Binary64.one
      | _ => 0
    .ok (Text.signed negative (units / Binary64.one * perSecond + micros))

/-- The microseconds in a number of seconds that was entered; nothing else than a number counts. -/
def ofLiteral : Literal → Except Fault Int
  | .int n => .ok (n * perSecond)
  | .float x => ofSeconds x
  | .flag b => .ok (if b then perSecond else 0)
  | .text _ => .ok 0

/-! ### Calendar dates -/

/-- Year, month and day of a day that is counted from the start of 1970. Years are counted in eras
of 400 years, and inside an era from March on, so that a leap day is the last day of a year. -/
def civil (day : Int) : Int × Int × Int :=
  let shifted := day + 719468
  let era := shifted.fdiv 146097
  let inEra := shifted.fmod 146097
  let yearOfEra := (inEra - inEra / 1460 + inEra / 36524 - inEra / 146096) / 365
  let inYear := inEra - (365 * yearOfEra + yearOfEra / 4 - yearOfEra / 100)
  let fromMarch := (5 * inYear + 2) / 153
  let month := if fromMarch < 10 then fromMarch + 3 else fromMarch - 9
  let year := yearOfEra + era * 400
  (if month ≤ 2 then year + 1 else year, month, inYear - (153 * fromMarch + 2) / 5 + 1)

/-- A number with leading zeros. -/
def padded (width : Nat) (n : Int) : String :=
  let ds := Text.natChars n.toNat
  String.ofList (List.replicate (width - ds.length) '0' ++ ds)

/-- Whether an integer fits into a signed word of so many bits. -/
def fits (bits : Nat) (n : Int) : Bool :=
  let bound : Int := Nat.shiftLeft 1 (bits - 1)
  decide (-bound ≤ n) && decide (n < bound)

/-- **The text of an instant.** -/
def render (micros : Int) : Except Fault String :=
  let seconds := micros.fdiv perSecond
  let fraction := micros.fmod perSecond
  let (year, month, day) := civil (seconds.fdiv 86400)
  let ofDay := seconds.fmod 86400
  if !fits 64 seconds then .error .tooFar
  else if !fits 32 (year - 1900) then .error .yearTooFar
  else if year < 1 ∨ 9999 < year then .error (.year year)
  else .ok (padded 4 year ++ "-" ++ padded 2 month ++ "-" ++ padded 2 day ++ "T" ++
    padded 2 (ofDay / 3600) ++ ":" ++ padded 2 (ofDay / 60 % 60) ++ ":" ++ padded 2 (ofDay % 60) ++
    (if fraction = 0 then "" else "." ++ padded 6 fraction) ++ "+00:00")

end AccessTree.Timestamp
