import Jose.Json.Decode

/-! Dates as whole seconds since the start of 1970, in the range of signed 64-bit words;
sums that leave the range end at its bounds. A date is shown with its calendar form if the
calendar reaches it. -/
namespace Jose

structure NumericDate where
  seconds : Int
  deriving DecidableEq, Repr, Inhabited

/-- A day in the calendar that leaps every fourth year, but of the centuries only every
fourth. -/
structure CalendarDay where
  year : Int
  month : Int
  day : Int
  deriving DecidableEq, Repr

namespace NumericDate

def maxSeconds : Int := 0x7fffffffffffffff

def minSeconds : Int := -0x8000000000000000

def clamp (n : Int) : Int := max minSeconds (min maxSeconds n)

def add (d : NumericDate) (seconds : Int) : NumericDate := ⟨clamp (d.seconds + seconds)⟩

/-- A part of a second is cut off, toward 1970. -/
def ofMilliseconds (millis : Int) : NumericDate := ⟨millis.tdiv 1000⟩

def milliseconds (d : NumericDate) : Int := clamp (d.seconds * 1000)

def isBefore (d e : NumericDate) : Bool := d.seconds < e.seconds

def isAfter (d e : NumericDate) : Bool := e.seconds < d.seconds

def isOnOrAfter (d e : NumericDate) : Bool := e.seconds ≤ d.seconds

open Decimal in
/-- A number of seconds to the nearest whole one. What is not a number counts as none. -/
def secondsOf (x : Binary64) : Int :=
  if x.isNan then 0
  else if x.isFinite then clamp x.roundHalfAway
  else if x.isNegative then minSeconds else maxSeconds

open Decimal in
def afterMinutes (now : NumericDate) (minutes : Binary64) : NumericDate :=
  now.add (secondsOf (minutes.mul (.ofNat 60)))

def secondsPerDay : Int := 86400

/-- Counts the days from the first of March of the year zero, so that a leap day ends a
year. -/
def calendarDay (days : Int) : CalendarDay :=
  let d := days + 719468
  let era := d / 146097
  let dayOfEra := d % 146097
  let yearOfEra := (dayOfEra - dayOfEra / 1460 + dayOfEra / 36524 - dayOfEra / 146096) / 365
  let dayOfYear := dayOfEra - (365 * yearOfEra + yearOfEra / 4 - yearOfEra / 100)
  let m := (5 * dayOfYear + 2) / 153
  let month := if m < 10 then m + 3 else m - 9
  ⟨yearOfEra + era * 400 + (if month ≤ 2 then 1 else 0), month,
    dayOfYear - (153 * m + 2) / 5 + 1⟩

def padded (width : Nat) (n : Nat) : String :=
  let digits := Nat.toDigits 10 n
  String.ofList (List.replicate (width - digits.length) '0' ++ digits)

/-- A year outside four digits has a sign. -/
def yearText (year : Int) : String :=
  let digits := padded 4 year.natAbs
  if 0 ≤ year && year ≤ 9999 then digits else if year < 0 then "-" ++ digits
  else "+" ++ digits

def calendarText (d : NumericDate) : String :=
  let c := calendarDay (d.seconds / secondsPerDay)
  let time := (d.seconds % secondsPerDay).toNat
  yearText c.year ++ "-" ++ padded 2 c.month.toNat ++ "-" ++ padded 2 c.day.toNat ++ "T" ++
    padded 2 (time / 3600) ++ ":" ++ padded 2 (time / 60 % 60) ++ ":" ++
      padded 2 (time % 60) ++
    "+00:00"

/-- The seconds of the years from -262143 to 262142. -/
def inCalendar (d : NumericDate) : Bool :=
  -8334601228800 ≤ d.seconds && d.seconds ≤ 8210266876799

def shown (d : NumericDate) : String :=
  "NumericDate\x7b" ++ toString d.seconds ++
    (if d.inCalendar then " -> " ++ d.calendarText else "") ++ "\x7d"

def read (bs : Bytes) : Json.Step (NumericDate × Bytes) :=
  (fun (seconds, rest) => (⟨seconds⟩, rest)) <$> Json.readInt64 bs

end NumericDate
end Jose
