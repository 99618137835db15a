import RepoLens.Text
/-!
Dates and moments of the Gregorian calendar, with an optional distance from universal time: which ones exist, and how
they are written.
-/
namespace RepoLens

structure Date where
  year : Nat
  month : Nat
  day : Nat
  deriving DecidableEq, Repr

/-- a time of day, to the microsecond -/
structure Clock where
  hour : Nat
  minute : Nat
  second : Nat
  micro : Nat
  deriving DecidableEq, Repr

/-- a day, or a moment with an optional distance from universal time in minutes -/
inductive Stamp where
  | day (date : Date)
  | moment (date : Date) (clock : Clock) (offset : Option Int)
  deriving DecidableEq, Repr

namespace Date

def isLeap (year : Nat) : Bool := year % 4 = 0 && (year % 100 ≠ 0 || year % 400 = 0)

def daysIn (year month : Nat) : Nat :=
  if month = 2 then if isLeap year then 29 else 28
  else if month = 4 || month = 6 || month = 9 || month = 11 then 30
  else 31

end Date

/-- a number of a date or a time that lies outside its range -/
inductive CalendarFault where
  | year (n : Nat)
  | month
  | day
  | hour
  | minute
  | second
  | offset (minutes : Int)
  deriving DecidableEq, Repr

namespace Text

/-- a number with at least so many digits -/
def padded (width n : Nat) : Text :=
  let digits := ofNat n
  List.replicate (width - digits.length) '0' ++ digits

end Text

namespace Date

/-- the first number that is out of range -/
def check (d : Date) : Except CalendarFault Unit :=
  if d.year < 1 || 9999 < d.year then throw (.year d.year)
  else if d.month < 1 || 12 < d.month then throw .month
  else if d.day < 1 || daysIn d.year d.month < d.day then throw .day
  else pure ()

/-- year, month and day, in that order, with hyphens -/
def written (d : Date) : Text :=
  Text.padded 4 d.year ++ '-' :: Text.padded 2 d.month ++ '-' :: Text.padded 2 d.day

end Date

namespace Clock

def check (c : Clock) : Except CalendarFault Unit :=
  if 23 < c.hour then throw .hour
  else if 59 < c.minute then throw .minute
  else if 59 < c.second then throw .second
  else pure ()

/-- hours, minutes and seconds with colons; microseconds only if there are any -/
def written (c : Clock) : Text :=
  Text.padded 2 c.hour ++ ':' :: Text.padded 2 c.minute ++ ':' :: Text.padded 2 c.second ++
    if c.micro = 0 then [] else '.' :: Text.padded 6 c.micro

end Clock

namespace Stamp

/-- sign, hours and minutes of a distance from universal time -/
def writtenOffset (minutes : Int) : Text :=
  (if minutes < 0 then '-' else '+') :: Text.padded 2 (minutes.natAbs / 60) ++
    ':' :: Text.padded 2 (minutes.natAbs % 60)

/-- the day, then after a space the time and the distance -/
def written : Stamp → Text
  | day d => d.written
  | moment d c offset => d.written ++ ' ' :: c.written ++ (match offset with | none => [] | some m => writtenOffset m)

/-- a span of minutes as days and seconds, the seconds never negative -/
def spanShown (minutes : Int) : Text :=
  let days := Int.fdiv minutes 1440
  let seconds := Int.fmod minutes 1440 * 60
  let parts : List Text :=
    (if days = 0 then [] else ["days=" ++ Text.ofInt days]) ++
      if seconds = 0 then [] else ["seconds=" ++ Text.ofInt seconds]
  let body : Text := if parts.isEmpty then "0" else Text.joinWith ", " parts
  "datetime.timedelta(" ++ (body ++ ")")

/-- a stamp inside a list or a mapping -/
def shown : Stamp → Text
  | day d => "datetime.date(" ++ (Text.joinWith ", " ([d.year, d.month, d.day].map Text.ofNat) ++ ")")
  | moment d c offset =>
    let numbers :=
      [d.year, d.month, d.day, c.hour, c.minute] ++
        if c.micro ≠ 0 then [c.second, c.micro] else if c.second ≠ 0 then [c.second] else []
    let zone : List Text :=
      match offset with
      | none => []
      | some m =>
        if m = 0 then ["tzinfo=datetime.timezone.utc"] else ["tzinfo=datetime.timezone(" ++ (spanShown m ++ ")")]
    "datetime.datetime(" ++ (Text.joinWith ", " (numbers.map Text.ofNat ++ zone) ++ ")")

/-- whether a distance from universal time is less than a day -/
def checkOffset : Option Int → Except CalendarFault Unit
  | none => pure ()
  | some m => if m.natAbs < 1440 then pure () else throw (.offset m)

end Stamp

def CalendarFault.message : CalendarFault → Text
  | .year n => "year " ++ (Text.ofNat n ++ " is out of range")
  | .month => "month must be in 1..12"
  | .day => "day is out of range for month"
  | .hour => "hour must be in 0..23"
  | .minute => "minute must be in 0..59"
  | .second => "second must be in 0..59"
  | .offset m =>
    "offset must be a timedelta strictly between -timedelta(hours=24) and timedelta(hours=24), not " ++
      (Stamp.spanShown m ++ ".")

end RepoLens
