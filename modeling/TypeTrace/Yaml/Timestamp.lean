import TypeTrace.Yaml.Fault

/-!
# Timestamps

A timestamp is a date, or a date and a time of day, which may say its distance from universal time. What
has the form of a timestamp need not be one: the parts have to be in their ranges.
-/

namespace TypeTrace.Yaml

/-- A distance from universal time, in minutes: positive to the east. -/
structure Offset where
  minutes : Int
deriving DecidableEq

structure DayTime where
  hour : Nat
  minute : Nat
  second : Nat
  microsecond : Nat
  offset : Option Offset
deriving DecidableEq

structure Timestamp where
  year : Nat
  month : Nat
  day : Nat
  time : Option DayTime
deriving DecidableEq

namespace Timestamp

/-! ### Reading -/

def isDigit (c : Char) : Bool := '0' ≤ c && c ≤ '9'

def number (digits : List Char) : Nat :=
  digits.foldl (fun n c => n * 10 + (c.toNat - '0'.toNat)) 0

def digits? (least most : Nat) (cs : List Char) : Option (List Char × List Char) :=
  let ds := (cs.take most).takeWhile isDigit
  if least ≤ ds.length then some (ds, cs.drop ds.length) else none

/-- What follows a character that has to be there. -/
def behind? (c : Char) : List Char → Option (List Char)
  | [] => none
  | d :: cs => if c = d then some cs else none

def isBlank (c : Char) : Bool := c == ' ' || c == '\t'

/-- The number of microseconds that the digits of a fraction write; digits beyond the sixth do not
count. -/
def microseconds (digits : List Char) : Nat :=
  let six := digits.take 6
  number (six ++ List.replicate (6 - six.length) '0')

/-- The distance from universal time at the end of a timestamp, if it is there and ends it. -/
def offset? (cs : List Char) : Option (Option Offset) :=
  if cs.isEmpty then some none
  else
    match cs.dropWhile isBlank with
    | ['Z'] => some (some ⟨0⟩)
    | sign :: rest =>
      if sign = '+' ∨ sign = '-' then do
        let (hours, rest) ← digits? 1 2 rest
        let minutes ← if rest.isEmpty then some [] else do
          let (minutes, rest) ← digits? 2 2 (← behind? ':' rest)
          if rest.isEmpty then some minutes else none
        let n : Int := number hours * 60 + number minutes
        some (some ⟨if sign = '-' then -n else n⟩)
      else none
    | [] => none

def behindDate? (cs : List Char) : Option (List Char) :=
  match cs with
  | c :: rest =>
    if c = 'T' ∨ c = 't' then some rest
    else if isBlank c then some (cs.dropWhile isBlank) else none
  | [] => none

def time? (cs : List Char) : Option DayTime := do
  let (hour, rest) ← digits? 1 2 (← behindDate? cs)
  let (minute, rest) ← digits? 2 2 (← behind? ':' rest)
  let (second, rest) ← digits? 2 2 (← behind? ':' rest)
  let (fraction, rest) := match rest with
    | '.' :: rest => (rest.takeWhile isDigit, rest.dropWhile isDigit)
    | _ => ([], rest)
  let offset ← offset? rest
  some ⟨number hour, number minute, number second, microseconds fraction, offset⟩

/-- The timestamp that a text has the form of. Months and days may have one digit. -/
def ofChars? (cs : List Char) : Option Timestamp := do
  let (year, rest) ← digits? 4 4 cs
  let (month, rest) ← digits? 1 2 (← behind? '-' rest)
  let (day, rest) ← digits? 1 2 (← behind? '-' rest)
  let time ← if rest.isEmpty then some none else some <$> time? rest
  some ⟨number year, number month, number day, time⟩

/-- Whether a plain text is taken for a timestamp: a date alone has to be written in full. -/
def isImplicit (cs : List Char) : Bool :=
  match ofChars? cs with
  | some t => t.time.isSome || cs.length = 10
  | none => false

/-! ### Ranges -/

def isLeap (year : Nat) : Bool := year % 4 = 0 && (year % 100 ≠ 0 || year % 400 = 0)

def monthLengths (year : Nat) : List Nat :=
  [31, if isLeap year then 29 else 28, 31, 30, 31, 30, 31, 31, 30, 31, 30, 31]

/-- A length of time as days and seconds, the seconds not negative. -/
def durationText (minutes : Int) : String :=
  let days := minutes / 1440
  let seconds := minutes % 1440 * 60
  let parts := (if days = 0 then [] else ["days=" ++ toString days])
    ++ if seconds = 0 then [] else ["seconds=" ++ toString seconds]
  "datetime.timedelta(" ++ (if parts.isEmpty then "0" else String.intercalate ", " parts) ++ ")"

def checkOffset (t : DayTime) : Except BadValue Unit :=
  match t.offset with
  | some offset =>
    if -1440 < offset.minutes ∧ offset.minutes < 1440 then .ok ()
    else .error (.offset (durationText offset.minutes))
  | none => .ok ()

def checkClock (t : DayTime) : Except BadValue Unit :=
  if 24 ≤ t.hour then .error .hour
  else if 60 ≤ t.minute then .error .minute
  else if 60 ≤ t.second then .error .second
  else .ok ()

def checkDate (t : Timestamp) : Except BadValue Unit :=
  if t.year = 0 then .error (.year t.year)
  else if t.month = 0 ∨ 12 < t.month then .error .month
  else if t.day = 0 ∨ (monthLengths t.year).getD (t.month - 1) 0 < t.day then .error .day
  else .ok ()

def check (t : Timestamp) : Except BadValue Unit := do
  match t.time with
  | some time => checkOffset time
  | none => .ok ()
  checkDate t
  match t.time with
  | some time => checkClock time
  | none => .ok ()

/-! ### Writing and order -/

def offsetText (offset : Offset) : String :=
  if offset.minutes = 0 then "datetime.timezone.utc"
  else "datetime.timezone(" ++ durationText offset.minutes ++ ")"

/-- A timestamp in messages. Seconds and parts of seconds at the end are left out if they are zero. -/
def text (t : Timestamp) : String :=
  let date := [t.year, t.month, t.day].map (toString ·)
  match t.time with
  | none => "datetime.date(" ++ String.intercalate ", " date ++ ")"
  | some time =>
    let clock := [time.hour, time.minute]
      ++ if time.microsecond ≠ 0 then [time.second, time.microsecond]
        else if time.second ≠ 0 then [time.second] else []
    let zone := time.offset.toList.map fun o => "tzinfo=" ++ offsetText o
    "datetime.datetime(" ++ String.intercalate ", " (date ++ clock.map (toString ·) ++ zone) ++ ")"

def dayNumber (t : Timestamp) : Nat :=
  let before := t.year - 1
  before * 365 + before / 4 - before / 100 + before / 400
    + ((monthLengths t.year).take (t.month - 1)).foldr (· + ·) 0 + (t.day - 1)

/-- The number of microseconds from the first day of the calendar; the distance from universal time is
taken off. -/
def instant (t : Timestamp) : Int :=
  match t.time with
  | none => t.dayNumber * 86400000000
  | some time =>
    ((t.dayNumber * 24 + time.hour) * 60 + time.minute - (time.offset.elim 0 Offset.minutes) : Int)
      * 60000000 + time.second * 1000000 + time.microsecond

end Timestamp

end TypeTrace.Yaml
