/-!
# Times

A time is a number of seconds since 1970 began. Reports show it as a calendar date and a time of
day, in UTC; years above 9999 have a sign. Calendars end somewhere, and so does `render?`.
-/

namespace CodeVault.Timestamp

/-- The last second that has a date: the end of the last day of the year 262142. -/
def last : Nat := 8210266876799

/-- A number with at least `width` digits. -/
def padded (width n : Nat) : String :=
  let digits := Nat.toDigits 10 n
  String.ofList (List.replicate (width - digits.length) '0' ++ digits)

/-- The year, month and day that begins `days` days after 1970 began: counted in eras of 400 years
    of 146097 days that begin in March, so that the leap day is the last day of a year. -/
def date (days : Nat) : Nat × Nat × Nat :=
  let shifted := days + 719468
  let era := shifted / 146097
  let dayOfEra := shifted % 146097
  let yearOfEra := (dayOfEra - dayOfEra / 1460 + dayOfEra / 36524 - dayOfEra / 146096) / 365
  let dayOfYear := dayOfEra - (365 * yearOfEra + yearOfEra / 4 - yearOfEra / 100)
  let shiftedMonth := (5 * dayOfYear + 2) / 153
  let day := dayOfYear - (153 * shiftedMonth + 2) / 5 + 1
  let month := if shiftedMonth < 10 then shiftedMonth + 3 else shiftedMonth - 9
  let year := yearOfEra + 400 * era + (if month ≤ 2 then 1 else 0)
  (year, month, day)

/-- A time as reports show it, if it has a date. -/
def render? (seconds : Nat) : Option String :=
  if last < seconds then none
  else
    let (year, month, day) := date (seconds / 86400)
    let rest := seconds % 86400
    let yearText := if 9999 < year then "+" ++ padded 5 year else padded 4 year
    some (yearText ++ "-" ++ padded 2 month ++ "-" ++ padded 2 day ++ "T"
      ++ padded 2 (rest / 3600) ++ ":" ++ padded 2 (rest / 60 % 60) ++ ":" ++ padded 2 (rest % 60)
      ++ "+00:00")

end CodeVault.Timestamp
