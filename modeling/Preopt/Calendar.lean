/-! Days of the calendar, counted from the first day of 1970. Years are taken to start in March, so
that a leap day comes last, and 400 of them have the same length always. -/

namespace Preopt.Calendar

def padded (width n : Nat) : String :=
  let ds := Nat.toDigits 10 n
  String.ofList (List.replicate (width - ds.length) '0' ++ ds)

def ofDay (day : Nat) : Nat × Nat × Nat :=
  let fromMarch := day + 719468
  let era := fromMarch / 146097
  let inEra := fromMarch % 146097
  let year := (inEra - inEra / 1460 + inEra / 36524 - inEra / 146096) / 365
  let inYear := inEra - (365 * year + year / 4 - year / 100)
  let month := (5 * inYear + 2) / 153
  let inMonth := inYear - (153 * month + 2) / 5 + 1
  if month < 10 then (era * 400 + year, month + 3, inMonth)
  else (era * 400 + year + 1, month - 9, inMonth)

def text (seconds : Nat) : String :=
  let (year, month, day) := ofDay (seconds / 86400)
  padded 4 year ++ "-" ++ padded 2 month ++ "-" ++ padded 2 day

end Preopt.Calendar
