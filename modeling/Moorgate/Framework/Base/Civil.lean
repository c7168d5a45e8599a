import Mathlib.Data.Int.Basic
import Mathlib.Tactic

/-!
# Instants and their RFC 3339 text

Instants are microseconds since 1970-01-01T00:00:00Z, the resolution of a
`timestamptz` column; durations are differences of instants. The calendar is
the proleptic Gregorian one, computed by the usual shift to an era of 400
years that starts on the first of March.
-/

namespace Moorgate.Framework

abbrev Instant := ℤ
abbrev Duration := ℤ

def second : Duration := 1000000
def minute : Duration := 60 * second
def hour : Duration := 60 * minute

/-- Year, month and day of a day number counted from 1970-01-01. -/
def civilFromDays (days : ℤ) : ℤ × ℕ × ℕ :=
  let z := days + 719468
  let era := z / 146097
  let doe := (z % 146097).toNat
  let yoe := (doe - doe / 1460 + doe / 36524 - doe / 146096) / 365
  let doy := doe - (365 * yoe + yoe / 4 - yoe / 100)
  let mp := (5 * doy + 2) / 153
  let day := doy - (153 * mp + 2) / 5 + 1
  let month := if mp < 10 then mp + 3 else mp - 9
  let year := (yoe : ℤ) + era * 400 + (if month ≤ 2 then 1 else 0)
  (year, month, day)

/-- Decimal digits, filled up with zeros on the left to a width. -/
def zeroPad (width n : ℕ) : String :=
  let digits := toString n
  String.ofList (List.replicate (width - digits.length) '0') ++ digits

/-- A year is printed with four digits at least, after its sign. -/
def yearText (year : ℤ) : String :=
  if year < 0 then "-" ++ zeroPad 4 year.natAbs else zeroPad 4 year.natAbs

/-- The digits of a fraction with the given number of places, without trailing zeros. -/
def fracText (places v : ℕ) : String :=
  if v = 0 then ""
  else "." ++ String.ofList ((zeroPad places v).toList.reverse.dropWhile (· = '0')).reverse

/-- `t.UTC().Format(time.RFC3339Nano)` for the nanoseconds since 1970-01-01T00:00:00Z. -/
def formatNanos (t : ℤ) : String :=
  let day := t / 86400000000000
  let rest := (t % 86400000000000).toNat
  let secs := rest / 1000000000
  let (year, month, dom) := civilFromDays day
  yearText year ++ "-" ++ zeroPad 2 month ++ "-" ++ zeroPad 2 dom ++ "T" ++
    zeroPad 2 (secs / 3600) ++ ":" ++ zeroPad 2 (secs / 60 % 60) ++ ":" ++
    zeroPad 2 (secs % 60) ++ fracText 9 (rest % 1000000000) ++ "Z"

def rfc3339Nano (t : Instant) : String := formatNanos (t * 1000)

/-- `d.String()` of a number of nanoseconds without its sign. -/
def absDurationText (u : ℕ) : String :=
  if u = 0 then "0s"
  else if u < 1000 then toString u ++ "ns"
  else if u < 1000000 then toString (u / 1000) ++ fracText 3 (u % 1000) ++ "µs"
  else if u < 1000000000 then toString (u / 1000000) ++ fracText 6 (u % 1000000) ++ "ms"
  else
    let secs := u / 1000000000
    (if 3600 ≤ secs then toString (secs / 3600) ++ "h" else "") ++
      (if 60 ≤ secs then toString (secs / 60 % 60) ++ "m" else "") ++
        toString (secs % 60) ++ fracText 9 (u % 1000000000) ++ "s"

def durationText (nanos : ℤ) : String :=
  if nanos < 0 then "-" ++ absDurationText nanos.natAbs else absDurationText nanos.natAbs

example : durationText 3723004000000 = "1h2m3.004s" := by decide +kernel

end Moorgate.Framework
