import Mathlib.Tactic.Common

/-! # Timestamps

`std::gmtime` and the one `std::strftime` format `bind_packet_fields` uses. -/

namespace Nanocap

structure Tm where
  year : Int
  month : Nat
  day : Nat
  hour : Nat
  minute : Nat
  second : Nat
deriving DecidableEq

/-- Days are counted in eras of 400 years that start on the first of March. -/
def gmtime (timestamp : Int) : Tm :=
  let days := timestamp / 86400 + 719468
  let secondOfDay := (timestamp % 86400).toNat
  let era := days / 146097
  let dayOfEra := (days % 146097).toNat
  let yearOfEra := (dayOfEra - dayOfEra / 1460 + dayOfEra / 36524 - dayOfEra / 146096) / 365
  let dayOfYear := dayOfEra - (365 * yearOfEra + yearOfEra / 4 - yearOfEra / 100)
  let monthFromMarch := (5 * dayOfYear + 2) / 153
  let month := if monthFromMarch < 10 then monthFromMarch + 3 else monthFromMarch - 9
  { year := yearOfEra + era * 400 + (if month ≤ 2 then 1 else 0)
    month
    day := dayOfYear - (153 * monthFromMarch + 2) / 5 + 1
    hour := secondOfDay / 3600
    minute := secondOfDay / 60 % 60
    second := secondOfDay % 60 }

def twoDigits (value : Nat) : String :=
  if value < 10 then "0" ++ toString value else toString value

/-- `strftime` with `"%Y-%m-%d %H:%M:%S"` into a buffer of `size` characters; it
writes nothing when the text and its terminator do not fit. -/
def strftime (size : Nat) (time : Tm) : Option String :=
  let text := toString time.year ++ "-" ++ twoDigits time.month ++ "-" ++ twoDigits time.day ++
    " " ++ twoDigits time.hour ++ ":" ++ twoDigits time.minute ++ ":" ++ twoDigits time.second
  if text.length < size then some text else none

example : strftime 32 (gmtime 1582988645) = some "2020-02-29 15:04:05" := by decide

end Nanocap
