import Cryptoki.Text.Hex

/-! Dates of the proleptic Gregorian calendar and times of day. -/
namespace Cryptoki

def isLeap (year : Int) : Bool :=
  year % 4 = 0 && (year % 100 ≠ 0 || year % 400 = 0)

def daysInMonth (year : Int) (month : Nat) : Nat :=
  if month = 2 then if isLeap year then 29 else 28
  else if month = 4 ∨ month = 6 ∨ month = 9 ∨ month = 11 then 30
  else 31

structure Date where
  year : Int
  month : Nat
  day : Nat
  year_range : -9999 ≤ year ∧ year ≤ 9999
  month_range : 1 ≤ month ∧ month ≤ 12
  day_range : 1 ≤ day ∧ day ≤ daysInMonth year month
  deriving DecidableEq

/-- The part of a date or time that has no such value. -/
inductive DateComponent where
  | year
  | month
  | day
  deriving DecidableEq, Repr

def DateComponent.name : DateComponent → String
  | .year => "year"
  | .month => "month"
  | .day => "day"

/-- The month is looked at first, then the year, then the day. -/
def Date.ofCalendar (year month day : Int) : Except DateComponent Date :=
  if hm : 1 ≤ month.toNat ∧ month.toNat ≤ 12 then
    if hy : -9999 ≤ year ∧ year ≤ 9999 then
      if hd : 1 ≤ day.toNat ∧ day.toNat ≤ daysInMonth year month.toNat then
        .ok ⟨year, month.toNat, day.toNat, hy, hm, hd⟩
      else .error .day
    else .error .year
  else .error .month

/-- `YYYY-MM-DD`, with a sign before a year that is negative. -/
def Date.text (d : Date) : String :=
  (if d.year < 0 then "-" else "") ++ paddedDecimal 4 d.year.natAbs ++ "-" ++
    paddedDecimal 2 d.month ++ "-" ++ paddedDecimal 2 d.day

structure TimeOfDay where
  hour : Nat
  minute : Nat
  second : Nat
  hour_lt : hour < 24
  minute_lt : minute < 60
  second_lt : second < 60
  deriving DecidableEq

def TimeOfDay.ofClock? (hour minute second : Nat) : Option TimeOfDay :=
  if h : hour < 24 ∧ minute < 60 ∧ second < 60 then some ⟨hour, minute, second, h.1, h.2.1, h.2.2⟩
  else none

structure DateTime where
  date : Date
  time : TimeOfDay
  deriving DecidableEq

/-- An ASCII digit read as a number. -/
def digitValue? (b : UInt8) : Option Nat :=
  if 48 ≤ b.toNat ∧ b.toNat ≤ 57 then some (b.toNat - 48) else none

/-- The number written by ASCII digits; no digit at all makes zero. -/
def digitsValue? (bs : Bytes) : Option Nat :=
  bs.foldl (fun acc b => acc.bind fun n => (digitValue? b).map (10 * n + ·)) (some 0)

/-- The ASCII digits of a number, with leading zeros up to the given width. -/
def digitBytes (width n : Nat) : Bytes :=
  ((Nat.toDigits 10 n).leftpad width '0').map fun c => UInt8.ofNat c.toNat

end Cryptoki
