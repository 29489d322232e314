import Admission.Text.Digits

/-!
# Dates and times

A moment is a date, a time of day, or a date with a time and possibly an offset from universal
time. Its text has fields of fixed width; reading takes a blank or a small `t` between date and
time and a small `z`, and keeps nine digits of a fraction of a second.
-/

namespace Admission.Toml

open Admission.Text

/-! ## Parts -/

/-- A day of the calendar. -/
structure Date where
  year : Nat
  month : Nat
  day : Nat
deriving DecidableEq, Repr

/-- A time of day. -/
structure Time where
  hour : Nat
  minute : Nat
  second : Nat
  nanosecond : Nat
deriving DecidableEq, Repr

/-- A distance from universal time. -/
inductive Offset where
  /-- None, by the letter for universal time. -/
  | universal
  | minutes (east : Int)
deriving DecidableEq, Repr

/-- A date, a time, or both with or without an offset. -/
inductive Moment where
  | date (date : Date)
  | time (time : Time)
  | both (date : Date) (time : Time) (offset : Option Offset)
deriving DecidableEq, Repr

/-! ## The calendar -/

/-- Whether a year has a day more. -/
def isLeapYear (year : Nat) : Bool :=
  year % 4 = 0 && (year % 100 ≠ 0 || year % 400 = 0)

/-- The number of days of a month. -/
def daysIn (year month : Nat) : Nat :=
  if month = 2 then (if isLeapYear year then 29 else 28)
  else if month = 4 ∨ month = 6 ∨ month = 9 ∨ month = 11 then 30
  else 31

/-! ## Writing -/

/-- The digits of a number, filled up with zeros to a width. -/
def padded (width value : Nat) : List Char :=
  let digits := Digits.write value
  List.replicate (width - digits.length) '0' ++ digits

/-- The text of a date. -/
def Date.toText (d : Date) : List Char :=
  padded 4 d.year ++ '-' :: padded 2 d.month ++ '-' :: padded 2 d.day

/-- The text of a time; a fraction has no superfluous zeros. -/
def Time.toText (t : Time) : List Char :=
  padded 2 t.hour ++ ':' :: padded 2 t.minute ++ ':' :: padded 2 t.second
    ++ (if t.nanosecond = 0 then [] else '.' :: Digits.trimZeros (padded 9 t.nanosecond))

/-- The text of an offset; no distance counts as eastward. -/
def Offset.toText : Offset → List Char
  | universal => ['Z']
  | minutes east =>
    (if east < 0 then '-' else '+') :: padded 2 (east.natAbs / 60)
      ++ ':' :: padded 2 (east.natAbs % 60)

/-- The text of a moment. -/
def Moment.toText : Moment → List Char
  | date d => d.toText
  | time t => t.toText
  | both d t offset =>
    d.toText ++ 'T' :: t.toText ++ (match offset with
      | some offset => offset.toText
      | none => [])

/-! ## Reading -/

/-- A field of so many digits whose value lies in a range. -/
def readField (width least most : Nat) (text : List Char) : Option (Nat × List Char) :=
  let digits := text.take width
  let value := Digits.value digits
  if digits.length = width ∧ Digits.allDigits digits ∧ least ≤ value ∧ value ≤ most then
    some (value, text.drop width)
  else none

/-- What follows a given character. -/
def after? (mark : Char) : List Char → Option (List Char)
  | c :: rest => if c = mark then some rest else none
  | [] => none

/-- Reads a date. -/
def readDate (text : List Char) : Option (Date × List Char) := do
  let (year, text) ← readField 4 0 9999 text
  let text ← after? '-' text
  let (month, text) ← readField 2 1 12 text
  let text ← after? '-' text
  let (day, text) ← readField 2 1 (daysIn year month) text
  some (⟨year, month, day⟩, text)

/-- Reads the digits of a fraction of a second, if there is one; those past nine are dropped. -/
def readNanosecond (text : List Char) : Option (Nat × List Char) :=
  match text with
  | '.' :: rest =>
    let digits := rest.takeWhile Char.isDigit
    let kept := digits.take 9
    if digits = [] then none
    else some (Digits.value (kept ++ List.replicate (9 - kept.length) '0'),
      rest.dropWhile Char.isDigit)
  | _ => some (0, text)

/-- Reads a time; a second may be a leap second. -/
def readTime (text : List Char) : Option (Time × List Char) := do
  let (hour, text) ← readField 2 0 23 text
  let text ← after? ':' text
  let (minute, text) ← readField 2 0 59 text
  let text ← after? ':' text
  let (second, text) ← readField 2 0 60 text
  let (nanosecond, text) ← readNanosecond text
  some (⟨hour, minute, second, nanosecond⟩, text)

/-- Reads the hours and minutes of an offset. -/
def readDistance (text : List Char) : Option (Nat × List Char) := do
  let (hours, text) ← readField 2 0 23 text
  let text ← after? ':' text
  let (minutes, text) ← readField 2 0 59 text
  some (hours * 60 + minutes, text)

/-- Reads an offset. -/
def readOffset : List Char → Option (Offset × List Char)
  | 'Z' :: rest => some (.universal, rest)
  | 'z' :: rest => some (.universal, rest)
  | '+' :: rest => (readDistance rest).map fun (distance, rest) => (.minutes distance, rest)
  | '-' :: rest => (readDistance rest).map fun (distance, rest) => (.minutes (-distance), rest)
  | _ => none

/-- Whether a character may stand between a date and a time. -/
def joinsTime (c : Char) : Bool :=
  c == 'T' || c == 't' || c == ' '

/-- Reads the time that follows a date, if there is one. -/
def readTimeOf (date : Date) (text : List Char) : Moment × List Char :=
  match text with
  | [] => (.date date, text)
  | c :: rest =>
    match if joinsTime c then readTime rest else none with
    | none => (.date date, text)
    | some (time, rest) => match readOffset rest with
      | some (offset, rest) => (.both date time (some offset), rest)
      | none => (.both date time none, rest)

/-- Reads a moment. -/
def readMoment (text : List Char) : Option (Moment × List Char) :=
  match readDate text with
  | some (date, rest) => some (readTimeOf date rest)
  | none => (readTime text).map fun (time, rest) => (.time time, rest)

end Admission.Toml
