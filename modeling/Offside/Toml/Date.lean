/-!
# Dates of TOML

A date is a day, a time of day, or both, with an offset from universal time if there is one. Its
normal form has a `T` between day and time, at most nine digits of a fraction of a second without
zeros at their end, and no negative zero for an offset. Hours and minutes are those of a clock; a
minute may have a leap second.
-/

namespace Offside.Toml

def decimalValue (c : Char) : Nat := c.toNat - '0'.toNat

/-- The number that a fixed count of decimal digits stands for. -/
def fixed? (count : Nat) (s : List Char) : Option Nat :=
  if s.length = count ∧ s.all Char.isDigit then
    some (s.foldl (fun n c => n * 10 + decimalValue c) 0)
  else none

def daysOf (year month : Nat) : Nat :=
  if month = 2 then
    if year % 4 = 0 ∧ (year % 100 ≠ 0 ∨ year % 400 = 0) then 29 else 28
  else if month = 4 ∨ month = 6 ∨ month = 9 ∨ month = 11 then 30
  else 31

/-- Whether a text is a day: year, month and day of the month. -/
def isDay (s : List Char) : Bool :=
  let day? : Option Unit := do
    let year ← fixed? 4 (s.take 4)
    let month ← fixed? 2 ((s.drop 5).take 2)
    let day ← fixed? 2 (s.drop 8)
    if s[4]? = some '-' ∧ s[7]? = some '-' ∧ 1 ≤ month ∧ month ≤ 12 ∧ 1 ≤ day ∧
        day ≤ daysOf year month then some () else none
  day?.isSome

def isHourMinute (s : List Char) : Bool :=
  let hour := (fixed? 2 (s.take 2)).any (· ≤ 23)
  let minute := (fixed? 2 (s.drop 3)).any (· ≤ 59)
  hour && minute && s[2]? == some ':'

def time? (s : List Char) : Option (List Char) :=
  let seconds := (fixed? 2 ((s.drop 6).take 2)).any (· ≤ 60)
  if isHourMinute (s.take 5) && s[5]? == some ':' && seconds then
    match s.drop 8 with
    | [] => some s
    | '.' :: fraction =>
      if fraction.isEmpty || !fraction.all Char.isDigit then none
      else
        let kept := ((fraction.take 9).reverse.dropWhile (· == '0')).reverse
        some (s.take 8 ++ if kept.isEmpty then [] else '.' :: kept)
    | _ => none
  else none

/-- The offset of a time from universal time in its normal form. -/
def offset? (s : List Char) : Option (List Char) :=
  match s with
  | ['Z'] | ['z'] => some ['Z']
  | sign :: rest =>
    if (sign = '+' ∨ sign = '-') ∧ isHourMinute rest then
      some (if rest = "00:00".toList then '+' :: rest else sign :: rest)
    else none
  | [] => none

/-- Whether a character begins the offset of a time. -/
def beginsOffset (c : Char) : Bool := c == 'Z' || c == 'z' || c == '+' || c == '-'

def date? (s : List Char) : Option (List Char) :=
  if s[2]? = some ':' then time? s
  else if !isDay (s.take 10) then none
  else match s.drop 10 with
    | [] => some s
    | mark :: rest => do
      if mark ≠ 'T' ∧ mark ≠ 't' ∧ mark ≠ ' ' then none
      else
        let time ← time? (rest.takeWhile (!beginsOffset ·))
        let offset ← match rest.dropWhile (!beginsOffset ·) with
          | [] => some []
          | tail => offset? tail
        return s.take 10 ++ 'T' :: time ++ offset

end Offside.Toml
