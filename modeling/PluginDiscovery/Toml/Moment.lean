/-!
# Dates and times in TOML

A moment is a date, a time, or both with an optional offset from universal time. Days must exist in
their month, hours end at 23, minutes at 59, and seconds at 60, for leap seconds.
-/

namespace PluginDiscovery.Toml

/-- The number of a text that consists of so many digits. -/
def fixedNumber? (length : Nat) (text : List Char) : Option Nat :=
  if text.length = length && text.all Char.isDigit then
    some (text.foldl (fun n c => 10 * n + (c.toNat - 48)) 0)
  else none

/-- Whether a year has a leap day. -/
def isLeapYear (year : Nat) : Bool := year % 4 = 0 && (year % 100 ≠ 0 || year % 400 = 0)

/-- The number of days in a month. -/
def daysIn (year month : Nat) : Nat :=
  if month = 2 then if isLeapYear year then 29 else 28
  else if month ∈ [4, 6, 9, 11] then 30 else 31

/-- Whether a text is a date. -/
def isDate (text : List Char) : Bool :=
  match text.splitOn '-' with
  | [year, month, day] =>
    match fixedNumber? 4 year, fixedNumber? 2 month, fixedNumber? 2 day with
    | some year, some month, some day =>
      1 ≤ month && month ≤ 12 && 1 ≤ day && day ≤ daysIn year month
    | _, _, _ => false
  | _ => false

/-- Whether a text is a number of two digits up to a limit. -/
def isUpTo (limit : Nat) (text : List Char) : Bool :=
  match fixedNumber? 2 text with
  | some value => value ≤ limit
  | none => false

/-- Whether a text is a number of seconds, with a fraction if need be. -/
def isSeconds (text : List Char) : Bool :=
  match text.splitOn '.' with
  | [whole] => isUpTo 60 whole
  | [whole, fraction] => isUpTo 60 whole && !fraction.isEmpty && fraction.all Char.isDigit
  | _ => false

/-- Whether a text is a time. -/
def isTime (text : List Char) : Bool :=
  match text.splitOn ':' with
  | [hour, minute, second] => isUpTo 23 hour && isUpTo 59 minute && isSeconds second
  | _ => false

/-- Whether a text is an offset of hours and minutes, its sign apart. -/
def isOffset (text : List Char) : Bool :=
  match text.splitOn ':' with
  | [hour, minute] => isUpTo 23 hour && isUpTo 59 minute
  | _ => false

/-- Whether a text is a time with an optional offset. -/
def isTimeWithOffset (text : List Char) : Bool :=
  let time := text.takeWhile fun c => c.isDigit || c = ':' || c = '.'
  match text.drop time.length with
  | [] => isTime time
  | [c] => isTime time && (c = 'Z' || c = 'z')
  | c :: offset => isTime time && (c = '+' || c = '-') && isOffset offset

/-- Whether a text is a date, a time, or a date and a time with the letter T between them. -/
def isMoment (text : List Char) : Bool :=
  isDate text || isTime text
    || (isDate (text.take 10) && (text.drop 10).head?.any (fun c => c = 'T' || c = 't')
      && isTimeWithOffset (text.drop 11))

end PluginDiscovery.Toml
