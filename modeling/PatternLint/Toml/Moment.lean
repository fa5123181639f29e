import PatternLint.Toml.Number

/-!
This module reads the dates and times in TOML documents. A day has to be one of its month.
-/

namespace PatternLint.Toml

def readFixed (count : Nat) : Reader Nat := fun cs =>
  let ds := cs.take count
  if ds.length = count ∧ ds.all Char.isDigit then
    some (valueOfDigits 10 ds, cs.drop count)
  else
    none

def readBounded (low high : Nat) : Reader Nat := fun cs => do
  let (n, rest) ← readFixed 2 cs
  if low ≤ n ∧ n ≤ high then some (n, rest) else none

def readMark (mark : Char) : Reader Unit
  | c :: cs => if c = mark then some ((), cs) else none
  | [] => none

def isLeapYear (year : Nat) : Bool :=
  year % 4 == 0 && (year % 100 != 0 || year % 400 == 0)

def daysOfMonth (year month : Nat) : Nat :=
  match month with
  | 2 => if isLeapYear year then 29 else 28
  | 4 | 6 | 9 | 11 => 30
  | _ => 31

def startsDate (cs : List Char) : Bool :=
  match readFixed 4 cs with
  | some (_, '-' :: _) => true
  | _ => false

def startsTime (cs : List Char) : Bool :=
  match readBounded 0 23 cs with
  | some (_, ':' :: _) => true
  | _ => false

def readDate : Reader Unit := fun cs => do
  let (year, cs) ← readFixed 4 cs
  let (_, cs) ← readMark '-' cs
  let (month, cs) ← readBounded 1 12 cs
  let (_, cs) ← readMark '-' cs
  let (_, cs) ← readBounded 1 (daysOfMonth year month) cs
  return ((), cs)

def dropFraction : List Char → List Char
  | '.' :: c :: cs => if c.isDigit then cs.dropWhile Char.isDigit else '.' :: c :: cs
  | cs => cs

def readClock : Reader Unit := fun cs => do
  let (_, cs) ← readBounded 0 23 cs
  let (_, cs) ← readMark ':' cs
  let (_, cs) ← readBounded 0 59 cs
  return ((), cs)

def readTime : Reader Unit := fun cs => do
  let (_, cs) ← readClock cs
  let (_, cs) ← readMark ':' cs
  -- a minute may have a leap second
  let (_, cs) ← readBounded 0 60 cs
  return ((), dropFraction cs)

def readOffset : Reader Unit
  | 'Z' :: cs | 'z' :: cs => some ((), cs)
  | '+' :: cs | '-' :: cs => readClock cs
  | cs => some ((), cs)

def readTimeOfDate : Reader Unit
  | c :: cs =>
    if (c == 'T' || c == 't' || c == ' ') && startsTime cs then do
      let (_, cs) ← readTime cs
      readOffset cs
    else
      some ((), c :: cs)
  | [] => some ((), [])

def readMoment : Reader Value := fun cs => do
  let (_, rest) ←
    if startsDate cs then do
      let (_, rest) ← readDate cs
      readTimeOfDate rest
    else
      readTime cs
  return (.moment (String.ofList (cs.take (cs.length - rest.length))), rest)

def readMomentOrNumber : Reader Value := fun cs =>
  if startsDate cs || startsTime cs then readMoment cs else readNumber cs

end PatternLint.Toml
