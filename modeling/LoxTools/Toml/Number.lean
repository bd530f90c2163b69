import LoxTools.Toml.Value
import LoxTools.Toml.Trivia
import LoxTools.Toml.Text

/-!
# TOML numbers and dates

Whole numbers are written in decimal with an optional sign, or in base sixteen, eight or two
behind a mark, and must fit into 64 bits with a sign. Floats have a fraction or an exponent,
or are an infinity or not-a-number; one that is too large for a finite value is refused
unless it is negative. Underscores may stand between digits. Dates and times are checked
against the calendar and the clock.
-/

namespace LoxTools.Toml

/-! ## Digits -/

/-- A decimal digit. -/
def isDecimalDigit (c : Char) : Bool :=
  '0' ≤ c && c ≤ '9'

/-- Digits of a kind with single underscores between them, behind the first one. -/
def moreDigits (isDigit : Char → Bool) : List Char → List Char × List Char
  | [] => ([], [])
  | '_' :: d :: rest =>
    if isDigit d then
      let (digits, rest) := moreDigits isDigit rest
      (d :: digits, rest)
    else ([], '_' :: d :: rest)
  | d :: rest =>
    if isDigit d then
      let (digits, rest) := moreDigits isDigit rest
      (d :: digits, rest)
    else ([], d :: rest)

/-- One or more digits of a kind. -/
def digits? (isDigit : Char → Bool) : Reader (List Char)
  | d :: rest =>
    if isDigit d then
      let (digits, rest) := moreDigits isDigit rest
      some (d :: digits, rest)
    else none
  | [] => none

/-- The value of some digits in a base. -/
def digitsValue (base : Nat) (digits : List Char) : Nat :=
  digits.foldl (fun value c => base * value + (hexValue? c).getD 0) 0

/-- Whether a number is negative, from its optional sign. -/
def sign : List Char → Bool × List Char
  | '-' :: rest => (true, rest)
  | '+' :: rest => (false, rest)
  | cs => (false, cs)

/-! ## Numbers -/

/-- The whole part of a decimal number: no zero before other digits. -/
def wholePart? : Reader (List Char)
  | '0' :: rest => some (['0'], rest)
  | cs => digits? isDecimalDigit cs

/-- A whole number, if it fits into 64 bits with a sign. -/
def bounded? (n : Int) : Option Value :=
  if Int64.minValue.toInt ≤ n ∧ n ≤ Int64.maxValue.toInt then some (.integer n) else none

/-- Whether `digits · 10 ^ exponent` is nearer to `2 ^ 1024` than to the largest finite
binary64 number, or beyond it. -/
def overflows (digits : Nat) (exponent : Int) : Bool :=
  let size : Int := (Nat.toDigits 10 digits).length + exponent
  if digits = 0 ∨ size < 300 then false
  else if 320 < size then true
  else
    (Nat.pow 2 1024 - Nat.pow 2 970) * Nat.pow 10 (-exponent).toNat ≤
      digits * Nat.pow 10 exponent.toNat

/-- The exponent of a float, or zero if there is none. -/
def exponent? : Reader Int
  | c :: rest =>
    if c = 'e' ∨ c = 'E' then do
      let (negative, rest) := sign rest
      let (digits, rest) ← digits? isDecimalDigit rest
      let n : Int := digitsValue 10 digits
      some (if negative then -n else n, rest)
    else some (0, c :: rest)
  | [] => some (0, [])

/-- A decimal number behind its sign: a float if a fraction or an exponent follows the
whole part. -/
def decimal? (negative : Bool) (cs : List Char) : Option (Value × List Char) := do
  let (whole, rest) ← wholePart? cs
  let (fraction, behindFraction) ← match rest with
    | '.' :: behind => digits? isDecimalDigit behind
    | _ => some ([], rest)
  let (exponent, behind) ← exponent? behindFraction
  if behind.length = rest.length then
    let n : Int := digitsValue 10 whole
    let value ← bounded? (if negative then -n else n)
    some (value, rest)
  else if !negative && overflows (digitsValue 10 (whole ++ fraction)) (exponent - fraction.length) then
    none
  else
    some (.float (String.ofList (cs.take (cs.length - behind.length))), behind)

/-- A whole number in another base, behind its mark. -/
def radix? (base : Nat) (cs : List Char) : Option (Value × List Char) := do
  let isDigit := fun c => match hexValue? c with
    | some value => decide (value < base)
    | none => false
  let (digits, rest) ← digits? isDigit cs
  let value ← bounded? (digitsValue base digits)
  some (value, rest)

/-- A number of any form. -/
def number? (cs : List Char) : Option (Value × List Char) :=
  match cs with
  | '0' :: 'x' :: rest => radix? 16 rest
  | '0' :: 'o' :: rest => radix? 8 rest
  | '0' :: 'b' :: rest => radix? 2 rest
  | _ =>
    let (negative, behind) := sign cs
    match behind with
    | 'i' :: 'n' :: 'f' :: rest => some (.float "inf", rest)
    | 'n' :: 'a' :: 'n' :: rest => some (.float "nan", rest)
    | _ => decimal? negative behind

/-! ## Dates and times -/

/-- A number of exactly `count` digits between two bounds, behind `soFar`. -/
def fixedDigits? (least most : Nat) : Nat → Nat → Reader Nat
  | soFar, 0, cs => if least ≤ soFar ∧ soFar ≤ most then some (soFar, cs) else none
  | soFar, count + 1, d :: rest =>
    if isDecimalDigit d then
      fixedDigits? least most (10 * soFar + (d.toNat - '0'.toNat)) count rest
    else none
  | _, _ + 1, [] => none

/-- A given character at the front. -/
def expect? (c : Char) : List Char → Option (List Char)
  | d :: rest => if d = c then some rest else none
  | [] => none

/-- How many days a month has. -/
def daysIn (year month : Nat) : Nat :=
  if month = 2 then
    if year % 4 = 0 ∧ (year % 100 ≠ 0 ∨ year % 400 = 0) then 29 else 28
  else if month = 4 ∨ month = 6 ∨ month = 9 ∨ month = 11 then 30
  else 31

/-- Past a calendar date. -/
def date? (cs : List Char) : Option (List Char) := do
  let (year, rest) ← fixedDigits? 0 9999 0 4 cs
  let rest ← expect? '-' rest
  let (month, rest) ← fixedDigits? 1 12 0 2 rest
  let rest ← expect? '-' rest
  let (_, rest) ← fixedDigits? 1 (daysIn year month) 0 2 rest
  some rest

/-- Past the fraction of a second, if there is one. -/
def secondFraction? : List Char → Option (List Char)
  | '.' :: d :: rest => if isDecimalDigit d then some (rest.dropWhile isDecimalDigit) else none
  | '.' :: [] => none
  | cs => some cs

/-- Past a time of day. -/
def time? (cs : List Char) : Option (List Char) := do
  let (_, rest) ← fixedDigits? 0 23 0 2 cs
  let rest ← expect? ':' rest
  let (_, rest) ← fixedDigits? 0 59 0 2 rest
  let rest ← expect? ':' rest
  let (_, rest) ← fixedDigits? 0 60 0 2 rest
  secondFraction? rest

/-- Past the distance from universal time, if there is one. -/
def offset? : List Char → Option (List Char)
  | 'Z' :: rest => some rest
  | 'z' :: rest => some rest
  | c :: rest =>
    if c = '+' ∨ c = '-' then do
      let (_, rest) ← fixedDigits? 0 23 0 2 rest
      let rest ← expect? ':' rest
      let (_, rest) ← fixedDigits? 0 59 0 2 rest
      some rest
    else some (c :: rest)
  | [] => some []

/-- Past the time of a date and its offset, if a time follows. -/
def timeOfDate? (cs : List Char) : Option (List Char) :=
  match cs with
  | c :: rest =>
    if c = 'T' ∨ c = 't' ∨ c = ' ' then
      match time? rest with
      | some rest => offset? rest
      | none => some cs
    else some cs
  | [] => some []

/-- A date, a time, or a date with a time. -/
def datetime? (cs : List Char) : Option (Value × List Char) := do
  let rest ← match date? cs with
    | some rest => timeOfDate? rest
    | none => time? cs
  some (.datetime (String.ofList (cs.take (cs.length - rest.length))), rest)

/-- **A number or a date.** What starts like a date is one. -/
def numberOrDate? (cs : List Char) : Option (Value × List Char) :=
  match datetime? cs with
  | some result => some result
  | none => number? cs

end LoxTools.Toml
