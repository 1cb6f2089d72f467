import Pegsmith.Text.Scan
import Pegsmith.Toml.Value

set_option autoImplicit false

namespace Pegsmith.Toml

open Text (hexValue?)

def isSpaced (p : Char → Bool) : List Char → Bool
  | [] => false
  | [c] => p c
  | c :: '_' :: cs => p c && isSpaced p cs
  | c :: cs => p c && isSpaced p cs

def plain (cs : List Char) : List Char :=
  cs.filter (· != '_')

def splitSign : List Char → Bool × List Char
  | '-' :: cs => (true, cs)
  | '+' :: cs => (false, cs)
  | cs => (false, cs)

def isWhole (cs : List Char) : Bool :=
  isSpaced Char.isDigit cs && (cs.head? != some '0' || cs.length == 1)

def digitsValue (base : Nat) (cs : List Char) : Nat :=
  (plain cs).foldl (fun n c => base * n + (hexValue? c).getD 0) 0

def based? (base : Nat) (cs : List Char) : Option Nat :=
  if isSpaced (fun c => (hexValue? c).any (· < base)) cs then some (digitsValue base cs) else none

/-- The least of the integers, and the first number that is too great, are this far from zero. -/
def integerLimit : Nat := 0x8000000000000000

def integer? : List Char → Option Int
  | '0' :: 'x' :: cs => below (based? 16 cs)
  | '0' :: 'o' :: cs => below (based? 8 cs)
  | '0' :: 'b' :: cs => below (based? 2 cs)
  | cs =>
      let (negative, digits) := splitSign cs
      if !isWhole digits then none
      else
        let n := digitsValue 10 digits
        if negative then if n ≤ integerLimit then some (-n) else none
        else below (some n)
where
  below (n : Option Nat) : Option Int :=
    n.bind fun n => if n < integerLimit then some n else none

/-- Whether a decimal number is nearer to the next power of two behind the greatest 64-bit float than
to that float, or just between them. -/
def isTooGreat (digits : Nat) (exponent : Int) : Bool :=
  let limit := Nat.pow 2 1024 - Nat.pow 2 970
  let size := (Nat.toDigits 10 digits).length + exponent
  if digits = 0 || size < 300 then false
  else if 320 < size then true
  else if 0 ≤ exponent then limit ≤ digits * Nat.pow 10 exponent.toNat
  else limit * Nat.pow 10 (-exponent).toNat ≤ digits

def exponent? (cs : List Char) : Option Int :=
  let (negative, digits) := splitSign cs
  if isSpaced Char.isDigit digits then
    let n : Int := digitsValue 10 digits
    some (if negative then -n else n)
  else none

def isExponentMark (c : Char) : Bool :=
  c == 'e' || c == 'E'

def floatParts? (cs : List Char) : Option (List Char × List Char × Int) :=
  let front := cs.takeWhile fun c => c != '.' && !isExponentMark c
  if !isWhole front then none
  else
    match cs.drop front.length with
    | '.' :: rest =>
        let fraction := rest.takeWhile fun c => !isExponentMark c
        if !isSpaced Char.isDigit fraction then none
        else
          match rest.drop fraction.length with
          | [] => some (front, fraction, 0)
          | _ :: mark => (exponent? mark).map (front, fraction, ·)
    | _ :: mark => (exponent? mark).map (front, [], ·)
    | [] => none

/-- Positive numbers beyond all floats are none, and negative ones are infinite. -/
def isFloat (cs : List Char) : Bool :=
  let (negative, unsigned) := splitSign cs
  if unsigned == "inf".toList || unsigned == "nan".toList then true
  else
    match floatParts? unsigned with
    | none => false
    | some (front, fraction, exponent) =>
        let digits := digitsValue 10 (front ++ fraction)
        negative || !isTooGreat digits (exponent - (plain fraction).length)

def number? (cs : List Char) : Option Nat :=
  if !cs.isEmpty && cs.all Char.isDigit then some (digitsValue 10 cs) else none

def isLeapYear (year : Nat) : Bool :=
  year % 4 == 0 && (year % 100 != 0 || year % 400 == 0)

def daysIn (year month : Nat) : Nat :=
  if month = 2 then if isLeapYear year then 29 else 28
  else if [4, 6, 9, 11].contains month then 30
  else 31

def isDate (cs : List Char) : Bool :=
  match cs with
  | [y1, y2, y3, y4, '-', m1, m2, '-', d1, d2] =>
      match number? [y1, y2, y3, y4], number? [m1, m2], number? [d1, d2] with
      | some year, some month, some day =>
          1 ≤ month && month ≤ 12 && 1 ≤ day && day ≤ daysIn year month
      | _, _, _ => false
  | _ => false

def isUpTo (limit : Nat) (a b : Char) : Bool :=
  (number? [a, b]).any (· ≤ limit)

/-- What follows a time of day, in which the last second may be a leap second. -/
def afterTime? : List Char → Option (List Char)
  | h1 :: h2 :: ':' :: m1 :: m2 :: ':' :: s1 :: s2 :: rest =>
      if isUpTo 23 h1 h2 && isUpTo 59 m1 m2 && isUpTo 60 s1 s2 then
        match rest with
        | '.' :: d :: fraction =>
            if d.isDigit then some (fraction.dropWhile Char.isDigit) else none
        | _ => some rest
      else none
  | _ => none

def isOffset : List Char → Bool
  | ['Z'] | ['z'] => true
  | [sign, h1, h2, ':', m1, m2] =>
      (sign == '+' || sign == '-') && isUpTo 23 h1 h2 && isUpTo 59 m1 m2
  | _ => false

def isDateTime (cs : List Char) : Bool :=
  if isDate (cs.take 10) then
    match cs.drop 10 with
    | [] => true
    | mark :: time =>
        (mark == 'T' || mark == 't' || mark == ' ') &&
          (afterTime? time).any fun rest => rest.isEmpty || isOffset rest
  else afterTime? cs == some []

def scalar? (cs : List Char) : Option Value :=
  if cs == "true".toList then some (.boolean true)
  else if cs == "false".toList then some (.boolean false)
  else if isDateTime cs then some (.dateTime (String.ofList cs))
  else
    match integer? cs with
    | some n => some (.integer n)
    | none => if isFloat cs then some (.float (String.ofList cs)) else none

end Pegsmith.Toml
