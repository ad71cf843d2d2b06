import MiniShell.Calendar
import MiniShell.Toml.Digits
import MiniShell.Toml.Scan
import MiniShell.Toml.Value

/-!
# Numbers, booleans and moments

A value that is neither quoted nor bracketed is a run of letters, digits and a few signs, and is
classified as a whole. Only a date may go on behind a space, with the time of day.
-/

namespace MiniShell.Toml

def isScalarChar (c : Char) : Bool :=
  c.isAlphanum || c == '_' || c == '+' || c == '-' || c == '.' || c == ':'

/-! ## Numbers -/

/-- The digits of a number, when single underscores stand only between two of them. -/
def ungroup? (isDigit : Char → Bool) (cs : List Char) : Option (List Char) :=
  let groups := cs.splitOn '_'
  if groups.all fun group => !group.isEmpty && group.all isDigit then some groups.flatten else none

/-- The digits of a decimal integer without a sign; zeros in front are refused. -/
def decimal? (cs : List Char) : Option (List Char) :=
  match ungroup? Char.isDigit cs with
  | some ('0' :: _ :: _) => none
  | digits? => digits?

def splitSign : List Char → Bool × List Char
  | '-' :: cs => (true, cs)
  | '+' :: cs => (false, cs)
  | cs => (false, cs)

def bounded? (n : Int) : Option Int :=
  if -0x8000000000000000 ≤ n ∧ n < 0x8000000000000000 then some n else none

/-- An integer written to a base other than ten, `bounded?` like the others. -/
def radix? (base : Nat) (cs : List Char) : Option Int := do
  let digits ← ungroup? (fun c => (digit? base c).isSome) cs
  let n ← ofDigits? base digits
  bounded? n

/-- An integer: decimal with a sign, or hexadecimal, octal or binary without one. -/
def integer? : List Char → Option Int
  | '0' :: 'x' :: cs => radix? 16 cs
  | '0' :: 'o' :: cs => radix? 8 cs
  | '0' :: 'b' :: cs => radix? 2 cs
  | cs => do
    let (negative, magnitude) := splitSign cs
    let n := ofDecimal (← decimal? magnitude)
    bounded? (if negative then -n else n)

/-- Does the decimal `digits · 10 ^ exponent` round to infinity in 64 bits? A number of 310 or
more places before the point does and one of 308 does not; between these its size decides. -/
def overflows (digits : List Char) (exponent : Int) : Bool :=
  let significant := digits.dropWhile (· == '0')
  let places := significant.length + exponent
  if significant.isEmpty ∨ places ≤ 308 then false
  else if 310 ≤ places then true
  else
    -- half a unit in the last place above the largest finite number
    let bound := Nat.pow 2 1024 - Nat.pow 2 970
    if 0 ≤ exponent then bound ≤ ofDecimal significant * Nat.pow 10 exponent.toNat
    else bound * Nat.pow 10 (-exponent).toNat ≤ ofDecimal significant

/-- The part of a number after its exponent mark. -/
def exponent? (cs : List Char) : Option Int := do
  let (negative, magnitude) := splitSign cs
  let n := ofDecimal (← ungroup? Char.isDigit magnitude)
  pure (if negative then -n else n)

/-- Is this the spelling of a number with a fraction, an exponent or both? A positive number that
`overflows` is refused, a negative one is not. -/
def isFloat (cs : List Char) : Bool :=
  let (negative, magnitude) := splitSign cs
  if magnitude = ['i', 'n', 'f'] ∨ magnitude = ['n', 'a', 'n'] then true
  else
    let mantissa := magnitude.takeWhile fun c => c != 'e' && c != 'E'
    let afterMantissa := magnitude.drop mantissa.length
    let whole := mantissa.takeWhile (· != '.')
    let afterWhole := mantissa.drop whole.length
    let fraction? := if afterWhole.isEmpty then some [] else ungroup? Char.isDigit afterWhole.tail
    let power? := if afterMantissa.isEmpty then some 0 else exponent? afterMantissa.tail
    match decimal? whole, fraction?, power? with
    | some digits, some fraction, some power =>
      !(afterWhole.isEmpty && afterMantissa.isEmpty)
        && (negative || !overflows (digits ++ fraction) (power - fraction.length))
    | _, _, _ => false

/-! ## Moments -/

def pair? (a b : Char) : Option Nat :=
  if a.isDigit && b.isDigit then some (ofDecimal [a, b]) else none

def pairWithin (low high : Nat) (a b : Char) : Bool :=
  (pair? a b).any fun n => low ≤ n && n ≤ high

/-- Is this a day of the calendar, as `1979-05-27`? -/
def isDate : List Char → Bool
  | [y₁, y₂, y₃, y₄, '-', m₁, m₂, '-', d₁, d₂] =>
    let year := [y₁, y₂, y₃, y₄]
    year.all Char.isDigit && pairWithin 1 12 m₁ m₂
      && pairWithin 1 (Calendar.daysInMonth (ofDecimal year) (ofDecimal [m₁, m₂])) d₁ d₂
  | _ => false

/-- What follows a time of day such as `07:32:00` or `07:32:00.5`. -/
def afterTime? : List Char → Option (List Char)
  | h₁ :: h₂ :: ':' :: m₁ :: m₂ :: ':' :: s₁ :: s₂ :: rest =>
    if pairWithin 0 23 h₁ h₂ && pairWithin 0 59 m₁ m₂ && pairWithin 0 60 s₁ s₂ then
      match rest with
      | '.' :: fraction =>
        if (fraction.takeWhile Char.isDigit).isEmpty then none
        else some (fraction.dropWhile Char.isDigit)
      | _ => some rest
    else none
  | _ => none

/-- Is this the distance from universal time, or nothing? -/
def isOffset : List Char → Bool
  | [] | ['Z'] | ['z'] => true
  | [sign, h₁, h₂, ':', m₁, m₂] =>
    (sign == '+' || sign == '-') && pairWithin 0 23 h₁ h₂ && pairWithin 0 59 m₁ m₂
  | _ => false

def isTime (cs : List Char) : Bool :=
  afterTime? cs == some []

/-- Is this a time of day, as `isOffset` lets it follow a date? -/
def isTimeOfDate (cs : List Char) : Bool :=
  (afterTime? cs).any isOffset

def isDateTime (cs : List Char) : Bool :=
  match cs.drop 10 with
  | separator :: time =>
    (separator == 'T' || separator == 't') && isDate (cs.take 10) && isTimeOfDate time
  | [] => false

/-! ## All together -/

/-- The value that a run of characters spells: a truth value, a moment, an `integer?` or a number
that `isFloat`. -/
def scalar? (cs : List Char) : Option Value :=
  if cs = ['t', 'r', 'u', 'e'] then some (.boolean true)
  else if cs = ['f', 'a', 'l', 's', 'e'] then some (.boolean false)
  else if isDate cs || isTime cs || isDateTime cs then some (.moment (String.ofList cs))
  else
    match integer? cs with
    | some n => some (.integer n)
    | none => if isFloat cs then some (.float (String.ofList cs)) else none

/-- The rest of a moment whose date was read: a space and what `isTimeOfDate` takes. -/
def Scan.timeOfDate : Scan (List Char) := do
  Scan.char ' '
  let time ← Scan.run₁ isScalarChar
  if isTimeOfDate time then pure (' ' :: time) else failure

/-- A value without quotes or brackets. A moment with a space in it is two runs of `isScalarChar`.
-/
def Scan.scalar : Scan Value := do
  let cs ← Scan.run₁ isScalarChar
  if isDate cs then
    let time ← Scan.optional Scan.timeOfDate
    pure (.moment (String.ofList (cs ++ time.getD [])))
  else
    match scalar? cs with
    | some value => pure value
    | none => failure

end MiniShell.Toml
