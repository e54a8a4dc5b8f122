import Orchestra.Fault
import Orchestra.Text.Digit
import Orchestra.Text.Space

/-!
# Orchestra.Number.Reading — whole numbers out of texts and values

A text may have blanks around the number, a sign, digits of any script, and single underscores between digits.  A number
with a point is cut toward zero, and a truth value counts as one or zero.
-/

namespace Orchestra

namespace Text

/-- A character as number reading sees it: digits and blanks of other scripts become plain ones, the rest is foreign. -/
def plainForm (c : Char) : Char :=
  if c.toNat < 128 then c
  else if isSpace c then ' '
  else match digit? c with
    | some d => Char.ofNat (48 + d)
    | none => '?'

/-- The blanks that may stand around a number. -/
def isMargin (c : Char) : Bool := c == ' ' || (9 ≤ c.toNat && c.toNat ≤ 13)

/-- The digits of a run in which single underscores may separate them, and what follows the run. -/
def digitRun : List Char → Option (List Char × List Char)
  | [] => some ([], [])
  | '_' :: c :: rest => if c.isDigit then (digitRun rest).map fun (ds, after) => (c :: ds, after) else none
  | ['_'] => none
  | c :: rest =>
    if c.isDigit then (digitRun rest).map fun (ds, after) => (c :: ds, after) else some ([], c :: rest)

/-- The digits of an unsigned number with nothing but blanks after it. -/
def unsigned (given : String) (cs : List Char) : Except Fault Nat :=
  match cs with
  | c :: _ =>
    if c.isDigit then
      match digitRun cs with
      | none => .error (.notWhole given)
      | some (ds, after) =>
        if Number.digitLimit < ds.length then .error (.tooManyDigits ds.length)
        else if after.all isMargin then .ok (natOfDigits ds)
        else .error (.notWhole given)
    else .error (.notWhole given)
  | [] => .error (.notWhole given)

/-- The whole number that a text holds. -/
def wholeNumber (s : String) : Except Fault Int :=
  match (s.toList.map plainForm).dropWhile isMargin with
  | '-' :: rest => (unsigned s rest).map fun n => -(n : Int)
  | '+' :: rest => (unsigned s rest).map fun n => (n : Int)
  | cs => (unsigned s cs).map fun n => (n : Int)

end Text

namespace Binary64

/-- Cuts a text at the first character of a kind; that character is dropped. -/
def cut (p : Char → Bool) (cs : List Char) : List Char × List Char :=
  (cs.takeWhile (!p ·), (cs.dropWhile (!p ·)).drop 1)

/-- The sign of a number and what follows it. -/
def sign : List Char → Bool × List Char
  | '-' :: rest => (true, rest)
  | '+' :: rest => (false, rest)
  | cs => (false, cs)

/-- The number that a decimal text stands for, rounded to the format. -/
def ofText (s : String) : Binary64 :=
  let (negative, cs) := sign s.toList
  if cs == "nan".toList then nan
  else if cs == "inf".toList then infinite negative
  else
    let (number, power) := cut (fun c => c == 'e' || c == 'E') cs
    let (whole, fraction) := cut (· == '.') number
    let (down, power) := sign power
    let p : Int := Text.natOfDigits power
    ofDecimal negative (Text.natOfDigits (whole ++ fraction)) ((if down then -p else p) - fraction.length)

end Binary64

namespace Number

def toWhole : Number → Except Fault Int
  | int n => .ok n
  | real x =>
    match x.truncate?, x with
    | some n, _ => .ok n
    | none, .nan => .error .wholeOfNan
    | none, _ => .error .wholeOfInfinity

end Number

namespace Value

def toWhole : Value → Except Fault Int
  | null => .error (.notNumeric "NoneType")
  | bool b => .ok (if b then 1 else 0)
  | number n => n.toWhole
  | text s => Text.wholeNumber s
  | list _ => .error (.notNumeric "list")
  | object _ => .error (.notNumeric "dict")

end Value

end Orchestra
