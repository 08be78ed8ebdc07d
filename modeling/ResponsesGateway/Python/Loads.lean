import ResponsesGateway.Python.Text

namespace PyFloat

/-- `float(s)` of a numeral with the digits `d` and the exponent `e`. -/
def ofDecimal (negative : Bool) (d : ℕ) (e : ℤ) : PyFloat :=
  if d = 0 then (if negative then negZero else finite 0)
  else ofRat (if negative then -(d * 10 ^ e) else d * 10 ^ e)

end PyFloat

namespace PyInt

def maxStrDigits : ℕ := 4300

end PyInt

namespace Json

def isBlank (c : Char) : Bool := c = ' ' || c = '\t' || c = '\n' || c = '\r'

def skip (cs : List Char) : List Char := cs.dropWhile isBlank

def hexDigit? (c : Char) : Option ℕ :=
  if c.isDigit then some (c.toNat - '0'.toNat)
  else if 'a'.toNat ≤ c.toNat ∧ c.toNat ≤ 'f'.toNat then some (c.toNat - 'a'.toNat + 10)
  else if 'A'.toNat ≤ c.toNat ∧ c.toNat ≤ 'F'.toNat then some (c.toNat - 'A'.toNat + 10)
  else none

def hexUnit? (a b c d : Char) : Option ℕ := do
  return 4096 * (← hexDigit? a) + 256 * (← hexDigit? b) + 16 * (← hexDigit? c) + (← hexDigit? d)

def isHighSurrogate (n : ℕ) : Bool := 0xd800 ≤ n && n < 0xdc00

def isLowSurrogate (n : ℕ) : Bool := 0xdc00 ≤ n && n < 0xe000

def joinSurrogates (high low : ℕ) : Char := Char.ofNat (65536 + 1024 * (high - 0xd800) + (low - 0xdc00))

def unescape? (c : Char) : Option Char :=
  [('"', '"'), ('\\', '\\'), ('/', '/'), ('b', Char.ofNat 8), ('f', Char.ofNat 12), ('n', '\n'),
    ('r', '\r'), ('t', '\t')].lookup c

def push (c : Char) (r : Option (List Char × List Char)) : Option (List Char × List Char) :=
  r.map (fun (s, cs) => (c :: s, cs))

/-- What stands before the closing quote, and what follows it. A surrogate without its other half
has no code point to stand for it and is refused here. -/
def scanString : List Char → Option (List Char × List Char)
  | [] => none
  | '"' :: cs => some ([], cs)
  | '\\' :: 'u' :: a :: b :: c :: d :: cs => do
      let high ← hexUnit? a b c d
      if isHighSurrogate high then
        match cs with
        | '\\' :: 'u' :: a :: b :: c :: d :: cs => do
            let low ← hexUnit? a b c d
            if isLowSurrogate low then push (joinSurrogates high low) (scanString cs) else none
        | _ => none
      else if isLowSurrogate high then none
      else push (Char.ofNat high) (scanString cs)
  | '\\' :: c :: cs => do
      let c ← unescape? c
      push c (scanString cs)
  | c :: cs => if c.toNat < 32 then none else push c (scanString cs)

def scanWhole : List Char → Option (List Char × List Char)
  | [] => none
  | c :: cs =>
      if c = '0' then some (['0'], cs)
      else if c.isDigit then some (c :: cs.takeWhile Char.isDigit, cs.dropWhile Char.isDigit)
      else none

def scanFraction (cs : List Char) : List Char × List Char :=
  match cs with
  | '.' :: ds =>
      if ds.takeWhile Char.isDigit = [] then ([], cs)
      else (ds.takeWhile Char.isDigit, ds.dropWhile Char.isDigit)
  | _ => ([], cs)

def scanSign : List Char → Bool × List Char
  | '-' :: cs => (true, cs)
  | '+' :: cs => (false, cs)
  | cs => (false, cs)

def scanExponent (cs : List Char) : Option ℤ × List Char :=
  match cs with
  | [] => (none, cs)
  | c :: ds =>
      let (negative, ds) := scanSign ds
      let digits := ds.takeWhile Char.isDigit
      if (c = 'e' ∨ c = 'E') ∧ digits ≠ [] then
        let x : ℤ := Nat.ofDigitChars 10 digits 0
        (some (if negative then -x else x), ds.dropWhile Char.isDigit)
      else (none, cs)

def scanNumber (negative : Bool) (cs : List Char) : Option (Json × List Char) := do
  let (whole, cs) ← scanWhole cs
  let (fraction, cs) := scanFraction cs
  let (exponent, cs) := scanExponent cs
  if fraction = [] ∧ exponent = none then
    let n : ℤ := Nat.ofDigitChars 10 whole 0
    if PyInt.maxStrDigits < whole.length then none
    else return (int (if negative then -n else n), cs)
  else
    let digits := Nat.ofDigitChars 10 (whole ++ fraction) 0
    return (float (.ofDecimal negative digits (exponent.getD 0 - fraction.length)), cs)

def literals : List (List Char × Json) :=
  [("null".toList, null), ("true".toList, bool true), ("false".toList, bool false),
    ("NaN".toList, float .nan), ("Infinity".toList, float (.inf false)),
    ("-Infinity".toList, float (.inf true))]

def scanLiteral (cs : List Char) : Option (Json × List Char) :=
  literals.findSome? (fun (text, x) => (cs.dropPrefix? text).map (fun cs => (x, cs)))

def scanScalar (cs : List Char) : Option (Json × List Char) :=
  match scanLiteral cs with
  | some r => some r
  | none =>
      match cs with
      | '-' :: cs => scanNumber true cs
      | cs => scanNumber false cs

def scanKey : List Char → Option (String × List Char)
  | '"' :: cs => do
      let (k, cs) ← scanString cs
      match skip cs with
      | ':' :: cs => return (String.ofList k, skip cs)
      | _ => none
  | _ => none

mutual
/-- `scan_once`: a value and what follows it. -/
def scan : ℕ → List Char → Option (Json × List Char)
  | 0, _ => none
  | n + 1, cs =>
      match cs with
      | '"' :: cs => (scanString cs).map (fun (s, cs) => (str (String.ofList s), cs))
      | '[' :: cs =>
          match skip cs with
          | ']' :: cs => some (list [], cs)
          | cs => (scanItems n cs).map (fun (xs, cs) => (list xs, cs))
      | '\x7b' :: cs =>
          match skip cs with
          | '\x7d' :: cs => some (dict [], cs)
          | cs => (scanMembers n cs).map (fun (fs, cs) => (dict (Dict.ofEntries fs).entries, cs))
      | cs => scanScalar cs

def scanItems : ℕ → List Char → Option (List Json × List Char)
  | 0, _ => none
  | n + 1, cs => do
      let (x, cs) ← scan n cs
      match skip cs with
      | ']' :: cs => return ([x], cs)
      | ',' :: cs =>
          let (xs, cs) ← scanItems n (skip cs)
          return (x :: xs, cs)
      | _ => none

def scanMembers : ℕ → List Char → Option (List (String × Json) × List Char)
  | 0, _ => none
  | n + 1, cs => do
      let (k, cs) ← scanKey cs
      let (v, cs) ← scan n cs
      match skip cs with
      | '\x7d' :: cs => return ([(k, v)], cs)
      | ',' :: cs =>
          let (fs, cs) ← scanMembers n (skip cs)
          return ((k, v) :: fs, cs)
      | _ => none
end

/-- `json.loads(s)`; the `ValueError` is a `JSONDecodeError`, or an int with too many digits. -/
def loads (s : String) : Except PyError Json :=
  match scan (2 * s.length + 1) (skip s.toList) with
  | some (x, cs) => if skip cs = [] then .ok x else .error .valueError
  | none => .error .valueError

def loadsBytes (b : ByteArray) : Except PyError Json :=
  match String.fromUTF8? b with
  | some s => loads s
  | none => .error .valueError

end Json
