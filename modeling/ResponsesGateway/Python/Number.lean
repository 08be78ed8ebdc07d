import Mathlib.Data.Int.Log
import Mathlib.Data.Rat.Floor
import Mathlib.Algebra.Order.Floor.Semiring

/-- A Python float. `finite` never holds the zero with a minus sign. -/
inductive PyFloat where
  | finite (q : ℚ)
  | negZero
  | inf (negative : Bool)
  | nan
  deriving DecidableEq

namespace PyFloat

def roundHalfEven (q : ℚ) : ℤ :=
  let n := ⌊q⌋
  if q - n < 1/2 then n
  else if 1/2 < q - n then n + 1
  else if n % 2 = 0 then n else n + 1

def ulp (q : ℚ) : ℚ := 2 ^ max (Int.log 2 |q| - 52) (-1074)

/-- The double nearest to `q`, ties to even. -/
def ofRat (q : ℚ) : PyFloat :=
  if q = 0 then finite 0
  else
    let r := roundHalfEven (q / ulp q) * ulp q
    if 2 ^ 1024 ≤ |r| then inf (q < 0)
    else if r = 0 then (if q < 0 then negZero else finite 0)
    else finite r

def toRat? : PyFloat → Option ℚ
  | finite q => some q
  | negZero => some 0
  | _ => none

def isZero (x : PyFloat) : Bool := x.toRat? == some 0

def add : PyFloat → PyFloat → PyFloat
  | nan, _ => nan
  | _, nan => nan
  | inf a, inf b => if a = b then inf a else nan
  | inf a, _ => inf a
  | _, inf b => inf b
  | negZero, negZero => negZero
  | negZero, finite q => finite q
  | finite q, negZero => finite q
  | finite p, finite q => ofRat (p + q)

def eq (x y : PyFloat) : Bool :=
  match x, y with
  | nan, _ => false
  | _, nan => false
  | inf a, inf b => a == b
  | x, y => x.toRat?.isSome && x.toRat? == y.toRat?

/-- Digits `d` and exponent `e` of the shortest decimal `d * 10 ^ e` that reads back as `q > 0`. -/
def shortest (q : ℚ) : ℕ × ℤ :=
  let candidates (n : ℕ) : List (ℕ × ℤ) :=
    let e := Int.log 10 q - n
    let lo := ⌊q / 10 ^ e⌋₊
    let near : List ℕ := if q / 10 ^ e - lo ≤ 1/2 then [lo, lo + 1] else [lo + 1, lo]
    (near.filter (fun d : ℕ => ofRat (d * 10 ^ e) == ofRat q)).map (fun d => (d, e))
  (((List.range 17).flatMap candidates).head?).getD (0, 0)

def reprPositive (q : ℚ) : String :=
  let (d, e) := shortest q
  let zeros := ((Nat.toDigits 10 d).reverse.takeWhile (· = '0')).length
  let digits := (Nat.toDigits 10 d).take ((Nat.toDigits 10 d).length - zeros)
  let point := e + zeros + digits.length
  let fraction (l : List Char) := if l = [] then ['0'] else l
  if point ≤ -4 ∨ 16 < point then
    let x := (point - 1).natAbs
    let mantissa := digits.take 1 ++ (if digits.length ≤ 1 then [] else '.' :: digits.drop 1)
    let exponent := (if x < 10 then ['0'] else []) ++ Nat.toDigits 10 x
    String.ofList (mantissa ++ ['e', if point - 1 < 0 then '-' else '+'] ++ exponent)
  else if point ≤ 0 then
    String.ofList (['0', '.'] ++ List.replicate point.natAbs '0' ++ digits)
  else
    let whole := digits.take point.natAbs
    String.ofList (whole ++ List.replicate (point.natAbs - whole.length) '0' ++
      '.' :: fraction (digits.drop point.natAbs))

def repr : PyFloat → String
  | finite q => if q = 0 then "0.0" else if q < 0 then "-" ++ reprPositive (-q) else reprPositive q
  | negZero => "-0.0"
  | inf negative => if negative then "-inf" else "inf"
  | nan => "nan"

theorem reprPositive_ne_empty (q : ℚ) : reprPositive q ≠ "" := by
  have hof (l : List Char) (hl : l ≠ []) : String.ofList l ≠ "" := by
    intro h
    exact hl (by simpa using congrArg String.toList h)
  unfold reprPositive
  dsimp only
  split
  · exact hof _ (by simp)
  · split
    · exact hof _ (by simp)
    · exact hof _ (by simp)

theorem repr_ne_empty (x : PyFloat) : x.repr ≠ "" := by
  cases x with
  | finite q =>
    simp only [repr]
    split
    · decide
    · split
      · simp
      · exact reprPositive_ne_empty q
  | negZero => decide
  | inf negative => cases negative <;> decide
  | nan => decide

end PyFloat

namespace PyInt

def decimalZeros : List ℕ :=
  [0x30, 0x660, 0x6f0, 0x7c0, 0x966, 0x9e6, 0xa66, 0xae6, 0xb66, 0xbe6, 0xc66, 0xce6, 0xd66, 0xde6,
   0xe50, 0xed0, 0xf20, 0x1040, 0x1090, 0x17e0, 0x1810, 0x1946, 0x19d0, 0x1a80, 0x1a90, 0x1b50,
   0x1bb0, 0x1c40, 0x1c50, 0xa620, 0xa8d0, 0xa900, 0xa9d0, 0xa9f0, 0xaa50, 0xabf0, 0xff10, 0x104a0,
   0x10d30, 0x11066, 0x110f0, 0x11136, 0x111d0, 0x112f0, 0x11450, 0x114d0, 0x11650, 0x116c0,
   0x11730, 0x118e0, 0x11950, 0x11c50, 0x11d50, 0x11da0, 0x16a60, 0x16ac0, 0x16b50, 0x1d7ce,
   0x1d7d8, 0x1d7e2, 0x1d7ec, 0x1d7f6, 0x1e140, 0x1e2f0, 0x1e950, 0x1fbf0]

def decimal? (c : Char) : Option ℕ :=
  (decimalZeros.find? (fun z => z ≤ c.toNat ∧ c.toNat < z + 10)).map (fun z => c.toNat - z)

/-- Whitespace that `int` skips; the ASCII separators 0x1c to 0x1f are not part of it. -/
def isSpace (c : Char) : Bool :=
  c.toNat ∈ [0x09, 0x0a, 0x0b, 0x0c, 0x0d, 0x20, 0x85, 0xa0, 0x1680, 0x2000, 0x2001, 0x2002, 0x2003,
    0x2004, 0x2005, 0x2006, 0x2007, 0x2008, 0x2009, 0x200a, 0x2028, 0x2029, 0x202f, 0x205f, 0x3000]

def digits : List Char → Option (List ℕ)
  | [] => some []
  | '_' :: c :: cs => do return (← decimal? c) :: (← digits cs)
  | c :: cs => do return (← decimal? c) :: (← digits cs)

def magnitude : List Char → Option ℕ
  | [] => none
  | c :: cs => do
      let ds := (← decimal? c) :: (← digits cs)
      if 4300 < ds.length then none else some (ds.foldl (fun n d => 10 * n + d) 0)

/-- `int(s)`; `none` is the `ValueError`. -/
def parse (s : String) : Option ℤ :=
  match ((s.toList.dropWhile isSpace).reverse.dropWhile isSpace).reverse with
  | '+' :: cs => (magnitude cs).map (fun n => (n : ℤ))
  | '-' :: cs => (magnitude cs).map (fun n => -(n : ℤ))
  | cs => (magnitude cs).map (fun n => (n : ℤ))

end PyInt
