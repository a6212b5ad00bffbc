set_option autoImplicit false

/-!
# Decimal: the fewest digits that read back

A double is written with the fewest decimal digits that identify it.  The value is decoded exactly
into `m * 2 ^ q`; the reals that round to it form an interval, whose ends belong to it when `m` is
even; and the grids of one, two, ... seventeen digits are searched in exact arithmetic for a point
of that interval.
-/

namespace AdhocReport.Decimal

/-- The magnitude of a finite double, `m * 2 ^ q`. -/
structure Binary where
  m : Nat
  q : Int
  /-- The gap to the value below is half the gap to the value above. -/
  narrowBelow : Bool
  deriving DecidableEq, Repr

/-- Decode the bits of a finite double; the sign is dropped. -/
def Binary.ofBits (bits : UInt64) : Binary :=
  let e := ((bits >>> 52) &&& 0x7FF).toNat
  let f := (bits &&& 0xFFFFFFFFFFFFF).toNat
  if e == 0 then ⟨f, -1074, false⟩ else ⟨0x10000000000000 + f, (e : Int) - 1075, f == 0 && e > 1⟩

/-- The decimal number `digits * 10 ^ exp`. -/
structure Digits where
  digits : Nat
  exp : Int
  deriving DecidableEq, Repr

/-- Compare `a * 10 ^ i` with `n * 2 ^ j` exactly. -/
def compareScaled (a : Nat) (i : Int) (n : Nat) (j : Int) : Ordering :=
  compare (a * Nat.pow 10 i.toNat * Nat.pow 2 (-j).toNat) (n * Nat.pow 2 j.toNat * Nat.pow 10 (-i).toNat)

/-- The decimal number is one of the reals that round to `x`. -/
def Binary.readsBack (x : Binary) (d : Digits) : Bool :=
  let low := if x.narrowBelow then 4 * x.m - 1 else 4 * x.m - 2
  let high := 4 * x.m + 2
  let closed := x.m % 2 == 0
  let atLow := compareScaled d.digits d.exp low (x.q - 2)
  let atHigh := compareScaled d.digits d.exp high (x.q - 2)
  (atLow == .gt || (closed && atLow == .eq)) && (atHigh == .lt || (closed && atHigh == .eq))

/-- The value divided by `10 ^ e`, as a numerator and a denominator. -/
def Binary.over (x : Binary) (e : Int) : Nat × Nat :=
  (x.m * Nat.pow 2 x.q.toNat * Nat.pow 10 (-e).toNat, Nat.pow 2 (-x.q).toNat * Nat.pow 10 e.toNat)

/-- The number of decimal digits before the point, counted negatively for leading zeros after it:
the least `k` with `m * 2 ^ q < 10 ^ k`, found upwards from a start that is too low. -/
def Binary.scaleFrom (x : Binary) : Nat → Int → Int
  | 0, k => k
  | fuel + 1, k => if compareScaled 1 k x.m x.q == .gt then k else x.scaleFrom fuel (k + 1)

/-- The least `k` with `m * 2 ^ q < 10 ^ k`. -/
def Binary.scale (x : Binary) : Int :=
  let bits : Int := x.m.log2 + x.q
  x.scaleFrom 8 (bits * 30103 / 100000 - 2)

/-- The point of the grid `10 ^ e` that reads back, the nearer one if both neighbours do. -/
def Binary.onGrid (x : Binary) (e : Int) : Option Digits :=
  let (num, den) := x.over e
  let below := num / den
  let low : Digits := ⟨below, e⟩
  let high : Digits := ⟨below + 1, e⟩
  match x.readsBack low, x.readsBack high with
  | true, false => some low
  | false, true => some high
  | false, false => none
  | true, true =>
    match compare (2 * num) ((2 * below + 1) * den) with
    | .lt => some low
    | .gt => some high
    | .eq => some (if below % 2 == 0 then low else high)

/-- Move trailing zeros of the digits into the exponent. -/
def Digits.strip : Nat → Digits → Digits
  | 0, d => d
  | fuel + 1, d =>
    if d.digits != 0 && d.digits % 10 == 0 then Digits.strip fuel ⟨d.digits / 10, d.exp + 1⟩ else d

/-- The exact decimal value of `m * 2 ^ q`. -/
def Binary.exact (x : Binary) : Digits :=
  if 0 ≤ x.q then ⟨x.m * Nat.pow 2 x.q.toNat, 0⟩ else ⟨x.m * Nat.pow 5 (-x.q).toNat, x.q⟩

/-- The shortest decimal that reads back as the value. -/
def Binary.shortest (x : Binary) : Digits :=
  if x.m == 0 then ⟨0, 0⟩
  else
    let k := x.scale
    (((List.range 17).findSome? fun (n : Nat) => x.onGrid (k - (n + 1 : Nat))).getD x.exact).strip 800

end AdhocReport.Decimal
