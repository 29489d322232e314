/-!
# The curve secp256k1

Points satisfy `y ^ 2 = x ^ 3 + 7` over the integers modulo a prime, and together with a point at
infinity they form a group of prime order. Sums are computed in Jacobian coordinates: the triple
`(x, y, z)` with `z ≠ 0` stands for the point `(x / z ^ 2, y / z ^ 3)`, and `z = 0` for infinity, so
no division is needed until the end.
-/

namespace Admission.Crypto.Secp256k1

/-! ## Arithmetic modulo a number -/

/-- The prime that coordinates are taken modulo. -/
def fieldPrime : Nat :=
  0xFFFFFFFFFFFFFFFFFFFFFFFFFFFFFFFFFFFFFFFFFFFFFFFFFFFFFFFEFFFFFC2F

/-- The order of the group, a prime too. -/
def order : Nat :=
  0xFFFFFFFFFFFFFFFFFFFFFFFFFFFFFFFEBAAEDCE6AF48A03BBFD25E8CD0364141

/-- The power of a number modulo another, by squaring; the exponent has at most `width` bits. -/
def powerMod (modulus : Nat) : Nat → Nat → Nat → Nat
  | 0, _, _ => 1 % modulus
  | width + 1, base, exponent =>
    let root := powerMod modulus width base (exponent / 2)
    let square := root * root % modulus
    if exponent % 2 = 1 then square * base % modulus else square

/-- The inverse of a number modulo a prime of 256 bits; zero for zero. -/
def inverse (prime a : Nat) : Nat :=
  powerMod prime 256 a (prime - 2)

/-- The product of two coordinates. -/
def mul (a b : Nat) : Nat := a * b % fieldPrime

/-- The difference of two coordinates. -/
def sub (a b : Nat) : Nat := (a + (fieldPrime - b)) % fieldPrime

/-! ## Points -/

/-- A point in Jacobian coordinates, each below the field prime. -/
structure Point where
  (x y z : Nat)
deriving DecidableEq, Repr

namespace Point

/-- The neutral point. -/
def infinity : Point := ⟨1, 1, 0⟩

/-- The generator of the group. -/
def generator : Point :=
  ⟨0x79BE667EF9DCBBAC55A06295CE870B07029BFCDB2DCE28D959F2815B16F81798,
    0x483ADA7726A3C4655DA4FBFC0E1108A8FD17B448A68554199C47D08FFB10D4B8, 1⟩

/-- The point added to itself. -/
def double (p : Point) : Point :=
  if p.z = 0 then infinity
  else
    let a := mul p.x p.x
    let b := mul p.y p.y
    let c := mul b b
    let d := mul 4 (mul p.x b)
    let e := mul 3 a
    let x := sub (mul e e) (mul 2 d)
    ⟨x, sub (mul e (sub d x)) (mul 8 c), mul 2 (mul p.y p.z)⟩

/-- The sum of two points. -/
def add (p q : Point) : Point :=
  if p.z = 0 then q
  else if q.z = 0 then p
  else
    let pz := mul p.z p.z
    let qz := mul q.z q.z
    let px := mul p.x qz
    let qx := mul q.x pz
    let py := mul p.y (mul q.z qz)
    let qy := mul q.y (mul p.z pz)
    let h := sub qx px
    let r := sub qy py
    -- Points with one first coordinate are the same or opposite.
    if h = 0 then if r = 0 then double p else infinity
    else
      let hh := mul h h
      let hhh := mul h hh
      let v := mul px hh
      let x := sub (sub (mul r r) hhh) (mul 2 v)
      ⟨x, sub (mul r (sub v x)) (mul py hhh), mul h (mul p.z q.z)⟩

/-- The multiple of a point by a factor of at most `width` bits. -/
def multiple : Nat → Nat → Point → Point
  | 0, _, _ => infinity
  | width + 1, factor, p =>
    let twice := double (multiple width (factor / 2) p)
    if factor % 2 = 1 then add twice p else twice

/-- The multiple of a point by a factor of at most 256 bits. -/
def times (factor : Nat) (p : Point) : Point :=
  multiple 256 factor p

/-- The coordinates of a point that is not infinity. -/
def affine? (p : Point) : Option (Nat × Nat) :=
  if p.z = 0 then none
  else
    let i := inverse fieldPrime p.z
    let ii := mul i i
    some (mul p.x ii, mul p.y (mul ii i))

/-- The point with the given first coordinate and parity of the second, if there is one. A square
root modulo the field prime is a power, because the prime leaves 3 modulo 4. -/
def ofX? (x : Nat) (odd : Bool) : Option Point :=
  if fieldPrime ≤ x then none
  else
    let square := (mul x (mul x x) + 7) % fieldPrime
    -- Where `square` has no root, the power is a root of its opposite.
    let root := powerMod fieldPrime 256 square ((fieldPrime + 1) / 4)
    if mul root root ≠ square then none
    else
      let y := if (root % 2 == 1) == odd then root else sub 0 root
      some ⟨x, y, 1⟩

end Point

/-- The generator lies on the curve. -/
theorem generator_on_curve :
    mul Point.generator.y Point.generator.y
      = (mul Point.generator.x (mul Point.generator.x Point.generator.x) + 7) % fieldPrime := by
  decide

end Admission.Crypto.Secp256k1
