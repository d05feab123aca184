import KeySearch.Sha512

/-!
# Ed25519 public keys

The public key of a seed: the seed's digest gives a scalar, the scalar multiplies the base point of
the twisted Edwards curve `-x² + y² = 1 + d x² y²` over the field of `2^255 - 19` elements, and the
product is written as its `y` with the parity of its `x` in the top bit.
-/

set_option autoImplicit false

namespace KeySearch.Ed25519

/-- The number of elements of the field. -/
def fieldSize : Nat := Nat.pow 2 255 - 19

/-- The curve's coefficient, `-121665 / 121666` in the field. -/
def coefficient : Nat :=
  0x52036cee2b6ffe738cc740797779e89800700a4d4141d8ab75eb4dca135978a3

/-- `base ^ exponent` modulo `modulus`, by repeated squaring. -/
def powMod (base exponent modulus : Nat) : Nat :=
  if h : exponent = 0 then 1 % modulus
  else
    let half := powMod (base * base % modulus) (exponent / 2) modulus
    if exponent % 2 = 1 then half * base % modulus else half
termination_by exponent
decreasing_by exact Nat.div_lt_self (Nat.pos_of_ne_zero h) (by decide)

/-- The inverse in the field of a number that is not a multiple of its size. -/
def inverse (x : Nat) : Nat := powMod x (fieldSize - 2) fieldSize

/-- The difference of two reduced field elements, before reduction. -/
def difference (x y : Nat) : Nat := x + fieldSize - y

/-- A point `(x / z, y / z)` with `t = x y / z`, all four reduced field elements. -/
structure Point where
  x : Nat
  y : Nat
  z : Nat
  t : Nat

/-- The neutral point. -/
def Point.zero : Point := ⟨0, 1, 1, 0⟩

/-- The base point. -/
def Point.base : Point :=
  let x := 0x216936d3cd6e53fec0a4e231fdd6dc5c692cc7609525a7b2c9562d608f25d51a
  let y := 0x6666666666666666666666666666666666666666666666666666666666666658
  ⟨x, y, 1, x * y % fieldSize⟩

/-- The sum of two points, by formulas that hold for every pair. -/
def Point.add (p q : Point) : Point :=
  let a := difference p.y p.x * difference q.y q.x % fieldSize
  let b := (p.y + p.x) * (q.y + q.x) % fieldSize
  let c := p.t * 2 * coefficient % fieldSize * q.t % fieldSize
  let d := p.z * 2 * q.z % fieldSize
  let e := difference b a
  let f := difference d c
  let g := d + c
  let h := b + a
  ⟨e * f % fieldSize, g * h % fieldSize, f * g % fieldSize, e * h % fieldSize⟩

/-- A point added to itself. -/
def Point.double (p : Point) : Point :=
  let a := p.x * p.x % fieldSize
  let b := p.y * p.y % fieldSize
  let c := 2 * (p.z * p.z) % fieldSize
  let h := a + b
  let e := difference (h % fieldSize) ((p.x + p.y) * (p.x + p.y) % fieldSize)
  let g := difference a b
  let f := c + g
  ⟨e * f % fieldSize, g * h % fieldSize, f * g % fieldSize, e * h % fieldSize⟩

/-- The point multiplied by the number whose last `width` bits are those of `scalar`. -/
def Point.scale (p : Point) (scalar : Nat) (width : Nat) : Point :=
  (List.range width).foldl
    (fun sum i =>
      let sum := sum.double
      if scalar.testBit (width - 1 - i) then sum.add p else sum)
    Point.zero

/-- A point as 32 bytes. -/
def Point.encode (p : Point) : List UInt8 :=
  let scale := inverse p.z
  let x := p.x * scale % fieldSize
  let y := p.y * scale % fieldSize
  (Bytes.ofNat 32 (y + (x % 2) * Nat.pow 2 255)).reverse

@[simp] theorem Point.length_encode (p : Point) : p.encode.length = 32 := by
  simp only [encode, List.length_reverse, Bytes.length_ofNat]

/-- The scalar of a seed: the first half of its digest, least significant byte first, with the three
lowest bits and the highest one cleared and the second highest set. -/
def scalar (seed : List UInt8) : Nat :=
  let value := Bytes.toNat ((Sha512.digest seed).take 32).reverse
  value % Nat.pow 2 254 / 8 * 8 + Nat.pow 2 254

/-- The 32-byte public key of a seed. -/
def publicKey (seed : List UInt8) : List UInt8 := (Point.base.scale (scalar seed) 255).encode

@[simp] theorem length_publicKey (seed : List UInt8) : (publicKey seed).length = 32 :=
  Point.length_encode _

end KeySearch.Ed25519
