import Hpqc.Sign.Ed25519.Keys

/-!
# `ToECDH` and the points it decodes

`(*PublicKey).ToECDH` reads its key as an edwards25519 point with `Point.SetBytes`,
discards the error, and hands the point's Montgomery form to `x25519.PublicKey.FromBytes`.
For a 32-byte string that encodes no point `SetBytes` returns a nil point, and
`BytesMontgomery` dereferences it. `UnmarshalBinaryPublicKey` checks the length alone, so
such a key is accepted and then panics in `ToECDH`.

Package `edwards25519` (`filippo.io/edwards25519`) is not among the sources. Its field
elements are modelled as naturals modulo `2^255 - 19`, and each operation the decoding uses
as the package computes it, exponentiation by square and multiply over the exponent's bits.
-/

namespace Hpqc.Sign.Ed25519

namespace Edwards25519

/-- The field prime `2^255 - 19`. -/
def fieldPrime : Nat := Nat.pow 2 255 - 19

/-- Square and multiply over the `bits` low bits of the exponent `e`, with `acc` the
product so far. -/
def powAux : Nat → Nat → Nat → Nat → Nat
  | 0, _, _, acc => acc
  | bits + 1, base, e, acc =>
    powAux bits (base * base % fieldPrime) (e / 2)
      (if e % 2 = 1 then acc * base % fieldPrime else acc)

/-- `x ^ e` in the field, for an exponent below `2^255`. -/
def pow (x e : Nat) : Nat := powAux 255 (x % fieldPrime) e 1

/-- `Invert`: `x^(p-2)`, which is zero at zero. -/
def invert (x : Nat) : Nat := pow x (fieldPrime - 2)

/-- The curve constant `d = -121665/121666`. -/
def d : Nat := (fieldPrime - 121665) * invert 121666 % fieldPrime

/-- The `wasSquare` flag of `SqrtRatio(u, v)`: the candidate root
`r = u v³ (u v⁷)^((p-5)/8)` is accepted when `v r² = ±u`. -/
def sqrtRatioWasSquare (u v : Nat) : Bool :=
  let v2 := v * v % fieldPrime
  let uv3 := u * (v2 * v % fieldPrime) % fieldPrime
  let uv7 := uv3 * (v2 * v2 % fieldPrime) % fieldPrime
  let r := uv3 * pow uv7 ((fieldPrime - 5) / 8) % fieldPrime
  let check := v * (r * r % fieldPrime) % fieldPrime
  check == u % fieldPrime || check == (fieldPrime - u % fieldPrime) % fieldPrime

/-- The value of a little-endian byte string. -/
def littleEndian : Bytes → Nat
  | [] => 0
  | byte :: rest => byte.toNat + 256 * littleEndian rest

/-- The `n`-byte little-endian encoding of `value`. -/
def toLittleEndian : Nat → Nat → Bytes
  | 0, _ => []
  | n + 1, value => UInt8.ofNat (value % 256) :: toLittleEndian n (value / 256)

/-- The encoding has the length asked for. -/
@[simp] theorem toLittleEndian_length (n value : Nat) : (toLittleEndian n value).length = n := by
  induction n generalizing value with
  | zero => rfl
  | succ n ih => simp [toLittleEndian, ih]

/-- `(*field.Element).SetBytes(x)`: 32 bytes, read little-endian with the top bit ignored. -/
def feSetBytes (x : Bytes) : Except Error Nat :=
  if x.length ≠ 32 then .error (.new "edwards25519: invalid field element input size")
  else .ok (littleEndian x % Nat.pow 2 255 % fieldPrime)

/-- An edwards25519 point, by the affine `y` that `BytesMontgomery` reads (`SetBytes`
leaves `Z = 1`). -/
structure Point where
  y : Nat
  deriving DecidableEq, Repr

/-- `(*Point).SetBytes(x)`: `y` is `x` read as a field element, and the point exists when
`x² = (y² - 1)/(d y² + 1)` has a root. -/
def Point.setBytes (x : Bytes) : Except Error Point :=
  match feSetBytes x with
  | .error _ => .error (.new "edwards25519: invalid point encoding length")
  | .ok y =>
    let y2 := y * y % fieldPrime
    let u := (y2 + fieldPrime - 1) % fieldPrime
    let vv := (y2 * d + 1) % fieldPrime
    if sqrtRatioWasSquare u vv then .ok { y }
    else .error (.new "edwards25519: invalid point encoding")

/-- `(*Point).BytesMontgomery()`: `u = (1 + y)/(1 - y)` in 32 little-endian bytes. -/
def Point.bytesMontgomery (v : Point) : Bytes :=
  let recip := invert ((1 + fieldPrime - v.y % fieldPrime) % fieldPrime)
  toLittleEndian 32 ((1 + v.y) * recip % fieldPrime)

/-- The Montgomery form of a point is 32 bytes long. -/
@[simp] theorem Point.bytesMontgomery_length (v : Point) : v.bytesMontgomery.length = 32 :=
  toLittleEndian_length _ _

end Edwards25519

/-- `(*PublicKey).ToECDH()`, with `x25519.PublicKey.FromBytes` (package `nike/x25519`, not
among the sources) as `fromBytes`. The error of `SetBytes` is dropped: for a string that is
no point, `ed_pub` is nil and `ed_pub.BytesMontgomery()` dereferences it. -/
def PublicKey.toECDH {X25519PublicKey : Type} (fromBytes : Bytes → Except Error X25519PublicKey)
    (p : PublicKey) : Go X25519PublicKey :=
  match Edwards25519.Point.setBytes p.bytes with
  | .error _ => throw (.panic .nilDereference)
  | .ok edPub =>
    match fromBytes edPub.bytesMontgomery with
    | .error _ =>
      throw (.panic (.message "edwards.Point from pub.BytesMontgomery failed, impossible. "))
    | .ok r => pure r

namespace PublicKey

variable {X25519PublicKey : Type} {fromBytes : Bytes → Except Error X25519PublicKey}

/-- On a string that is no point, `ToECDH` dereferences the nil point `SetBytes` returns. -/
theorem toECDH_of_setBytes_error {p : PublicKey} {e : Error}
    (notAPoint : Edwards25519.Point.setBytes p.bytes = .error e) :
    p.toECDH fromBytes = .error (.panic .nilDereference) := by
  simp [toECDH, notAPoint]

/-- On a point, `ToECDH` returns what `x25519.PublicKey.FromBytes` makes of its Montgomery
form. -/
theorem toECDH_of_setBytes_ok {p : PublicKey} {edPub : Edwards25519.Point} {r : X25519PublicKey}
    (point : Edwards25519.Point.setBytes p.bytes = .ok edPub)
    (converted : fromBytes edPub.bytesMontgomery = .ok r) : p.toECDH fromBytes = .ok r := by
  simp [toECDH, point, converted]

end PublicKey

/-- The encoding of the edwards25519 base point, `y = 4/5`. -/
def basePoint : Bytes := 0x58 :: List.replicate 31 0x66

set_option maxRecDepth 200000 in
example : (Edwards25519.Point.setBytes basePoint).isOk = true := rfl

/-- The 32-byte encoding of `y = 2`, which no point of edwards25519 has. -/
def notAPoint : Bytes := 2 :: List.replicate 31 0

set_option maxRecDepth 200000 in
/-- `SetBytes` refuses the encoding of `y = 2`. -/
theorem setBytes_notAPoint :
    Edwards25519.Point.setBytes notAPoint = .error (.new "edwards25519: invalid point encoding") :=
  rfl

/-- `UnmarshalBinaryPublicKey` accepts the encoding of `y = 2`, and `ToECDH` on that key
dereferences a nil point, whatever `x25519.PublicKey.FromBytes` does. -/
theorem toECDH_dereferences_nil_point {X25519PublicKey : Type}
    (fromBytes : Bytes → Except Error X25519PublicKey) :
    Scheme.unmarshalBinaryPublicKey notAPoint = .ok { pubKey := notAPoint } ∧
      PublicKey.toECDH fromBytes { pubKey := notAPoint } = .error (.panic .nilDereference) :=
  ⟨Scheme.unmarshalBinaryPublicKey_eq.trans (if_pos rfl),
    PublicKey.toECDH_of_setBytes_error setBytes_notAPoint⟩

end Hpqc.Sign.Ed25519
