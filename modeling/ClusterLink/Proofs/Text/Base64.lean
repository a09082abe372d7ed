import ClusterLink.Text.Base64

/-!
# Reading base 64

A reader beside the writer: `value?` looks a digit up in the standard alphabet, and
`decode?` puts four digits of six bits together to three bytes, or fewer in front of
padding at the end. Whatever is written is read back (`decode?_encode`).

## The argument

A group of digits is the number that three bytes make, written to the base sixty-four
(`value?_digit`), so its bytes are found again by division. Padding is no digit, so a
group is never taken for a shorter one.
-/

namespace ClusterLink.Text.Base64

/-- The digits by their values. -/
def alphabet : List Char :=
  "ABCDEFGHIJKLMNOPQRSTUVWXYZabcdefghijklmnopqrstuvwxyz0123456789+/".toList

/-- The value of a digit. -/
def value? (c : Char) : Option Nat :=
  alphabet.findIdx? (· == c)

/-- The byte string that a text writes. -/
def decode? : List Char → Option Bytes
  | [] => some []
  | a :: b :: c :: d :: rest => do
    let p ← value? a
    let q ← value? b
    let v := p * 64 + q
    if c = '=' ∧ d = '=' ∧ rest = [] then
      return [UInt8.ofNat (v / 16)]
    let v := v * 64 + (← value? c)
    if d = '=' ∧ rest = [] then
      return [UInt8.ofNat (v / 1024), UInt8.ofNat (v / 4 % 256)]
    let v := v * 64 + (← value? d)
    let bytes ← decode? rest
    return UInt8.ofNat (v / 65536) :: UInt8.ofNat (v / 256 % 256) :: UInt8.ofNat (v % 256) :: bytes
  | _ => none

theorem value?_digit : ∀ v < 64, value? (digit v) = some v := by
  decide

theorem digit_ne_pad : ∀ v < 64, digit v ≠ '=' := by
  decide

theorem ofNat_of_eq_toNat {b : UInt8} {n : Nat} (h : n = b.toNat) : UInt8.ofNat n = b := by
  rw [h, UInt8.ofNat_toNat]

/-- What is written is read back. -/
theorem decode?_encode (bytes : Bytes) : decode? (encode bytes) = some bytes := by
  fun_induction encode bytes with
  | case1 => rfl
  | case2 a v =>
    have ha := a.toNat_lt
    have hall : v / 64 * 64 + v % 64 = v := by omega
    have hone : UInt8.ofNat (v / 16) = a := ofNat_of_eq_toNat (by omega)
    simp [decode?, value?_digit (v / 64) (by omega), value?_digit (v % 64) (by omega), hall, hone]
  | case3 a b v =>
    have ha := a.toNat_lt
    have hb := b.toNat_lt
    have hfront : v / 4096 * 64 + v / 64 % 64 = v / 64 := by omega
    have hall : v / 64 * 64 + v % 64 = v := by omega
    have hone : UInt8.ofNat (v / 1024) = a := ofNat_of_eq_toNat (by omega)
    have htwo : UInt8.ofNat (v / 4 % 256) = b := ofNat_of_eq_toNat (by omega)
    simp [decode?, value?_digit (v / 4096) (by omega), value?_digit (v / 64 % 64) (by omega),
      value?_digit (v % 64) (by omega), digit_ne_pad (v % 64) (by omega), hfront, hall, hone, htwo]
  | case4 a b c rest v ih =>
    have ha := a.toNat_lt
    have hb := b.toNat_lt
    have hc := c.toNat_lt
    have hfront : v / 262144 * 64 + v / 4096 % 64 = v / 4096 := by omega
    have hmiddle : v / 4096 * 64 + v / 64 % 64 = v / 64 := by omega
    have hall : v / 64 * 64 + v % 64 = v := by omega
    have hone : UInt8.ofNat (v / 65536) = a := ofNat_of_eq_toNat (by omega)
    have htwo : UInt8.ofNat (v / 256 % 256) = b := ofNat_of_eq_toNat (by omega)
    have hthree : UInt8.ofNat (v % 256) = c := ofNat_of_eq_toNat (by omega)
    simp [decode?, value?_digit (v / 262144) (by omega), value?_digit (v / 4096 % 64) (by omega),
      value?_digit (v / 64 % 64) (by omega), value?_digit (v % 64) (by omega),
      digit_ne_pad (v / 64 % 64) (by omega), digit_ne_pad (v % 64) (by omega), hfront, hmiddle,
      hall, hone, htwo, hthree, ih]

end ClusterLink.Text.Base64
