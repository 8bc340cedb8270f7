import Mathlib.Data.Nat.Notation

namespace Base64

/-- The letter that stands for six bits. -/
def letter (n : ℕ) : Char :=
  if n < 26 then Char.ofNat (65 + n)
  else if n < 52 then Char.ofNat (71 + n)
  else if n < 62 then Char.ofNat (n - 4)
  else if n = 62 then '+' else '/'

/-- The six bits that a letter of the alphabet stands for. -/
def value (c : Char) : Option ℕ :=
  if 65 ≤ c.toNat ∧ c.toNat ≤ 90 then some (c.toNat - 65)
  else if 97 ≤ c.toNat ∧ c.toNat ≤ 122 then some (c.toNat - 71)
  else if 48 ≤ c.toNat ∧ c.toNat ≤ 57 then some (c.toNat + 4)
  else if c = '+' then some 62
  else if c = '/' then some 63
  else none

theorem value_letter {n : ℕ} (h : n < 64) : value (letter n) = some n := by
  have hall : ∀ n < 64, value (letter n) = some n := by decide
  exact hall n h

theorem letter_ne_pad {n : ℕ} (h : n < 64) : letter n ≠ '=' := by
  intro hpad
  have hvalue := value_letter h
  rw [hpad] at hvalue
  simp [value] at hvalue

def oneByte (x y : Char) : Option (List UInt8) := do
  let p ← value x
  let q ← value y
  pure [UInt8.ofNat (p * 4 + q / 16)]

def twoBytes (x y z : Char) : Option (List UInt8) := do
  let p ← value x
  let q ← value y
  let r ← value z
  pure [UInt8.ofNat (p * 4 + q / 16), UInt8.ofNat (q % 16 * 16 + r / 4)]

def threeBytes (x y z w : Char) : Option (List UInt8) := do
  let p ← value x
  let q ← value y
  let r ← value z
  let s ← value w
  pure [UInt8.ofNat (p * 4 + q / 16), UInt8.ofNat (q % 16 * 16 + r / 4),
    UInt8.ofNat (r % 4 * 64 + s)]

def encode : List UInt8 → List Char
  | [] => []
  | [a] => [letter (a.toNat / 4), letter (a.toNat % 4 * 16), '=', '=']
  | [a, b] =>
    [letter (a.toNat / 4), letter (a.toNat % 4 * 16 + b.toNat / 16), letter (b.toNat % 16 * 4), '=']
  | a :: b :: c :: rest =>
    letter (a.toNat / 4) :: letter (a.toNat % 4 * 16 + b.toNat / 16) ::
      letter (b.toNat % 16 * 4 + c.toNat / 64) :: letter (c.toNat % 64) :: encode rest

/-- Only whole groups of four letters, with padding in the last one alone. -/
def decode : List Char → Option (List UInt8)
  | [] => some []
  | [x, y, z, w] =>
    if w = '=' then if z = '=' then oneByte x y else twoBytes x y z else threeBytes x y z w
  | x :: y :: z :: w :: rest => do
    let bytes ← threeBytes x y z w
    let tail ← decode rest
    pure (bytes ++ tail)
  | _ => none

private theorem byte_of {n : ℕ} {a : UInt8} (h : n = a.toNat) : UInt8.ofNat n = a := by
  rw [h, UInt8.ofNat_toNat]

theorem oneByte_letters (a : UInt8) :
    oneByte (letter (a.toNat / 4)) (letter (a.toNat % 4 * 16)) = some [a] := by
  have ha := a.toNat_lt
  have hbyte : UInt8.ofNat (a.toNat / 4 * 4 + a.toNat % 4 * 16 / 16) = a := byte_of (by omega)
  simp only [oneByte, value_letter (show a.toNat / 4 < 64 by omega),
    value_letter (show a.toNat % 4 * 16 < 64 by omega), Option.bind_eq_bind, Option.bind_some,
    hbyte]
  rfl

theorem twoBytes_letters (a b : UInt8) :
    twoBytes (letter (a.toNat / 4)) (letter (a.toNat % 4 * 16 + b.toNat / 16))
      (letter (b.toNat % 16 * 4)) = some [a, b] := by
  have ha := a.toNat_lt
  have hb := b.toNat_lt
  have hfirst : UInt8.ofNat (a.toNat / 4 * 4 + (a.toNat % 4 * 16 + b.toNat / 16) / 16) = a :=
    byte_of (by omega)
  have hsecond : UInt8.ofNat
      ((a.toNat % 4 * 16 + b.toNat / 16) % 16 * 16 + b.toNat % 16 * 4 / 4) = b :=
    byte_of (by omega)
  simp only [twoBytes, value_letter (show a.toNat / 4 < 64 by omega),
    value_letter (show a.toNat % 4 * 16 + b.toNat / 16 < 64 by omega),
    value_letter (show b.toNat % 16 * 4 < 64 by omega), Option.bind_eq_bind, Option.bind_some,
    hfirst, hsecond]
  rfl

theorem threeBytes_letters (a b c : UInt8) :
    threeBytes (letter (a.toNat / 4)) (letter (a.toNat % 4 * 16 + b.toNat / 16))
      (letter (b.toNat % 16 * 4 + c.toNat / 64)) (letter (c.toNat % 64)) = some [a, b, c] := by
  have ha := a.toNat_lt
  have hb := b.toNat_lt
  have hc := c.toNat_lt
  have hfirst : UInt8.ofNat (a.toNat / 4 * 4 + (a.toNat % 4 * 16 + b.toNat / 16) / 16) = a :=
    byte_of (by omega)
  have hsecond : UInt8.ofNat ((a.toNat % 4 * 16 + b.toNat / 16) % 16 * 16 +
      (b.toNat % 16 * 4 + c.toNat / 64) / 4) = b :=
    byte_of (by omega)
  have hthird : UInt8.ofNat
      ((b.toNat % 16 * 4 + c.toNat / 64) % 4 * 64 + c.toNat % 64) = c :=
    byte_of (by omega)
  simp only [threeBytes, value_letter (show a.toNat / 4 < 64 by omega),
    value_letter (show a.toNat % 4 * 16 + b.toNat / 16 < 64 by omega),
    value_letter (show b.toNat % 16 * 4 + c.toNat / 64 < 64 by omega),
    value_letter (show c.toNat % 64 < 64 by omega), Option.bind_eq_bind, Option.bind_some,
    hfirst, hsecond, hthird]
  rfl

theorem encode_length (bytes : List UInt8) :
    (encode bytes).length = 4 * ((bytes.length + 2) / 3) := by
  fun_induction encode bytes with
  | case1 => simp
  | case2 a => simp
  | case3 a b => simp
  | case4 a b c rest ih =>
    simp only [List.length_cons, ih]
    omega

theorem decode_encode (bytes : List UInt8) : decode (encode bytes) = some bytes := by
  fun_induction encode bytes with
  | case1 => rfl
  | case2 a => simp [decode, oneByte_letters]
  | case3 a b =>
    have hlast : letter (b.toNat % 16 * 4) ≠ '=' := letter_ne_pad (by omega)
    simp [decode, hlast, twoBytes_letters]
  | case4 a b c rest ih =>
    cases hrest : encode rest with
    | nil =>
      have hempty : rest = [] := by
        have hlength := encode_length rest
        rw [hrest] at hlength
        exact List.eq_nil_of_length_eq_zero (by simp at hlength; omega)
      have hlast : letter (c.toNat % 64) ≠ '=' := letter_ne_pad (by omega)
      simp [decode, hlast, threeBytes_letters, hempty]
    | cons x more =>
      rw [hrest] at ih
      rw [decode, threeBytes_letters, ih]
      · rfl
      · simp

end Base64
