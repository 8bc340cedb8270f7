import Mathlib.Data.List.DropRight

/-! The URL-safe base64 alphabet: encoding without padding, and a lenient decoding that repairs
it. -/

namespace Base64Url

/-- The character of six bits. -/
def alphabet (n : Nat) : Nat :=
  if n < 26 then 65 + n
  else if n < 52 then 71 + n
  else if n < 62 then n - 4
  else if n = 62 then 45
  else 95

/-- `base64.urlsafe_b64encode`. -/
def urlsafeB64encode : List UInt8 → List Nat
  | [] => []
  | [a] => [alphabet (a.toNat / 4), alphabet (a.toNat % 4 * 16), 61, 61]
  | [a, b] => [alphabet (a.toNat / 4), alphabet (a.toNat % 4 * 16 + b.toNat / 16),
      alphabet (b.toNat % 16 * 4), 61]
  | a :: b :: c :: rest =>
    alphabet (a.toNat / 4) :: alphabet (a.toNat % 4 * 16 + b.toNat / 16) ::
      alphabet (b.toNat % 16 * 4 + c.toNat / 64) :: alphabet (c.toNat % 64) ::
      urlsafeB64encode rest

/-- The encoding, less its padding. -/
def encode (data : List UInt8) : List Nat := (urlsafeB64encode data).rdropWhile (· = 61)

/-- `-_` translated to `+/`. -/
def translate (c : Nat) : Nat := if c = 45 then 43 else if c = 95 then 47 else c

/-- The six bits of a character of the standard alphabet. -/
def sixBits (c : Nat) : Option Nat :=
  if 65 ≤ c ∧ c ≤ 90 then some (c - 65)
  else if 97 ≤ c ∧ c ≤ 122 then some (c - 71)
  else if 48 ≤ c ∧ c ≤ 57 then some (c + 4)
  else if c = 43 then some 62
  else if c = 47 then some 63
  else none

/-- `binascii.a2b_base64`, not strict, at one place of a quad: what is left of the character before,
and the pads just seen. Other characters are passed over, and a quad that its pads complete ends
the data. -/
def a2bBase64 (quadPos leftChar pads : Nat) : List Nat → Option (List UInt8)
  | [] => if quadPos = 0 then some [] else none
  | c :: rest =>
    if c = 61 then
      if 2 ≤ quadPos then
        if 4 ≤ quadPos + (pads + 1) then some [] else a2bBase64 quadPos leftChar (pads + 1) rest
      else a2bBase64 quadPos leftChar pads rest
    else
      match sixBits c with
      | none => a2bBase64 quadPos leftChar pads rest
      | some bits =>
        if quadPos = 0 then a2bBase64 1 bits 0 rest
        else if quadPos = 1 then
          (a2bBase64 2 (bits % 16) 0 rest).map (UInt8.ofNat (leftChar * 4 + bits / 16) :: ·)
        else if quadPos = 2 then
          (a2bBase64 3 (bits % 4) 0 rest).map (UInt8.ofNat (leftChar * 16 + bits / 4) :: ·)
        else (a2bBase64 0 0 0 rest).map (UInt8.ofNat (leftChar * 64 + bits) :: ·)

/-- `base64.urlsafe_b64decode`, where it does not raise. -/
def urlsafeB64decode (text : List Nat) : Option (List UInt8) :=
  if ∃ c ∈ text, 128 ≤ c then none else a2bBase64 0 0 0 (text.map translate)

/-- `(-n) % 4` pads for a text of `n` characters. -/
def repairedPadding (text : List Nat) : List Nat := List.replicate ((4 - text.length % 4) % 4) 61

/-- The decoding of a text without its padding. -/
def decode (text : List Nat) : Option (List UInt8) := urlsafeB64decode (text ++ repairedPadding text)

theorem alphabet_lt {n : Nat} (h : n < 64) : alphabet n < 128 := by
  unfold alphabet
  split
  next => omega
  next =>
    split
    next => omega
    next =>
      split
      next => omega
      next => split <;> omega

theorem alphabet_ne {n : Nat} (h : n < 64) : alphabet n ≠ 61 ∧ alphabet n ≠ 46 := by
  unfold alphabet
  split
  next => omega
  next =>
    split
    next => omega
    next =>
      split
      next => omega
      next => split <;> omega

theorem translate_alphabet_ne : ∀ n < 64, translate (alphabet n) ≠ 61 := by decide

theorem sixBits_alphabet : ∀ n < 64, sixBits (translate (alphabet n)) = some n := by decide

section Decode

variable {n left pads : Nat} (rest : List Nat)

theorem a2b_first (h : n < 64) :
    a2bBase64 0 left pads (translate (alphabet n) :: rest) = a2bBase64 1 n 0 rest := by
  rw [a2bBase64, if_neg (translate_alphabet_ne n h), sixBits_alphabet n h]
  rfl

theorem a2b_second (h : n < 64) : a2bBase64 1 left pads (translate (alphabet n) :: rest) =
    (a2bBase64 2 (n % 16) 0 rest).map (UInt8.ofNat (left * 4 + n / 16) :: ·) := by
  rw [a2bBase64, if_neg (translate_alphabet_ne n h), sixBits_alphabet n h]
  rfl

theorem a2b_third (h : n < 64) : a2bBase64 2 left pads (translate (alphabet n) :: rest) =
    (a2bBase64 3 (n % 4) 0 rest).map (UInt8.ofNat (left * 16 + n / 4) :: ·) := by
  rw [a2bBase64, if_neg (translate_alphabet_ne n h), sixBits_alphabet n h]
  rfl

theorem a2b_fourth (h : n < 64) : a2bBase64 3 left pads (translate (alphabet n) :: rest) =
    (a2bBase64 0 0 0 rest).map (UInt8.ofNat (left * 64 + n) :: ·) := by
  rw [a2bBase64, if_neg (translate_alphabet_ne n h), sixBits_alphabet n h]
  rfl

end Decode

theorem ofNat_eq (byte : UInt8) {n : Nat} (h : n = byte.toNat) : UInt8.ofNat n = byte := by
  rw [h, UInt8.ofNat_toNat]

theorem a2bBase64_urlsafeB64encode : ∀ data : List UInt8,
    a2bBase64 0 0 0 ((urlsafeB64encode data).map translate) = some data
  | [] => rfl
  | [a] => by
    have ha := a.toNat_lt
    simp only [urlsafeB64encode, List.map_cons, List.map_nil]
    rw [a2b_first _ (by omega), a2b_second _ (by omega)]
    have hpads : a2bBase64 2 (a.toNat % 4 * 16 % 16) 0 [translate 61, translate 61] = some [] := rfl
    rw [hpads, Option.map_some, ofNat_eq a (by omega)]
  | [a, b] => by
    have ha := a.toNat_lt
    have hb := b.toNat_lt
    simp only [urlsafeB64encode, List.map_cons, List.map_nil]
    rw [a2b_first _ (by omega), a2b_second _ (by omega), a2b_third _ (by omega)]
    have hpad : a2bBase64 3 (b.toNat % 16 * 4 % 4) 0 [translate 61] = some [] := rfl
    rw [hpad, Option.map_some, Option.map_some, ofNat_eq a (by omega),
      ofNat_eq b (by omega)]
  | a :: b :: c :: rest => by
    have ha := a.toNat_lt
    have hb := b.toNat_lt
    have hc := c.toNat_lt
    simp only [urlsafeB64encode, List.map_cons]
    rw [a2b_first _ (by omega), a2b_second _ (by omega), a2b_third _ (by omega),
      a2b_fourth _ (by omega), a2bBase64_urlsafeB64encode rest]
    simp only [Option.map_some]
    rw [ofNat_eq a (by omega), ofNat_eq b (by omega),
      ofNat_eq c (by omega)]

/-- Characters of the alphabet, and pads up to a whole number of quads. -/
theorem urlsafeB64encode_parts : ∀ data : List UInt8, ∃ chars pads,
    urlsafeB64encode data = chars ++ List.replicate pads 61 ∧ pads < 4 ∧
    (chars.length + pads) % 4 = 0 ∧ (∀ c ∈ chars, ∃ n < 64, c = alphabet n)
  | [] => ⟨[], 0, rfl, by decide, rfl, fun _ hc => (by cases hc)⟩
  | [a] => by
    have ha := a.toNat_lt
    refine ⟨[_, _], 2, rfl, by decide, by simp, ?_⟩
    simp only [List.forall_mem_cons]
    exact ⟨⟨_, by omega, rfl⟩, ⟨_, by omega, rfl⟩, List.forall_mem_nil _⟩
  | [a, b] => by
    have ha := a.toNat_lt
    have hb := b.toNat_lt
    refine ⟨[_, _, _], 1, rfl, by decide, by simp, ?_⟩
    simp only [List.forall_mem_cons]
    exact ⟨⟨_, by omega, rfl⟩, ⟨_, by omega, rfl⟩, ⟨_, by omega, rfl⟩, List.forall_mem_nil _⟩
  | a :: b :: c :: rest => by
    have ha := a.toNat_lt
    have hb := b.toNat_lt
    have hc := c.toNat_lt
    obtain ⟨chars, pads, hrest, hpads, hlength, hchars⟩ := urlsafeB64encode_parts rest
    refine ⟨_ :: _ :: _ :: _ :: chars, pads, by rw [urlsafeB64encode, hrest]; rfl, hpads, ?_, ?_⟩
    · simp only [List.length_cons]
      omega
    · simp only [List.forall_mem_cons]
      exact ⟨⟨_, by omega, rfl⟩, ⟨_, by omega, rfl⟩, ⟨_, by omega, rfl⟩, ⟨_, by omega, rfl⟩, hchars⟩

theorem rdropWhile_replicate {chars : List Nat} (h : 61 ∉ chars) (pads : Nat) :
    (chars ++ List.replicate pads 61).rdropWhile (· = 61) = chars := by
  induction pads with
  | zero =>
    rw [List.replicate_zero, List.append_nil, List.rdropWhile_eq_self_iff]
    intro hne hlast
    rw [← of_decide_eq_true hlast] at h
    exact h (List.getLast_mem hne)
  | succ pads ih =>
    rw [List.replicate_succ', ← List.append_assoc, List.rdropWhile_concat_pos _ _ _ (by decide), ih]

theorem encode_alphabet {data : List UInt8} : ∀ c ∈ encode data, c < 128 ∧ c ≠ 46 := by
  obtain ⟨chars, pads, hparts, _, _, hchars⟩ := urlsafeB64encode_parts data
  have hpad : 61 ∉ chars := by
    intro hmem
    obtain ⟨n, hn, heq⟩ := hchars 61 hmem
    exact (alphabet_ne hn).1 heq.symm
  unfold encode
  rw [hparts, rdropWhile_replicate hpad]
  intro c hc
  obtain ⟨n, hn, rfl⟩ := hchars c hc
  exact ⟨alphabet_lt hn, (alphabet_ne hn).2⟩

theorem encode_repaired (data : List UInt8) :
    encode data ++ repairedPadding (encode data) = urlsafeB64encode data := by
  obtain ⟨chars, pads, hparts, hpads, hlength, hchars⟩ := urlsafeB64encode_parts data
  have hpad : 61 ∉ chars := by
    intro hmem
    obtain ⟨n, hn, heq⟩ := hchars 61 hmem
    exact (alphabet_ne hn).1 heq.symm
  unfold encode repairedPadding
  rw [hparts, rdropWhile_replicate hpad]
  congr 2
  omega

theorem decode_encode (data : List UInt8) : decode (encode data) = some data := by
  have hascii : ¬∃ c ∈ encode data ++ repairedPadding (encode data), 128 ≤ c := by
    rintro ⟨c, hc, hlarge⟩
    rcases List.mem_append.mp hc with hc | hc
    · exact absurd (encode_alphabet c hc).1 (by omega)
    · rw [List.eq_of_mem_replicate hc] at hlarge
      omega
  unfold decode urlsafeB64decode
  rw [if_neg hascii, encode_repaired, a2bBase64_urlsafeB64encode]

theorem encode_ne_nil {data : List UInt8} (h : data ≠ []) : encode data ≠ [] := by
  intro hnil
  have hdecoded := decode_encode data
  rw [hnil] at hdecoded
  exact h (Option.some.inj hdecoded).symm

end Base64Url
