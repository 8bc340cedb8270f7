import NoraInterviewer.JsonRoundTrip

/-! Documents as bytes: the encoding that their first bytes tell, and that what is encoded in ASCII
is decoded from its bytes. -/

namespace JsonText

/-! Bytes to code points; lone surrogates pass. -/

/-- So many continuation bytes after the bits of the first. -/
def continued : Nat → Nat → List UInt8 → Option (Nat × List UInt8)
  | 0, value, rest => some (value, rest)
  | more + 1, value, byte :: rest =>
    if 0x80 ≤ byte.toNat ∧ byte.toNat ≤ 0xbf then
      continued more (value * 64 + (byte.toNat - 0x80)) rest
    else none
  | _ + 1, _, [] => none

/-- The first character of UTF-8. -/
def utf8Char : List UInt8 → Option (Nat × List UInt8)
  | [] => none
  | byte :: rest =>
    let lead := byte.toNat
    if lead < 0x80 then some (lead, rest)
    else if lead < 0xc0 then none
    else if lead < 0xe0 then (continued 1 (lead - 0xc0) rest).filter fun read => 0x80 ≤ read.1
    else if lead < 0xf0 then (continued 2 (lead - 0xe0) rest).filter fun read => 0x800 ≤ read.1
    else if lead < 0xf8 then
      (continued 3 (lead - 0xf0) rest).filter fun read => 0x10000 ≤ read.1 && read.1 < 0x110000
    else none

def pairValue (big : Bool) (first second : UInt8) : Nat :=
  if big then first.toNat * 0x100 + second.toNat else second.toNat * 0x100 + first.toNat

/-- The first character of UTF-16. -/
def utf16Char (big : Bool) : List UInt8 → Option (Nat × List UInt8)
  | a :: b :: c :: d :: rest =>
    if isHigh (pairValue big a b) && isLow (pairValue big c d) then
      some (joinSurrogates (pairValue big a b) (pairValue big c d), rest)
    else some (pairValue big a b, c :: d :: rest)
  | a :: b :: rest => some (pairValue big a b, rest)
  | _ => none

/-- The first character of UTF-32. -/
def utf32Char (big : Bool) : List UInt8 → Option (Nat × List UInt8)
  | a :: b :: c :: d :: rest =>
    let value :=
      if big then pairValue true a b * 0x10000 + pairValue true c d
      else pairValue false c d * 0x10000 + pairValue false a b
    if value < 0x110000 then some (value, rest) else none
  | _ => none

/-- All characters. Each takes at least one byte, so the number of bytes bounds theirs. -/
def decodeChars (char : List UInt8 → Option (Nat × List UInt8)) :
    Nat → List UInt8 → Option (List Nat)
  | _, [] => some []
  | 0, _ => none
  | fuel + 1, data => do
    let (c, rest) ← char data
    let text ← decodeChars char fuel rest
    pure (c :: text)

inductive Encoding where
  | utf8
  | utf16 (big : Bool)
  | utf32 (big : Bool)
  deriving DecidableEq

/-- `json.detect_encoding`, and the bytes after the mark that told it. -/
def detectEncoding (data : List UInt8) : Encoding × List UInt8 :=
  if [0x00, 0x00, 0xfe, 0xff] <+: data then (.utf32 true, data.drop 4)
  else if [0xff, 0xfe, 0x00, 0x00] <+: data then (.utf32 false, data.drop 4)
  else if [0xfe, 0xff] <+: data then (.utf16 true, data.drop 2)
  else if [0xff, 0xfe] <+: data then (.utf16 false, data.drop 2)
  else if [0xef, 0xbb, 0xbf] <+: data then (.utf8, data.drop 3)
  else
    match data with
    | a :: b :: c :: d :: _ =>
      if a = 0 then (if b = 0 then .utf32 true else .utf16 true, data)
      else if b = 0 then (if c = 0 ∧ d = 0 then .utf32 false else .utf16 false, data)
      else (.utf8, data)
    | [a, b] =>
      if a = 0 then (.utf16 true, data)
      else if b = 0 then (.utf16 false, data)
      else (.utf8, data)
    | _ => (.utf8, data)

def Encoding.char : Encoding → List UInt8 → Option (Nat × List UInt8)
  | utf8 => utf8Char
  | utf16 big => utf16Char big
  | utf32 big => utf32Char big

/-- `data.decode(detect_encoding(data), "surrogatepass")`, where it does not raise. -/
def decodeDetected (data : List UInt8) : Option (List Nat) :=
  let detected := detectEncoding data
  decodeChars detected.1.char detected.2.length detected.2

/-- `json.loads` of bytes. Bytes that are no text are no JSON either. -/
def loadsBytes {F : Type} [FloatText F] (bounds : Bounds) (data : List UInt8) :
    Except LoadFailure (Value F) :=
  match decodeDetected data with
  | none => .error .notJson
  | some text => loads bounds text

/-- `text.encode("ascii")`, where it does not raise. -/
def encodeAscii (text : List Nat) : Option (List UInt8) :=
  if ∃ c ∈ text, 128 ≤ c then none else some (text.map UInt8.ofNat)

def utf8Bytes (c : Nat) : List UInt8 :=
  if c < 0x80 then [UInt8.ofNat c]
  else if c < 0x800 then [UInt8.ofNat (0xc0 + c / 0x40), UInt8.ofNat (0x80 + c % 0x40)]
  else if c < 0x10000 then
    [UInt8.ofNat (0xe0 + c / 0x1000), UInt8.ofNat (0x80 + c / 0x40 % 0x40),
      UInt8.ofNat (0x80 + c % 0x40)]
  else
    [UInt8.ofNat (0xf0 + c / 0x40000), UInt8.ofNat (0x80 + c / 0x1000 % 0x40),
      UInt8.ofNat (0x80 + c / 0x40 % 0x40), UInt8.ofNat (0x80 + c % 0x40)]

/-- `text.encode("utf-8")`, where it does not raise. -/
def encodeUtf8 (text : List Nat) : Option (List UInt8) :=
  if ∃ c ∈ text, isScalar c = false then none else some (text.flatMap utf8Bytes)

/-! Texts of ASCII without NUL. -/

def Plain (text : List Nat) : Prop := ∀ c ∈ text, 0 < c ∧ c < 128

instance (text : List Nat) : Decidable (Plain text) :=
  inferInstanceAs (Decidable (∀ c ∈ text, 0 < c ∧ c < 128))

theorem toNat_ofNat {c : Nat} (h : c < 128) : (UInt8.ofNat c).toNat = c := by
  rw [UInt8.toNat_ofNat']
  omega

theorem encodeAscii_plain {text : List Nat} (h : Plain text) :
    encodeAscii text = some (text.map UInt8.ofNat) := by
  unfold encodeAscii
  rw [if_neg]
  rintro ⟨c, hc, hlarge⟩
  have hplain := h c hc
  omega

theorem utf8Char_ascii {byte : UInt8} (h : byte.toNat < 0x80) (rest : List UInt8) :
    utf8Char (byte :: rest) = some (byte.toNat, rest) := by
  simp only [utf8Char]
  rw [if_pos h]

theorem decodeChars_plain {text : List Nat} (h : Plain text) :
    decodeChars utf8Char (text.map UInt8.ofNat).length (text.map UInt8.ofNat) = some text := by
  induction text with
  | nil => rfl
  | cons c rest ih =>
    obtain ⟨hc, hrest⟩ := List.forall_mem_cons.mp h
    have hbyte := toNat_ofNat hc.2
    have hchar := utf8Char_ascii (by rw [hbyte]; exact hc.2) (rest.map UInt8.ofNat)
    rw [hbyte] at hchar
    rw [List.map_cons, List.length_cons, decodeChars, hchar]
    · simp only [Option.bind_eq_bind, Option.bind_some, ih hrest]
      rfl
    · intro hnil
      cases hnil

theorem encodeUtf8_plain {text : List Nat} (h : Plain text) :
    encodeUtf8 text = some (text.map UInt8.ofNat) := by
  have hscalar : ¬∃ c ∈ text, isScalar c = false := by
    rintro ⟨c, hc, hno⟩
    have hplain := h c hc
    simp only [isScalar, Bool.or_eq_false_iff, decide_eq_false_iff_not] at hno
    omega
  unfold encodeUtf8
  rw [if_neg hscalar, List.map_eq_flatMap]
  congr 1
  refine List.flatMap_congr fun c hc => ?_
  have hplain := h c hc
  unfold utf8Bytes
  rw [if_pos hplain.2]

/-- No byte of plain text is zero, or begins a mark. -/
theorem plain_bytes {text : List Nat} (h : Plain text) :
    ∀ byte ∈ text.map UInt8.ofNat, byte ≠ 0 ∧ byte.toNat < 128 := by
  intro byte hbyte
  obtain ⟨c, hc, rfl⟩ := List.mem_map.mp hbyte
  have hplain := h c hc
  refine ⟨?_, by rw [toNat_ofNat hplain.2]; exact hplain.2⟩
  intro hzero
  have hval := congrArg UInt8.toNat hzero
  rw [toNat_ofNat hplain.2] at hval
  change c = 0 at hval
  omega

theorem no_mark {data mark : List UInt8} {lead : UInt8}
    (h : ∀ byte ∈ data, byte ≠ 0 ∧ byte.toNat < 128) (hlead : lead = 0 ∨ 128 ≤ lead.toNat) :
    ¬(lead :: mark) <+: data := by
  intro hfront
  have hlow := h lead (hfront.subset List.mem_cons_self)
  rcases hlead with hzero | hhigh
  · exact hlow.1 hzero
  · omega

theorem detectEncoding_plain {data : List UInt8} (h : ∀ byte ∈ data, byte ≠ 0 ∧ byte.toNat < 128) :
    detectEncoding data = (.utf8, data) := by
  unfold detectEncoding
  rw [if_neg (no_mark h (Or.inl rfl)), if_neg (no_mark h (Or.inr (by decide))),
    if_neg (no_mark h (Or.inr (by decide))), if_neg (no_mark h (Or.inr (by decide))),
    if_neg (no_mark h (Or.inr (by decide)))]
  split
  next a b c d tail =>
    rw [if_neg (h a (by simp)).1, if_neg (h b (by simp)).1]
  next a b =>
    rw [if_neg (h a (by simp)).1, if_neg (h b (by simp)).1]
  next => rfl

theorem decodeDetected_plain {text : List Nat} (h : Plain text) :
    decodeDetected (text.map UInt8.ofNat) = some text := by
  unfold decodeDetected
  rw [detectEncoding_plain (plain_bytes h)]
  exact decodeChars_plain h

theorem loadsBytes_plain {F : Type} [FloatText F] {bounds : Bounds} {text : List Nat}
    (h : Plain text) : loadsBytes (F := F) bounds (text.map UInt8.ofNat) = loads bounds text := by
  unfold loadsBytes
  rw [decodeDetected_plain h]

end JsonText
