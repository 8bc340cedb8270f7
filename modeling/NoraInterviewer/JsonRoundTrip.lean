import NoraInterviewer.JsonText
import NoraInterviewer.ExceptRules
import Mathlib.Data.List.Sort
import Mathlib.Data.Nat.Digits.Lemmas
import Mathlib.Data.List.Lex

/-! Encoding, and that decoding undoes it. -/

namespace JsonText

def hexDigit (n : Nat) : Nat := if n < 10 then 48 + n else 87 + n

/-- An escape of four hexadecimal digits. -/
def escapeUnit (unit : Nat) : List Nat :=
  [92, 117, hexDigit (unit / 4096), hexDigit (unit / 256 % 16), hexDigit (unit / 16 % 16),
    hexDigit (unit % 16)]

/-- A character as the encoder writes it, in ASCII alone. -/
def dumpChar (c : Nat) : List Nat :=
  if c = 34 then [92, 34]
  else if c = 92 then [92, 92]
  else if c = 8 then [92, 98]
  else if c = 12 then [92, 102]
  else if c = 10 then [92, 110]
  else if c = 13 then [92, 114]
  else if c = 9 then [92, 116]
  else if 32 ≤ c ∧ c ≤ 126 then [c]
  else if c < 0x10000 then escapeUnit c
  else escapeUnit (0xd800 + (c - 0x10000) / 0x400) ++ escapeUnit (0xdc00 + (c - 0x10000) % 0x400)

def dumpString (text : List Nat) : List Nat := 34 :: text.flatMap dumpChar ++ [34]

def natDigits (n : Nat) : List Nat :=
  if n = 0 then [48] else ((Nat.digits 10 n).map (· + 48)).reverse

def dumpInt (n : ℤ) : List Nat := (if n < 0 then [45] else []) ++ natDigits n.natAbs

/-- `float.__repr__`, and the spellings of the three constants. -/
class FloatRepr (F : Type) extends FloatText F where
  repr : F → List Nat

section Dump

variable {F : Type} [FloatRepr F]

mutual

/-- A value with the gap after each comma and colon, and so many brackets yet to open. -/
def dumpValue (bounds : Bounds) (gap : List Nat) : Nat → Value F → Except LoadFailure (List Nat)
  | _, .null => .ok [110, 117, 108, 108]
  | _, .bool true => .ok [116, 114, 117, 101]
  | _, .bool false => .ok [102, 97, 108, 115, 101]
  | _, .int n =>
    if bounds.maxDigits < (natDigits n.natAbs).length then .error .tooManyDigits
    else .ok (dumpInt n)
  | _, .float x => .ok (FloatRepr.repr x)
  | _, .str text => .ok (dumpString text)
  | 0, .arr _ => .error .tooDeep
  | 0, .obj _ => .error .tooDeep
  | depth + 1, .arr items => do
    let text ← dumpItems bounds gap depth items
    .ok (91 :: text)
  | depth + 1, .obj fields => do
    let text ← dumpFields bounds gap depth fields
    .ok (123 :: text)

def dumpItems (bounds : Bounds) (gap : List Nat) :
    Nat → List (Value F) → Except LoadFailure (List Nat)
  | _, [] => .ok [93]
  | depth, [item] => do
    let text ← dumpValue bounds gap depth item
    .ok (text ++ [93])
  | depth, item :: next :: rest => do
    let text ← dumpValue bounds gap depth item
    let others ← dumpItems bounds gap depth (next :: rest)
    .ok (text ++ 44 :: gap ++ others)

def dumpFields (bounds : Bounds) (gap : List Nat) :
    Nat → List (List Nat × Value F) → Except LoadFailure (List Nat)
  | _, [] => .ok [125]
  | depth, [(key, value)] => do
    let text ← dumpValue bounds gap depth value
    .ok (dumpString key ++ 58 :: gap ++ text ++ [125])
  | depth, (key, value) :: next :: rest => do
    let text ← dumpValue bounds gap depth value
    let others ← dumpFields bounds gap depth (next :: rest)
    .ok (dumpString key ++ 58 :: gap ++ text ++ 44 :: gap ++ others)

end

end Dump

section Canonical

variable {F : Type}

def sortFields (fields : List (List Nat × Value F)) : List (List Nat × Value F) :=
  fields.insertionSort fun field other => field.1 ≤ other.1

mutual

/-- The value with the keys of every object in order. -/
def Value.canonical : Value F → Value F
  | .arr items => .arr (canonicalItems items)
  | .obj fields => .obj (sortFields (canonicalFields fields))
  | value => value

def canonicalItems : List (Value F) → List (Value F)
  | [] => []
  | item :: rest => item.canonical :: canonicalItems rest

def canonicalFields : List (List Nat × Value F) → List (List Nat × Value F)
  | [] => []
  | (key, value) :: rest => (key, value.canonical) :: canonicalFields rest

end

def isScalar (c : Nat) : Bool := c < 0xd800 || (0xe000 ≤ c && c < 0x110000)

mutual

/-- Each object has each key once, and the strings are of Unicode characters. -/
def Value.Proper : Value F → Prop
  | .str text => ∀ c ∈ text, isScalar c = true
  | .arr items => ProperItems items
  | .obj fields => (fields.map Prod.fst).Nodup ∧ ProperFields fields
  | _ => True

def ProperItems : List (Value F) → Prop
  | [] => True
  | item :: rest => item.Proper ∧ ProperItems rest

def ProperFields : List (List Nat × Value F) → Prop
  | [] => True
  | (key, value) :: rest => (∀ c ∈ key, isScalar c = true) ∧ value.Proper ∧ ProperFields rest

end

end Canonical

/-- `json.dumps(value, sort_keys=True)`. -/
def dumpsSorted {F : Type} [FloatRepr F] (bounds : Bounds) (gap : List Nat) (value : Value F) :
    Except LoadFailure (List Nat) :=
  dumpValue bounds gap bounds.maxDepth value.canonical

/-! Strings. -/

theorem hexValue_hexDigit : ∀ n < 16, hexValue (hexDigit n) = some n := by decide

theorem hex4_escapeUnit {unit : Nat} (h : unit < 65536) :
    hex4 (hexDigit (unit / 4096)) (hexDigit (unit / 256 % 16)) (hexDigit (unit / 16 % 16))
      (hexDigit (unit % 16)) = some unit := by
  unfold hex4
  rw [hexValue_hexDigit _ (by omega), hexValue_hexDigit _ (by omega),
    hexValue_hexDigit _ (by omega), hexValue_hexDigit _ (by omega)]
  change some _ = some _
  congr 1
  omega

theorem readString_unit {unit : Nat} (h : unit < 65536) (hhigh : isHigh unit = false)
    (rest : List Nat) : readString none (escapeUnit unit ++ rest) =
      (readString none rest).map fun read => (unit :: read.1, read.2) := by
  unfold escapeUnit
  simp only [List.cons_append, List.nil_append]
  rw [readString, hex4_escapeUnit h]
  simp only [hhigh, Bool.false_eq_true, if_false]

/-- Two escapes, of a high and of a low surrogate, are one character. -/
theorem readString_pair {high low : Nat} (hhigh : isHigh high = true) (hlow : isLow low = true)
    (rest : List Nat) : readString none (escapeUnit high ++ (escapeUnit low ++ rest)) =
      (readString none rest).map fun read => (joinSurrogates high low :: read.1, read.2) := by
  have hh : high < 65536 := by
    simp [isHigh] at hhigh
    omega
  have hl : low < 65536 := by
    simp [isLow] at hlow
    omega
  unfold escapeUnit
  simp only [List.cons_append, List.nil_append]
  rw [readString, hex4_escapeUnit hh]
  simp only [hhigh, if_true]
  rw [readString, hex4_escapeUnit hl]
  simp only [hlow, if_true]

theorem readString_short {c letter : Nat} (h : shortEscape letter = some c) (hu : letter ≠ 117)
    (rest : List Nat) : readString none (92 :: letter :: rest) =
      (readString none rest).map fun read => (c :: read.1, read.2) := by
  rw [readString, h]
  · rfl
  · intro a b c d rest' hc
    exact absurd hc hu

theorem readString_plain {c : Nat} (h : 32 ≤ c) (hquote : c ≠ 34) (hbackslash : c ≠ 92)
    (rest : List Nat) : readString none (c :: rest) =
      (readString none rest).map fun read => (c :: read.1, read.2) := by
  rw [readString]
  · rw [if_neg (by omega)]
    rfl
  · exact hquote
  · intro a b c' d rest' hc
    exact absurd hc hbackslash
  · intro a rest' hc
    exact absurd hc hbackslash

/-- Whatever the spelling, one character is read back as itself. -/
theorem readString_char {c : Nat} (h : isScalar c = true) (rest : List Nat) :
    readString none (dumpChar c ++ rest) =
      (readString none rest).map fun read => (c :: read.1, read.2) := by
  unfold dumpChar
  split_ifs with hquote hbackslash hb hf hn hr ht hplain hunit
  · subst hquote
    exact readString_short rfl (by decide) rest
  · subst hbackslash
    exact readString_short rfl (by decide) rest
  · subst hb
    exact readString_short rfl (by decide) rest
  · subst hf
    exact readString_short rfl (by decide) rest
  · subst hn
    exact readString_short rfl (by decide) rest
  · subst hr
    exact readString_short rfl (by decide) rest
  · subst ht
    exact readString_short rfl (by decide) rest
  · exact readString_plain hplain.1 hquote hbackslash rest
  · refine readString_unit hunit ?_ rest
    simp only [isScalar, isHigh, Bool.or_eq_true, Bool.and_eq_true, decide_eq_true_eq,
      Bool.and_eq_false_iff, decide_eq_false_iff_not] at h ⊢
    omega
  · have hscalar : c < 0x110000 := by
      simp only [isScalar, Bool.or_eq_true, Bool.and_eq_true, decide_eq_true_eq] at h
      omega
    rw [List.append_assoc, readString_pair]
    · have hjoin : joinSurrogates (0xd800 + (c - 0x10000) / 0x400)
          (0xdc00 + (c - 0x10000) % 0x400) = c := by
        unfold joinSurrogates
        omega
      rw [hjoin]
    · simp only [isHigh, Bool.and_eq_true, decide_eq_true_eq]
      omega
    · simp only [isLow, Bool.and_eq_true, decide_eq_true_eq]
      omega

theorem readString_dump {text : List Nat} (h : ∀ c ∈ text, isScalar c = true) (rest : List Nat) :
    readString none (text.flatMap dumpChar ++ 34 :: rest) = .ok (text, rest) := by
  induction text with
  | nil => simp [readString]
  | cons c text ih =>
    rw [List.flatMap_cons, List.append_assoc, readString_char (h c List.mem_cons_self),
      ih fun other ho => h other (List.mem_cons_of_mem _ ho)]
    rfl

/-! Integers. -/

/-- No numeral goes on into the text. -/
def Ends (rest : List Nat) : Prop :=
  ∀ c, rest.head? = some c → isDigit c = false ∧ c ≠ 46 ∧ c ≠ 101 ∧ c ≠ 69

theorem natDigits_isDigit (n : Nat) : ∀ c ∈ natDigits n, isDigit c = true := by
  intro c hc
  unfold natDigits at hc
  split at hc
  next =>
    rw [List.mem_singleton] at hc
    subst hc
    rfl
  next =>
    rw [List.mem_reverse] at hc
    obtain ⟨digit, hdigit, rfl⟩ := List.mem_map.mp hc
    have hlt := Nat.digits_lt_base (by decide : 1 < 10) hdigit
    simp only [isDigit, Bool.and_eq_true, decide_eq_true_eq]
    omega

theorem natDigits_ne_nil (n : Nat) : natDigits n ≠ [] := by
  unfold natDigits
  split
  next => exact List.cons_ne_nil _ _
  next hn =>
    rw [ne_eq, List.reverse_eq_nil_iff, List.map_eq_nil_iff, Nat.digits_eq_nil_iff_eq_zero]
    exact hn

theorem digitsValue_natDigits (n : Nat) : digitsValue (natDigits n) = n := by
  unfold natDigits
  split
  next hn =>
    subst hn
    rfl
  next =>
    have hfold : ∀ digits : List Nat, ((digits.map (· + 48)).reverse).foldl
        (fun value c => 10 * value + (c - 48)) 0 = Nat.ofDigits 10 digits := by
      intro digits
      induction digits with
      | nil => rfl
      | cons digit rest ih =>
        rw [List.map_cons, List.reverse_cons, List.foldl_append, ih, Nat.ofDigits_cons]
        simp only [List.foldl_cons, List.foldl_nil]
        omega
    rw [digitsValue, hfold, Nat.ofDigits_digits]

/-- A numeral of more than one digit does not begin with a zero. -/
theorem natDigits_head {n : Nat} (h : (natDigits n).head? = some 48) : natDigits n = [48] := by
  unfold natDigits at h ⊢
  split
  next => rfl
  next hn =>
    rw [if_neg hn, List.head?_reverse, List.getLast?_map] at h
    obtain ⟨digit, hdigit, hzero⟩ := Option.map_eq_some_iff.mp h
    have hne := Nat.getLast_digit_ne_zero 10 hn
    rw [List.getLast?_eq_some_getLast (Nat.digits_ne_nil_iff_ne_zero.mpr hn)] at hdigit
    cases hdigit
    omega

theorem takeWhile_numeral {digits rest : List Nat} (h : ∀ c ∈ digits, isDigit c = true)
    (hrest : Ends rest) : (digits ++ rest).takeWhile isDigit = digits := by
  rw [List.takeWhile_append_of_pos h]
  cases rest with
  | nil => simp
  | cons c rest =>
    have hstop := (hrest c rfl).1
    simp [hstop]

variable {F : Type}

theorem readUnsigned_int [FloatText F] {bounds : Bounds} {n : Nat} {rest : List Nat}
    (negative : Bool) (hdigits : ¬bounds.maxDigits < (natDigits n).length) (hrest : Ends rest) :
    readUnsigned (F := F) bounds negative (natDigits n ++ rest) =
      .ok (.int (if negative then -(n : ℤ) else n), rest) := by
  have hwhole : (if (natDigits n ++ rest).head? = some 48 then [48]
      else (natDigits n ++ rest).takeWhile isDigit) = natDigits n := by
    split
    next hzero =>
      rw [List.head?_append_of_ne_nil _ (natDigits_ne_nil n)] at hzero
      exact (natDigits_head hzero).symm
    next => exact takeWhile_numeral (natDigits_isDigit n) hrest
  have hfraction : readFraction rest = none := by
    cases rest with
    | nil => rfl
    | cons c rest =>
      unfold readFraction
      split
      next heq =>
        cases heq
        exact absurd rfl (hrest 46 rfl).2.1
      next => rfl
  have hexponent : readExponent rest = none := by
    cases rest with
    | nil => rfl
    | cons c rest =>
      obtain ⟨_, _, he, hE⟩ := hrest c rfl
      have hnone : ¬(c = 101 ∨ c = 69) := not_or.mpr ⟨he, hE⟩
      simp only [readExponent, hnone, if_false]
  unfold readUnsigned
  simp only [hwhole, List.drop_left, hfraction, hexponent, Option.elim_none, Option.isNone_none,
    natDigits_ne_nil, if_false, and_self, if_true, hdigits, digitsValue_natDigits]

/-! Values. -/

/-- Every float is read back from its spelling. -/
class LawfulFloatRepr (F : Type) [FloatRepr F] : Prop where
  read_repr : ∀ (bounds : Bounds) (x : F) (rest : List Nat), Ends rest →
    readScalar bounds (FloatRepr.repr x ++ rest) = .ok (.float x, rest)
  repr_head : ∀ x : F, ∃ c tail, FloatRepr.repr x = c :: tail ∧
    (isDigit c = true ∨ c = 45 ∨ c = 78 ∨ c = 73)

theorem isSpace_iff {c : Nat} : isSpace c = true ↔ c = 32 ∨ c = 9 ∨ c = 10 ∨ c = 13 := by
  simp only [isSpace, Bool.or_eq_true, decide_eq_true_eq]
  omega

theorem isDigit_iff {c : Nat} : isDigit c = true ↔ 48 ≤ c ∧ c ≤ 57 := by
  simp only [isDigit, Bool.and_eq_true, decide_eq_true_eq]

theorem skipSpace_cons {c : Nat} (h : isSpace c = false) (rest : List Nat) :
    skipSpace (c :: rest) = c :: rest := by
  unfold skipSpace
  rw [List.dropWhile_cons_of_neg (by rw [h]; decide)]

theorem skipSpace_gap {gap : List Nat} (h : ∀ c ∈ gap, isSpace c = true) (rest : List Nat) :
    skipSpace (gap ++ rest) = skipSpace rest := by
  unfold skipSpace
  rw [List.dropWhile_append_of_pos h]

theorem ends_cons {c : Nat} (h : isDigit c = false ∧ c ≠ 46 ∧ c ≠ 101 ∧ c ≠ 69) (rest : List Nat) :
    Ends (c :: rest) := by
  intro other ho
  cases ho
  exact h

theorem readScalar_negative [FloatText F] {bounds : Bounds} {text : List Nat} (h : text.head? ≠ some 73) :
    readScalar (F := F) bounds (45 :: text) = readUnsigned bounds true text := by
  rw [readScalar]
  rintro rest rfl
  exact h rfl

theorem readScalar_digit [FloatText F] {bounds : Bounds} {c : Nat} (h : 48 ≤ c ∧ c ≤ 57)
    (text : List Nat) :
    readScalar (F := F) bounds (c :: text) = readUnsigned bounds false (c :: text) := by
  unfold readScalar
  split
  next heq => cases heq; omega
  next heq => cases heq; omega
  next heq => cases heq; omega
  next heq => cases heq; omega
  next heq => cases heq; omega
  next heq => cases heq; omega
  next heq => cases heq; omega
  next heq => cases heq; omega
  next => rfl

theorem readScalar_int [FloatText F] {bounds : Bounds} {n : ℤ} {rest : List Nat}
    (hdigits : ¬bounds.maxDigits < (natDigits n.natAbs).length) (hrest : Ends rest) :
    readScalar (F := F) bounds (dumpInt n ++ rest) = .ok (.int n, rest) := by
  obtain ⟨c, tail, hcons⟩ := List.exists_cons_of_ne_nil (natDigits_ne_nil n.natAbs)
  have hdigit : isDigit c = true := natDigits_isDigit n.natAbs c (by rw [hcons]; exact List.mem_cons_self)
  rw [isDigit_iff] at hdigit
  unfold dumpInt
  split
  next hneg =>
    rw [List.singleton_append, List.cons_append, readScalar_negative, readUnsigned_int true hdigits hrest]
    · simp only [if_true]
      congr 3
      omega
    · rw [hcons]
      simp only [List.cons_append, List.head?_cons, ne_eq, Option.some.injEq]
      omega
  next hnonneg =>
    have hread := readUnsigned_int (F := F) false hdigits hrest
    rw [hcons, List.cons_append] at hread
    rw [List.nil_append, hcons, List.cons_append, readScalar_digit hdigit, hread]
    simp only [Bool.false_eq_true, if_false]
    congr 3
    omega

theorem readValue_scalar [FloatText F] {bounds : Bounds} {c : Nat} (harray : c ≠ 91)
    (hobject : c ≠ 123) (depth : Nat) (text : List Nat) :
    readValue (F := F) bounds depth (c :: text) = readScalar bounds (c :: text) := by
  cases depth with
  | zero =>
    rw [readValue]
    · exact fun rest _ hc => harray (List.cons.inj hc).1
    · exact fun rest _ hc => hobject (List.cons.inj hc).1
    · exact fun depth rest hc => (by cases hc)
    · exact fun depth rest hc => (by cases hc)
  | succ depth =>
    rw [readValue]
    · exact fun rest hc => (by cases hc)
    · exact fun rest hc => (by cases hc)
    · exact fun _ rest _ hc => harray (List.cons.inj hc).1
    · exact fun _ rest _ hc => hobject (List.cons.inj hc).1

theorem setField_new {V : Type} {key : List Nat} {dict : List (List Nat × V)}
    (h : key ∉ dict.map Prod.fst) (value : V) : setField key value dict = dict ++ [(key, value)] := by
  induction dict with
  | nil => rfl
  | cons field rest ih =>
    rw [List.map_cons, List.mem_cons, not_or] at h
    unfold setField
    rw [if_neg fun hc => h.1 hc.symm, ih h.2]
    rfl

/-- Fields of different keys are a dict as they stand. -/
theorem dictOf_nodup {V : Type} {fields : List (List Nat × V)}
    (h : (fields.map Prod.fst).Nodup) : dictOf fields = fields := by
  have hfold : ∀ dict : List (List Nat × V), ((dict ++ fields).map Prod.fst).Nodup →
      fields.foldl (fun dict field => setField field.1 field.2 dict) dict = dict ++ fields := by
    clear h
    induction fields with
    | nil => exact fun dict _ => (List.append_nil dict).symm
    | cons field rest ih =>
      intro dict hnodup
      have hnew : field.1 ∉ dict.map Prod.fst := by
        rw [List.map_append, List.nodup_append] at hnodup
        exact fun hc => hnodup.2.2 _ hc _ List.mem_cons_self rfl
      rw [List.foldl_cons, setField_new hnew, ih]
      · rw [List.append_assoc]
        rfl
      · rw [List.append_assoc]
        exact hnodup
  exact hfold [] h

section RoundTrip

variable [FloatRepr F] [LawfulFloatRepr F] {bounds : Bounds} {gap : List Nat}

omit [LawfulFloatRepr F] in
theorem dumpInt_head (n : ℤ) : ∃ c tail, dumpInt n = c :: tail ∧ (c = 45 ∨ isDigit c = true) := by
  obtain ⟨c, tail, hcons⟩ := List.exists_cons_of_ne_nil (natDigits_ne_nil n.natAbs)
  unfold dumpInt
  split
  next => exact ⟨45, natDigits n.natAbs, rfl, .inl rfl⟩
  next =>
    refine ⟨c, tail, hcons, .inr (natDigits_isDigit n.natAbs c ?_)⟩
    rw [hcons]
    exact List.mem_cons_self

/-- What a value's text begins with: a character of ASCII, no space and no closing bracket. -/
theorem dumpValue_head {depth : Nat} {value : Value F} {text : List Nat}
    (h : dumpValue bounds gap depth value = .ok text) :
    ∃ c tail, text = c :: tail ∧ isSpace c = false ∧ c ≠ 93 ∧ c < 125 := by
  cases value with
  | null =>
    rw [dumpValue] at h
    cases h
    exact ⟨_, _, rfl, by decide, by decide, by decide⟩
  | bool value =>
    cases value with
    | true | false =>
      rw [dumpValue] at h
      cases h
      exact ⟨_, _, rfl, by decide, by decide, by decide⟩
  | int n =>
    rw [dumpValue] at h
    split at h
    next => cases h
    next =>
      cases h
      obtain ⟨c, tail, hcons, hc⟩ := dumpInt_head n
      refine ⟨c, tail, hcons, ?_, ?_, ?_⟩
      · rw [← Bool.not_eq_true, isSpace_iff]
        rw [isDigit_iff] at hc
        omega
      · rw [isDigit_iff] at hc
        omega
      · rw [isDigit_iff] at hc
        omega
  | float x =>
    rw [dumpValue] at h
    cases h
    obtain ⟨c, tail, hcons, hc⟩ := LawfulFloatRepr.repr_head x
    rw [isDigit_iff] at hc
    refine ⟨c, tail, hcons, ?_, by omega, by omega⟩
    rw [← Bool.not_eq_true, isSpace_iff]
    omega
  | str value =>
    rw [dumpValue] at h
    cases h
    exact ⟨34, _, rfl, by decide, by decide, by decide⟩
  | arr items =>
    cases depth with
    | zero =>
      rw [dumpValue] at h
      cases h
    | succ depth =>
      rw [dumpValue] at h
      obtain ⟨inner, _, h⟩ := ExceptRules.bind_ok h
      cases h
      exact ⟨91, inner, rfl, by decide, by decide, by decide⟩
  | obj fields =>
    cases depth with
    | zero =>
      rw [dumpValue] at h
      cases h
    | succ depth =>
      rw [dumpValue] at h
      obtain ⟨inner, _, h⟩ := ExceptRules.bind_ok h
      cases h
      exact ⟨123, inner, rfl, by decide, by decide, by decide⟩

theorem skipSpace_dump {depth : Nat} {value : Value F} {text : List Nat}
    (h : dumpValue bounds gap depth value = .ok text) (rest : List Nat) :
    skipSpace (text ++ rest) = text ++ rest := by
  obtain ⟨c, tail, rfl, hspace, _⟩ := dumpValue_head h
  exact skipSpace_cons hspace _

omit [LawfulFloatRepr F] in
theorem dumpItems_length {depth : Nat} {items : List (Value F)} {text : List Nat}
    (h : dumpItems bounds gap depth items = .ok text) : items.length ≤ text.length := by
  induction items generalizing text with
  | nil => exact Nat.zero_le _
  | cons item rest ih =>
    cases rest with
    | nil =>
      rw [dumpItems] at h
      obtain ⟨inner, _, h⟩ := ExceptRules.bind_ok h
      cases h
      rw [List.length_append]
      simp
    | cons next rest =>
      rw [dumpItems] at h
      obtain ⟨inner, _, h⟩ := ExceptRules.bind_ok h
      obtain ⟨others, hothers, h⟩ := ExceptRules.bind_ok h
      cases h
      have hle := ih hothers
      simp only [List.length_append, List.length_cons] at hle ⊢
      omega

omit [LawfulFloatRepr F] in
theorem dumpFields_length {depth : Nat} {fields : List (List Nat × Value F)} {text : List Nat}
    (h : dumpFields bounds gap depth fields = .ok text) : fields.length ≤ text.length := by
  induction fields generalizing text with
  | nil => exact Nat.zero_le _
  | cons field rest ih =>
    obtain ⟨key, value⟩ := field
    cases rest with
    | nil =>
      rw [dumpFields] at h
      obtain ⟨inner, _, h⟩ := ExceptRules.bind_ok h
      cases h
      rw [List.length_append]
      simp
    | cons next rest =>
      rw [dumpFields] at h
      obtain ⟨inner, _, h⟩ := ExceptRules.bind_ok h
      obtain ⟨others, hothers, h⟩ := ExceptRules.bind_ok h
      cases h
      have hle := ih hothers
      simp only [List.length_append, List.length_cons] at hle ⊢
      omega

end RoundTrip

section Loops

variable {V : Type} {value : List Nat → Except LoadFailure (V × List Nat)} {fuel : Nat}
  {gap text rest more key : List Nat} {item : V}

theorem readItems_last (h : value text = .ok (item, 93 :: rest)) :
    readItems value (fuel + 1) text = .ok ([item], rest) := by
  rw [readItems, h, ExceptRules.ok_bind]
  simp only [skipSpace_cons (by decide : isSpace 93 = false)]

theorem readItems_next {items : List V} (h : value text = .ok (item, 44 :: more))
    (hrest : readItems value fuel (skipSpace more) = .ok (items, rest)) :
    readItems value (fuel + 1) text = .ok (item :: items, rest) := by
  rw [readItems, h, ExceptRules.ok_bind]
  simp only [skipSpace_cons (by decide : isSpace 44 = false)]
  rw [hrest]
  rfl

theorem readFields_last (hkey : ∀ c ∈ key, isScalar c = true) (hgap : ∀ c ∈ gap, isSpace c = true)
    (h : value (skipSpace text) = .ok (item, 125 :: rest)) :
    readFields value (fuel + 1) (dumpString key ++ (58 :: (gap ++ text))) =
      .ok ([(key, item)], rest) := by
  have htext : dumpString key ++ (58 :: (gap ++ text)) =
      34 :: (key.flatMap dumpChar ++ 34 :: (58 :: (gap ++ text))) := by
    simp [dumpString]
  rw [htext, readFields, readString_dump hkey, ExceptRules.ok_bind]
  simp only [skipSpace_cons (by decide : isSpace 58 = false), skipSpace_gap hgap]
  rw [h, ExceptRules.ok_bind]
  simp only [skipSpace_cons (by decide : isSpace 125 = false)]

theorem readFields_next {fields : List (List Nat × V)} (hkey : ∀ c ∈ key, isScalar c = true)
    (hgap : ∀ c ∈ gap, isSpace c = true) (h : value (skipSpace text) = .ok (item, 44 :: more))
    (hrest : readFields value fuel (skipSpace more) = .ok (fields, rest)) :
    readFields value (fuel + 1) (dumpString key ++ (58 :: (gap ++ text))) =
      .ok ((key, item) :: fields, rest) := by
  have htext : dumpString key ++ (58 :: (gap ++ text)) =
      34 :: (key.flatMap dumpChar ++ 34 :: (58 :: (gap ++ text))) := by
    simp [dumpString]
  rw [htext, readFields, readString_dump hkey, ExceptRules.ok_bind]
  simp only [skipSpace_cons (by decide : isSpace 58 = false), skipSpace_gap hgap]
  rw [h, ExceptRules.ok_bind]
  simp only [skipSpace_cons (by decide : isSpace 44 = false)]
  rw [hrest]
  rfl

end Loops

section RoundTrip

variable [FloatRepr F] [LawfulFloatRepr F] {bounds : Bounds} {gap : List Nat}

omit [LawfulFloatRepr F] in
/-- What the items of an array begin with. -/
theorem dumpItems_cons {depth : Nat} {item : Value F} {others : List (Value F)} {text : List Nat}
    (h : dumpItems bounds gap depth (item :: others) = .ok text) :
    ∃ inner tail, dumpValue bounds gap depth item = .ok inner ∧ text = inner ++ tail ∧
      ((others = [] ∧ tail = [93]) ∨ ∃ more, others ≠ [] ∧ tail = 44 :: (gap ++ more) ∧
        dumpItems bounds gap depth others = .ok more) := by
  cases others with
  | nil =>
    rw [dumpItems] at h
    obtain ⟨inner, hinner, h⟩ := ExceptRules.bind_ok h
    cases h
    exact ⟨inner, [93], hinner, rfl, .inl ⟨rfl, rfl⟩⟩
  | cons next rest =>
    rw [dumpItems] at h
    obtain ⟨inner, hinner, h⟩ := ExceptRules.bind_ok h
    obtain ⟨more, hmore, h⟩ := ExceptRules.bind_ok h
    cases h
    exact ⟨inner, 44 :: (gap ++ more), hinner, by simp,
      .inr ⟨more, List.cons_ne_nil _ _, rfl, hmore⟩⟩

omit [LawfulFloatRepr F] in
theorem dumpFields_cons {depth : Nat} {key : List Nat} {value : Value F}
    {others : List (List Nat × Value F)} {text : List Nat}
    (h : dumpFields bounds gap depth ((key, value) :: others) = .ok text) :
    ∃ inner tail, dumpValue bounds gap depth value = .ok inner ∧
      text = dumpString key ++ (58 :: (gap ++ (inner ++ tail))) ∧
      ((others = [] ∧ tail = [125]) ∨ ∃ more, others ≠ [] ∧ tail = 44 :: (gap ++ more) ∧
        dumpFields bounds gap depth others = .ok more) := by
  cases others with
  | nil =>
    rw [dumpFields] at h
    obtain ⟨inner, hinner, h⟩ := ExceptRules.bind_ok h
    cases h
    exact ⟨inner, [125], hinner, by simp, .inl ⟨rfl, rfl⟩⟩
  | cons next rest =>
    rw [dumpFields] at h
    obtain ⟨inner, hinner, h⟩ := ExceptRules.bind_ok h
    obtain ⟨more, hmore, h⟩ := ExceptRules.bind_ok h
    cases h
    exact ⟨inner, 44 :: (gap ++ more), hinner, by simp,
      .inr ⟨more, List.cons_ne_nil _ _, rfl, hmore⟩⟩

theorem dumpItems_head {depth : Nat} {items : List (Value F)} {text : List Nat} (hne : items ≠ [])
    (h : dumpItems bounds gap depth items = .ok text) (rest : List Nat) :
    ∃ c tail, text ++ rest = c :: tail ∧ isSpace c = false ∧ c ≠ 93 := by
  obtain ⟨item, others, rfl⟩ := List.exists_cons_of_ne_nil hne
  obtain ⟨inner, tail, hinner, rfl, _⟩ := dumpItems_cons h
  obtain ⟨c, front, rfl, hspace, hclose, _⟩ := dumpValue_head hinner
  exact ⟨c, _, rfl, hspace, hclose⟩

omit [LawfulFloatRepr F] in
theorem dumpFields_head {depth : Nat} {fields : List (List Nat × Value F)} {text : List Nat}
    (hne : fields ≠ []) (h : dumpFields bounds gap depth fields = .ok text) (rest : List Nat) :
    ∃ tail, text ++ rest = 34 :: tail := by
  obtain ⟨⟨key, value⟩, others, rfl⟩ := List.exists_cons_of_ne_nil hne
  obtain ⟨inner, tail, _, rfl, _⟩ := dumpFields_cons h
  exact ⟨_, rfl⟩

theorem ends_after (tail : List Nat) {c : Nat} (h : c = 44 ∨ c = 93 ∨ c = 125) :
    Ends (c :: tail) := by
  refine ends_cons ?_ tail
  rcases h with rfl | rfl | rfl <;> decide

mutual

/-- A value is read back from its text, whatever follows that no numeral goes on into. -/
theorem readValue_dump (hgap : ∀ c ∈ gap, isSpace c = true) :
    ∀ (value : Value F) (depth : Nat) (text rest : List Nat), value.Proper → Ends rest →
    dumpValue bounds gap depth value = .ok text →
    readValue bounds depth (text ++ rest) = .ok (value, rest)
  | .null, depth, text, rest, _, _, h => by
    rw [dumpValue] at h
    cases h
    exact readValue_scalar (by decide) (by decide) depth _
  | .bool true, depth, text, rest, _, _, h => by
    rw [dumpValue] at h
    cases h
    exact readValue_scalar (by decide) (by decide) depth _
  | .bool false, depth, text, rest, _, _, h => by
    rw [dumpValue] at h
    cases h
    exact readValue_scalar (by decide) (by decide) depth _
  | .int n, depth, text, rest, _, hrest, h => by
    rw [dumpValue] at h
    obtain ⟨hdigits, h⟩ := ExceptRules.ite_error_ok h
    cases h
    obtain ⟨c, tail, hcons, hc⟩ := dumpInt_head n
    have hread := readScalar_int (F := F) hdigits hrest
    rw [isDigit_iff] at hc
    rw [hcons, List.cons_append] at hread ⊢
    rw [readValue_scalar (by omega) (by omega), hread]
  | .float x, depth, text, rest, _, hrest, h => by
    rw [dumpValue] at h
    cases h
    obtain ⟨c, tail, hcons, hc⟩ := LawfulFloatRepr.repr_head x
    have hread := LawfulFloatRepr.read_repr bounds x rest hrest
    rw [isDigit_iff] at hc
    rw [hcons, List.cons_append] at hread ⊢
    rw [readValue_scalar (by omega) (by omega), hread]
  | .str value, depth, text, rest, hproper, _, h => by
    rw [dumpValue] at h
    cases h
    have htext : dumpString value ++ rest = 34 :: (value.flatMap dumpChar ++ 34 :: rest) := by
      simp [dumpString]
    rw [htext, readValue_scalar (by decide) (by decide), readScalar, readString_dump hproper]
    rfl
  | .arr items, 0, text, rest, _, _, h => by
    rw [dumpValue] at h
    cases h
  | .obj fields, 0, text, rest, _, _, h => by
    rw [dumpValue] at h
    cases h
  | .arr [], depth + 1, text, rest, _, _, h => by
    rw [dumpValue, dumpItems] at h
    cases h
    rfl
  | .arr (item :: others), depth + 1, text, rest, hproper, _, h => by
    rw [dumpValue] at h
    obtain ⟨inner, hinner, h⟩ := ExceptRules.bind_ok h
    cases h
    obtain ⟨c, tail, hcons, hspace, hclose⟩ := dumpItems_head (List.cons_ne_nil _ _) hinner rest
    have hlength := dumpItems_length hinner
    have hread := readItems_dump hgap (item :: others) depth (inner ++ rest).length inner rest
      (List.cons_ne_nil _ _) (by rw [List.length_append]; omega) hproper hinner
    rw [List.cons_append, readValue, hcons, skipSpace_cons hspace]
    rw [hcons] at hread
    split
    next heq => exact absurd (List.cons.inj heq).1 hclose
    next =>
      rw [hread]
      rfl
  | .obj [], depth + 1, text, rest, _, _, h => by
    rw [dumpValue, dumpFields] at h
    cases h
    rfl
  | .obj ((key, value) :: others), depth + 1, text, rest, hproper, _, h => by
    rw [dumpValue] at h
    obtain ⟨inner, hinner, h⟩ := ExceptRules.bind_ok h
    cases h
    obtain ⟨tail, hcons⟩ := dumpFields_head (List.cons_ne_nil _ _) hinner rest
    have hlength := dumpFields_length hinner
    have hread := readFields_dump hgap ((key, value) :: others) depth (inner ++ rest).length inner rest
      (List.cons_ne_nil _ _) (by rw [List.length_append]; omega) hproper.2 hinner
    rw [List.cons_append, readValue, hcons, skipSpace_cons (by decide)]
    rw [hcons] at hread
    split
    next heq => exact absurd (List.cons.inj heq).1 (by decide)
    next =>
      rw [hread]
      change Except.ok (Value.obj (dictOf _), rest) = _
      rw [dictOf_nodup hproper.1]

theorem readItems_dump (hgap : ∀ c ∈ gap, isSpace c = true) :
    ∀ (items : List (Value F)) (depth fuel : Nat) (text rest : List Nat),
    items ≠ [] → items.length ≤ fuel → ProperItems items →
    dumpItems bounds gap depth items = .ok text →
    readItems (readValue bounds depth) fuel (text ++ rest) = .ok (items, rest)
  | [], _, _, _, _, hne, _, _, _ => absurd rfl hne
  | item :: others, depth, fuel, text, rest, _, hfuel, hproper, h => by
    obtain ⟨fuel, rfl⟩ := Nat.exists_eq_succ_of_ne_zero
      (Nat.ne_of_gt (lt_of_lt_of_le (Nat.succ_pos _) hfuel))
    obtain ⟨inner, tail, hinner, rfl, htail⟩ := dumpItems_cons h
    rw [List.append_assoc]
    rcases htail with ⟨rfl, rfl⟩ | ⟨more, hne, rfl, hmore⟩
    · exact readItems_last (readValue_dump hgap item depth inner _ hproper.1
        (ends_after _ (by decide)) hinner)
    · rw [List.cons_append, List.append_assoc]
      refine readItems_next (readValue_dump hgap item depth inner _ hproper.1
        (ends_after _ (by decide)) hinner) ?_
      obtain ⟨c, tail, hcons, hspace, _⟩ := dumpItems_head hne hmore rest
      rw [skipSpace_gap hgap, hcons, skipSpace_cons hspace, ← hcons]
      exact readItems_dump hgap others depth fuel more rest hne (Nat.le_of_succ_le_succ hfuel)
        hproper.2 hmore

theorem readFields_dump (hgap : ∀ c ∈ gap, isSpace c = true) :
    ∀ (fields : List (List Nat × Value F)) (depth fuel : Nat) (text rest : List Nat),
    fields ≠ [] → fields.length ≤ fuel → ProperFields fields →
    dumpFields bounds gap depth fields = .ok text →
    readFields (readValue bounds depth) fuel (text ++ rest) = .ok (fields, rest)
  | [], _, _, _, _, hne, _, _, _ => absurd rfl hne
  | (key, value) :: others, depth, fuel, text, rest, _, hfuel, hproper, h => by
    obtain ⟨fuel, rfl⟩ := Nat.exists_eq_succ_of_ne_zero
      (Nat.ne_of_gt (lt_of_lt_of_le (Nat.succ_pos _) hfuel))
    obtain ⟨inner, tail, hinner, rfl, htail⟩ := dumpFields_cons h
    obtain ⟨hkey, hvalue, hothers⟩ := hproper
    rw [List.append_assoc, List.cons_append, List.append_assoc, List.append_assoc]
    rcases htail with ⟨rfl, rfl⟩ | ⟨more, hne, rfl, hmore⟩
    · refine readFields_last hkey hgap ?_
      rw [skipSpace_dump hinner]
      exact readValue_dump hgap value depth inner _ hvalue (ends_after _ (by decide)) hinner
    · rw [List.cons_append, List.append_assoc]
      obtain ⟨tail, hcons⟩ := dumpFields_head hne hmore rest
      have hread := readValue_dump hgap value depth inner (44 :: (gap ++ (more ++ rest))) hvalue
        (ends_after _ (by decide)) hinner
      rw [← skipSpace_dump hinner] at hread
      refine readFields_next hkey hgap hread ?_
      rw [skipSpace_gap hgap, hcons, skipSpace_cons (by decide), ← hcons]
      exact readFields_dump hgap others depth fuel more rest hne (Nat.le_of_succ_le_succ hfuel)
        hothers hmore

end

end RoundTrip

section Canonical

theorem properFields_iff {fields : List (List Nat × Value F)} : ProperFields fields ↔
    ∀ field ∈ fields, (∀ c ∈ field.1, isScalar c = true) ∧ field.2.Proper := by
  induction fields with
  | nil => simp [ProperFields]
  | cons field rest ih =>
    obtain ⟨key, value⟩ := field
    rw [ProperFields, ih, List.forall_mem_cons, and_assoc]

theorem canonicalFields_eq (fields : List (List Nat × Value F)) :
    canonicalFields fields = fields.map fun field => (field.1, field.2.canonical) := by
  induction fields with
  | nil => rfl
  | cons field rest ih =>
    obtain ⟨key, value⟩ := field
    rw [canonicalFields, ih]
    rfl

theorem sortFields_perm (fields : List (List Nat × Value F)) : (sortFields fields).Perm fields :=
  List.perm_insertionSort _ fields

mutual

theorem canonical_proper : ∀ {value : Value F}, value.Proper → value.canonical.Proper
  | .null, h => h
  | .bool _, h => h
  | .int _, h => h
  | .float _, h => h
  | .str _, h => h
  | .arr items, h => canonicalItems_proper h
  | .obj fields, h => by
    obtain ⟨hkeys, hfields⟩ := h
    have hperm := sortFields_perm (canonicalFields fields)
    refine ⟨?_, ?_⟩
    · rw [(hperm.map Prod.fst).nodup_iff, canonicalFields_eq, List.map_map]
      exact hkeys
    · rw [properFields_iff]
      intro field hfield
      exact properFields_iff.mp (canonicalFields_proper hfields) field (hperm.mem_iff.mp hfield)

theorem canonicalItems_proper : ∀ {items : List (Value F)}, ProperItems items →
    ProperItems (canonicalItems items)
  | [], h => h
  | _ :: _, h => ⟨canonical_proper h.1, canonicalItems_proper h.2⟩

theorem canonicalFields_proper : ∀ {fields : List (List Nat × Value F)}, ProperFields fields →
    ProperFields (canonicalFields fields)
  | [], h => h
  | (_, _) :: _, h => ⟨h.1, canonical_proper h.2.1, canonicalFields_proper h.2.2⟩

end

theorem sortFields_canonical (fields : List (List Nat × Value F)) :
    canonicalFields (sortFields fields) = sortFields (canonicalFields fields) := by
  rw [canonicalFields_eq, canonicalFields_eq]
  exact List.map_insertionSort _ _ _ fields fun _ _ _ _ => Iff.rfl

theorem sortFields_sorted (fields : List (List Nat × Value F)) :
    sortFields (sortFields fields) = sortFields fields := by
  have htotal : Std.Total fun field other : List Nat × Value F => field.1 ≤ other.1 :=
    ⟨fun field other => le_total field.1 other.1⟩
  have htrans : IsTrans _ fun field other : List Nat × Value F => field.1 ≤ other.1 :=
    ⟨fun _ _ _ hab hbc => le_trans hab hbc⟩
  exact (List.pairwise_insertionSort _ fields).insertionSort_eq

/-- Values that agree but for the order of their keys, as dicts do in Python. -/
def Value.Same (value other : Value F) : Prop := value.canonical = other.canonical

mutual

theorem canonical_canonical : ∀ value : Value F, value.canonical.canonical = value.canonical
  | .null => rfl
  | .bool _ => rfl
  | .int _ => rfl
  | .float _ => rfl
  | .str _ => rfl
  | .arr items => congrArg Value.arr (canonicalItems_canonical items)
  | .obj fields => by
    change Value.obj (sortFields (canonicalFields (sortFields (canonicalFields fields)))) =
      Value.obj (sortFields (canonicalFields fields))
    rw [sortFields_canonical, canonicalFields_canonical fields, sortFields_sorted]

theorem canonicalItems_canonical : ∀ items : List (Value F),
    canonicalItems (canonicalItems items) = canonicalItems items
  | [] => rfl
  | item :: rest => by
    rw [canonicalItems, canonicalItems, canonical_canonical item, canonicalItems_canonical rest]

theorem canonicalFields_canonical : ∀ fields : List (List Nat × Value F),
    canonicalFields (canonicalFields fields) = canonicalFields fields
  | [] => rfl
  | (key, value) :: rest => by
    rw [canonicalFields, canonicalFields, canonical_canonical value, canonicalFields_canonical rest]

end

end Canonical

/-- Decoding what was encoded gives the value, its keys in order. -/
theorem loads_dumps [FloatRepr F] [LawfulFloatRepr F] {bounds : Bounds} {gap : List Nat}
    {value : Value F} {text : List Nat} (hgap : ∀ c ∈ gap, isSpace c = true)
    (hproper : value.Proper) (h : dumpsSorted bounds gap value = .ok text) :
    loads bounds text = .ok value.canonical := by
  have hends : Ends [] := fun c hc => (by cases hc)
  have hread := readValue_dump hgap value.canonical bounds.maxDepth text [] (canonical_proper hproper)
    hends h
  have hskip := skipSpace_dump h []
  rw [List.append_nil] at hread hskip
  obtain ⟨c, tail, rfl, _, _, hascii⟩ := dumpValue_head h
  unfold loads
  rw [if_neg, hskip, hread]
  · rfl
  · rw [List.head?_cons, Option.some.injEq]
    omega

end JsonText
