import Mathlib.Data.Rat.Defs
import Mathlib.Algebra.Order.Field.Rat
import Mathlib.Algebra.GroupWithZero.Basic

/-! JSON documents as the text of code points: the values they denote, and what decoding makes
of any text at all. -/

namespace JsonText

/-- The floats that numerals with a fraction or an exponent, and the three constants, denote. -/
class FloatText (F : Type) where
  ofDecimal : ℚ → F
  nan : F
  inf (negative : Bool) : F

/-- A decoded document. A string is its code points, lone surrogates included. -/
inductive Value (F : Type) where
  | null
  | bool (value : Bool)
  | int (value : ℤ)
  | float (value : F)
  | str (text : List Nat)
  | arr (items : List (Value F))
  | obj (fields : List (List Nat × Value F))

/-- Why decoding fails: the text is not JSON, an integer has too many digits, or the brackets
nest too deeply. -/
inductive LoadFailure where
  | notJson
  | tooManyDigits
  | tooDeep
  deriving DecidableEq, Repr

/-- What is read from the front of a text, and the rest of it. -/
abbrev Read (α : Type) := Except LoadFailure (α × List Nat)

/-- The bounds of the interpreter: the digits of an integer, and the depth of brackets. -/
structure Bounds where
  maxDigits : Nat
  maxDepth : Nat

def isSpace (c : Nat) : Bool := c = 32 || c = 9 || c = 10 || c = 13

def skipSpace (text : List Nat) : List Nat := text.dropWhile isSpace

def isDigit (c : Nat) : Bool := 48 ≤ c && c ≤ 57

def digitsValue (digits : List Nat) : Nat := digits.foldl (fun value c => 10 * value + (c - 48)) 0

def hexValue (c : Nat) : Option Nat :=
  if 48 ≤ c ∧ c ≤ 57 then some (c - 48)
  else if 97 ≤ c ∧ c ≤ 102 then some (c - 87)
  else if 65 ≤ c ∧ c ≤ 70 then some (c - 55)
  else none

def hex4 (a b c d : Nat) : Option Nat := do
  let a ← hexValue a
  let b ← hexValue b
  let c ← hexValue c
  let d ← hexValue d
  pure (((a * 16 + b) * 16 + c) * 16 + d)

/-- The character of an escape of one letter. -/
def shortEscape (c : Nat) : Option Nat :=
  if c = 34 then some 34
  else if c = 92 then some 92
  else if c = 47 then some 47
  else if c = 98 then some 8
  else if c = 102 then some 12
  else if c = 110 then some 10
  else if c = 114 then some 13
  else if c = 116 then some 9
  else none

def isHigh (c : Nat) : Bool := 0xd800 ≤ c && c ≤ 0xdbff

def isLow (c : Nat) : Bool := 0xdc00 ≤ c && c ≤ 0xdfff

def joinSurrogates (high low : Nat) : Nat := 0x10000 + (high - 0xd800) * 0x400 + (low - 0xdc00)

/-- The rest of a string after its opening quote. `pending` is a high surrogate of the escape just
read, which the low one of the next escape would complete. -/
def readString : Option Nat → List Nat → Read (List Nat)
  | _, [] => .error .notJson
  | pending, 34 :: rest => .ok (pending.toList, rest)
  | pending, 92 :: 117 :: a :: b :: c :: d :: rest =>
    match hex4 a b c d with
    | none => .error .notJson
    | some unit =>
      match pending with
      | some high =>
        if isLow unit then
          (readString none rest).map fun read => (joinSurrogates high unit :: read.1, read.2)
        else if isHigh unit then
          (readString (some unit) rest).map fun read => (high :: read.1, read.2)
        else (readString none rest).map fun read => (high :: unit :: read.1, read.2)
      | none =>
        if isHigh unit then readString (some unit) rest
        else (readString none rest).map fun read => (unit :: read.1, read.2)
  | pending, 92 :: c :: rest =>
    match shortEscape c with
    | none => .error .notJson
    | some c => (readString none rest).map fun read => (pending.toList ++ c :: read.1, read.2)
  | pending, c :: rest =>
    if c < 32 ∨ c = 92 then .error .notJson
    else (readString none rest).map fun read => (pending.toList ++ c :: read.1, read.2)

/-- A fraction, if digits follow the point. -/
def readFraction : List Nat → Option (List Nat × List Nat)
  | 46 :: rest =>
    if rest.takeWhile isDigit = [] then none
    else some (rest.takeWhile isDigit, rest.dropWhile isDigit)
  | _ => none

/-- An exponent, if digits follow its sign. -/
def readExponent : List Nat → Option (ℤ × List Nat)
  | c :: rest =>
    if c = 101 ∨ c = 69 then
      let negative := rest.head? = some 45
      let digits := if rest.head? = some 45 ∨ rest.head? = some 43 then rest.tail else rest
      if digits.takeWhile isDigit = [] then none
      else
        let value : ℤ := digitsValue (digits.takeWhile isDigit)
        some (if negative then -value else value, digits.dropWhile isDigit)
    else none
  | [] => none

def decimal (whole fraction : List Nat) (exponent : ℤ) : ℚ :=
  digitsValue (whole ++ fraction) * (10 : ℚ) ^ (exponent - fraction.length)

/-- A numeral from its first digit on. -/
def readUnsigned {F : Type} [FloatText F] (bounds : Bounds) (negative : Bool) (text : List Nat) :
    Read (Value F) :=
  let whole := if text.head? = some 48 then [48] else text.takeWhile isDigit
  let rest := text.drop whole.length
  let fraction := readFraction rest
  let afterFraction := fraction.elim rest Prod.snd
  let exponent := readExponent afterFraction
  if whole = [] then .error .notJson
  else if fraction.isNone ∧ exponent.isNone then
    if bounds.maxDigits < whole.length then .error .tooManyDigits
    else
      let value : ℤ := digitsValue whole
      .ok (.int (if negative then -value else value), rest)
  else
    let value := decimal whole (fraction.elim [] Prod.fst) (exponent.elim 0 Prod.fst)
    .ok (.float (FloatText.ofDecimal (if negative then -value else value)),
      exponent.elim afterFraction Prod.snd)

/-- A value that is no array and no object. -/
def readScalar {F : Type} [FloatText F] (bounds : Bounds) : List Nat → Read (Value F)
  | 34 :: rest => (readString none rest).map fun read => (.str read.1, read.2)
  | 110 :: 117 :: 108 :: 108 :: rest => .ok (.null, rest)
  | 116 :: 114 :: 117 :: 101 :: rest => .ok (.bool true, rest)
  | 102 :: 97 :: 108 :: 115 :: 101 :: rest => .ok (.bool false, rest)
  | 78 :: 97 :: 78 :: rest => .ok (.float FloatText.nan, rest)
  | 73 :: 110 :: 102 :: 105 :: 110 :: 105 :: 116 :: 121 :: rest =>
    .ok (.float (FloatText.inf false), rest)
  | 45 :: 73 :: 110 :: 102 :: 105 :: 110 :: 105 :: 116 :: 121 :: rest =>
    .ok (.float (FloatText.inf true), rest)
  | 45 :: rest => readUnsigned bounds true rest
  | text => readUnsigned bounds false text

/-- The items of an array from the first on. Each takes at least one character, so the text's own
length bounds their number. -/
def readItems {V : Type} (value : List Nat → Except LoadFailure (V × List Nat)) :
    Nat → List Nat → Except LoadFailure (List V × List Nat)
  | 0, _ => .error .notJson
  | fuel + 1, text => do
    let (item, rest) ← value text
    match skipSpace rest with
    | 93 :: rest => .ok ([item], rest)
    | 44 :: rest =>
      let (items, rest) ← readItems value fuel (skipSpace rest)
      .ok (item :: items, rest)
    | _ => .error .notJson

/-- The fields of an object from the first on. -/
def readFields {V : Type} (value : List Nat → Except LoadFailure (V × List Nat)) :
    Nat → List Nat → Except LoadFailure (List (List Nat × V) × List Nat)
  | 0, _ => .error .notJson
  | fuel + 1, 34 :: text => do
    let (key, rest) ← (readString none text : Except LoadFailure (List Nat × List Nat))
    match skipSpace rest with
    | 58 :: rest =>
      let (item, rest) ← value (skipSpace rest)
      match skipSpace rest with
      | 125 :: rest => .ok ([(key, item)], rest)
      | 44 :: rest =>
        let (fields, rest) ← readFields value fuel (skipSpace rest)
        .ok ((key, item) :: fields, rest)
      | _ => .error .notJson
    | _ => .error .notJson
  | _, _ => .error .notJson

/-- `d[key] = value`: a key that is there keeps its place. -/
def setField {V : Type} (key : List Nat) (value : V) :
    List (List Nat × V) → List (List Nat × V)
  | [] => [(key, value)]
  | (other, old) :: rest =>
    if other = key then (key, value) :: rest else (other, old) :: setField key value rest

def dictOf {V : Type} (fields : List (List Nat × V)) : List (List Nat × V) :=
  fields.foldl (fun dict field => setField field.1 field.2 dict) []

/-- A value, with so many brackets yet to open. -/
def readValue {F : Type} [FloatText F] (bounds : Bounds) : Nat → List Nat → Read (Value F)
  | 0, 91 :: _ => .error .tooDeep
  | 0, 123 :: _ => .error .tooDeep
  | depth + 1, 91 :: rest =>
    match skipSpace rest with
    | 93 :: rest => .ok (.arr [], rest)
    | text => (readItems (readValue bounds depth) text.length text).map
        fun read => (.arr read.1, read.2)
  | depth + 1, 123 :: rest =>
    match skipSpace rest with
    | 125 :: rest => .ok (.obj [], rest)
    | text => (readFields (readValue bounds depth) text.length text).map
        fun read => (.obj (dictOf read.1), read.2)
  | _, text => readScalar bounds text

/-- `json.loads`. -/
def loads {F : Type} [FloatText F] (bounds : Bounds) (text : List Nat) :
    Except LoadFailure (Value F) :=
  if text.head? = some 0xfeff then .error .notJson
  else do
    let (value, rest) ←
      (readValue bounds bounds.maxDepth (skipSpace text) : Except LoadFailure (Value F × List Nat))
    if skipSpace rest = [] then .ok value else .error .notJson

end JsonText
