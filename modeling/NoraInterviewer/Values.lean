import Mathlib.Data.Rat.Defs
import Mathlib.Data.List.Infix
import Mathlib.Data.List.Nodup

namespace NoraInterviewer

/-- JSON values, as the `Any` entries of payload and metadata dicts hold them.
Floats are exact rationals. -/
inductive Json where
  | null
  | bool (value : Bool)
  | num (value : ℚ)
  | str (value : String)
  | arr (items : List Json)
  | obj (fields : List (String × Json))

/-- A Python dict with string keys, in insertion order. -/
abbrev Dict (α : Type) := List (String × α)

namespace Dict

variable {α : Type}

/-- `d[key] = value`: overwrite in place, or append a new key. -/
def set (key : String) (value : α) : Dict α → Dict α
  | [] => [(key, value)]
  | (k, v) :: rest => if k = key then (key, value) :: rest else (k, v) :: set key value rest

/-- `d.setdefault(key, value)`. -/
def setDefault (key : String) (value : α) (d : Dict α) : Dict α :=
  if (d.lookup key).isSome then d else d ++ [(key, value)]

theorem lookup_set_self (key : String) (value : α) (d : Dict α) :
    (set key value d).lookup key = some value := by
  induction d with
  | nil => simp [set]
  | cons entry rest ih =>
    obtain ⟨k, v⟩ := entry
    by_cases h : k = key
    · simp [set, h]
    · have hne : (key == k) = false := by simpa using fun e => h e.symm
      simp [set, h, List.lookup_cons, hne, ih]

theorem lookup_set_ne {key other : String} (h : other ≠ key) (value : α) (d : Dict α) :
    (set key value d).lookup other = d.lookup other := by
  have hok : (other == key) = false := by simpa using h
  induction d with
  | nil => simp [set, List.lookup_cons, hok]
  | cons entry rest ih =>
    obtain ⟨k, v⟩ := entry
    by_cases hk : k = key
    · subst k
      simp [set, List.lookup_cons, hok]
    · simp only [set, hk, if_false, List.lookup_cons]
      cases other == k <;> simp [ih]

theorem lookup_set (key other : String) (value : α) (d : Dict α) :
    (set key value d).lookup other = if other = key then some value else d.lookup other := by
  split
  next h => rw [h, lookup_set_self]
  next h => rw [lookup_set_ne h]

/-- Writing back what is there changes nothing. -/
theorem set_lookup {key : String} {value : α} {d : Dict α} (h : d.lookup key = some value) :
    set key value d = d := by
  induction d with
  | nil => simp at h
  | cons entry rest ih =>
    obtain ⟨k, v⟩ := entry
    by_cases hk : k = key
    · subst hk
      simp at h
      simp [set, h]
    · have hne : (key == k) = false := by simpa using fun e => hk e.symm
      rw [List.lookup_cons, hne] at h
      rw [set, if_neg hk, ih h]

theorem keys_set (key : String) (value : α) (d : Dict α) :
    (set key value d).map Prod.fst =
      if key ∈ d.map Prod.fst then d.map Prod.fst else d.map Prod.fst ++ [key] := by
  induction d with
  | nil => simp [set]
  | cons entry rest ih =>
    obtain ⟨k, v⟩ := entry
    by_cases h : k = key
    · simp [set, h]
    · have hne : ¬key = k := fun e => h e.symm
      simp only [set, h, if_false, List.map_cons, ih, List.mem_cons, hne, false_or]
      split <;> simp

theorem keys_set_nodup {d : Dict α} (h : (d.map Prod.fst).Nodup) (key : String) (value : α) :
    ((set key value d).map Prod.fst).Nodup := by
  rw [keys_set]
  split
  next => exact h
  next hnew => exact h.append (List.nodup_singleton _) (by simpa using hnew)

theorem lookup_filter_ne (key other : String) (d : Dict α) :
    List.lookup other (d.filter fun entry => entry.1 ≠ key) =
      if other = key then none else d.lookup other := by
  induction d with
  | nil => simp
  | cons entry rest ih =>
    obtain ⟨k, v⟩ := entry
    by_cases hk : k = key
    · subst hk
      by_cases ho : other = k
      · simpa [ho] using ih
      · have hne : (other == k) = false := by simpa using ho
        simpa [ho, List.lookup_cons, hne] using ih
    · by_cases ho : other = k
      · subst ho
        simp [hk]
      · have hne : (other == k) = false := by simpa using ho
        simpa [hk, List.lookup_cons, hne] using ih

theorem mem_iff_lookup {d : Dict α} (h : (d.map Prod.fst).Nodup) (key : String) (value : α) :
    (key, value) ∈ d ↔ d.lookup key = some value := by
  induction d with
  | nil => simp
  | cons entry rest ih =>
    obtain ⟨k, v⟩ := entry
    obtain ⟨hnew, hrest⟩ := List.nodup_cons.mp h
    by_cases hk : key = k
    · subst hk
      have hout : (key, value) ∉ rest := fun hm => hnew (List.mem_map.mpr ⟨_, hm, rfl⟩)
      simp [hout, eq_comm]
    · have hne : (key == k) = false := by simpa using hk
      simp [hk, List.lookup_cons, hne, ih hrest]

end Dict

namespace Json

/-- Python truthiness. -/
def truthy : Json → Bool
  | null => false
  | bool value => value
  | num value => value ≠ 0
  | str value => value ≠ ""
  | arr items => !items.isEmpty
  | obj fields => !fields.isEmpty

mutual

/-- `repr(value)`; quotes inside a string are not escaped. -/
def repr : Json → String
  | null => "None"
  | bool value => if value then "True" else "False"
  | num value => toString value.num ++ (if value.den = 1 then "" else "/" ++ toString value.den)
  | str value => "'" ++ value ++ "'"
  | arr items => "[" ++ reprItems items ++ "]"
  | obj fields => "\x7b" ++ reprFields fields ++ "\x7d"

def reprItems : List Json → String
  | [] => ""
  | [item] => repr item
  | item :: next :: rest => repr item ++ ", " ++ reprItems (next :: rest)

def reprFields : List (String × Json) → String
  | [] => ""
  | [(key, value)] => "'" ++ key ++ "': " ++ repr value
  | (key, value) :: next :: rest => "'" ++ key ++ "': " ++ repr value ++ ", " ++ reprFields (next :: rest)

end

/-- `str(value)`. -/
def toStr : Json → String
  | str value => value
  | value => repr value

/-- `value == s` for a string `s`. -/
def isStr (s : String) : Json → Bool
  | str value => value = s
  | _ => false

def ofOption (s : Option String) : Json := s.elim null str

def ofList (items : List String) : Json := arr (items.map str)

def nat (n : Nat) : Json := num n

end Json

/-- `s.startswith(prefix)`. -/
def startsWith (s lead : String) : Bool := lead.toList.isPrefixOf s.toList

/-- `quote in text` for strings. -/
def isSubstring (quote text : String) : Bool := decide (quote.toList <:+: text.toList)

/-- `str.isspace` for one character. -/
def isSpace (c : Char) : Bool :=
  c.toNat ∈ [0x09, 0x0a, 0x0b, 0x0c, 0x0d, 0x1c, 0x1d, 0x1e, 0x1f, 0x20, 0x85, 0xa0, 0x1680,
    0x2028, 0x2029, 0x202f, 0x205f, 0x3000] || (0x2000 ≤ c.toNat && c.toNat ≤ 0x200a)

/-- `s.strip()`. -/
def strip (s : String) : String :=
  String.ofList ((s.toList.dropWhile isSpace).reverse.dropWhile isSpace).reverse

/-- Truthiness of an optional string: `None` and `""` are both false. -/
def given (s : Option String) : Bool := s.any (· ≠ "")

end NoraInterviewer
