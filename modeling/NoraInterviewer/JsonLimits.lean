import NoraInterviewer.JsonBytes

/-! What encoding refuses, and that what it writes is plain text. -/

namespace JsonText

section Limits

variable {F : Type}

mutual

/-- No integer is too long, and no bracket too deep. -/
def Value.Within (bounds : Bounds) : Nat → Value F → Prop
  | _, .int n => (natDigits n.natAbs).length ≤ bounds.maxDigits
  | 0, .arr _ => False
  | 0, .obj _ => False
  | depth + 1, .arr items => WithinItems bounds depth items
  | depth + 1, .obj fields => WithinFields bounds depth fields
  | _, _ => True

def WithinItems (bounds : Bounds) : Nat → List (Value F) → Prop
  | _, [] => True
  | depth, item :: rest => item.Within bounds depth ∧ WithinItems bounds depth rest

def WithinFields (bounds : Bounds) : Nat → List (List Nat × Value F) → Prop
  | _, [] => True
  | depth, (_, value) :: rest => value.Within bounds depth ∧ WithinFields bounds depth rest

end

theorem withinFields_iff {bounds : Bounds} {depth : Nat} {fields : List (List Nat × Value F)} :
    WithinFields bounds depth fields ↔ ∀ field ∈ fields, field.2.Within bounds depth := by
  induction fields with
  | nil => simp [WithinFields]
  | cons field rest ih =>
    obtain ⟨key, value⟩ := field
    rw [WithinFields, ih, List.forall_mem_cons]

mutual

theorem canonical_within (bounds : Bounds) : ∀ (value : Value F) (depth : Nat),
    value.canonical.Within bounds depth ↔ value.Within bounds depth
  | .null, _ => Iff.rfl
  | .bool _, _ => Iff.rfl
  | .int _, _ => Iff.rfl
  | .float _, _ => Iff.rfl
  | .str _, _ => Iff.rfl
  | .arr _, 0 => Iff.rfl
  | .obj _, 0 => Iff.rfl
  | .arr items, depth + 1 => by
    rw [Value.canonical, Value.Within, Value.Within]
    exact canonicalItems_within bounds items depth
  | .obj fields, depth + 1 => by
    rw [Value.canonical, Value.Within, Value.Within, ← canonicalFields_within bounds fields depth,
      withinFields_iff, withinFields_iff]
    have hperm := sortFields_perm (canonicalFields fields)
    exact ⟨fun h field hfield => h field (hperm.mem_iff.mpr hfield),
      fun h field hfield => h field (hperm.mem_iff.mp hfield)⟩

theorem canonicalItems_within (bounds : Bounds) : ∀ (items : List (Value F)) (depth : Nat),
    WithinItems bounds depth (canonicalItems items) ↔ WithinItems bounds depth items
  | [], _ => Iff.rfl
  | item :: rest, depth => by
    rw [canonicalItems, WithinItems, WithinItems]
    exact and_congr (canonical_within bounds item depth) (canonicalItems_within bounds rest depth)

theorem canonicalFields_within (bounds : Bounds) :
    ∀ (fields : List (List Nat × Value F)) (depth : Nat),
    WithinFields bounds depth (canonicalFields fields) ↔ WithinFields bounds depth fields
  | [], _ => Iff.rfl
  | (_, value) :: rest, depth => by
    rw [canonicalFields, WithinFields, WithinFields]
    exact and_congr (canonical_within bounds value depth) (canonicalFields_within bounds rest depth)

end

end Limits

section Writes

variable {F : Type} [FloatRepr F] {bounds : Bounds} {gap : List Nat}

theorem exists_ok {α : Type} (a : α) : (∃ b, (Except.ok a : Except LoadFailure α) = .ok b) ↔ True :=
  ⟨fun _ => trivial, fun _ => ⟨a, rfl⟩⟩

mutual

theorem dumpValue_ok_iff : ∀ (value : Value F) (depth : Nat),
    (∃ text, dumpValue bounds gap depth value = .ok text) ↔ value.Within bounds depth
  | .null, depth => by simp [dumpValue, Value.Within]
  | .bool true, depth => by simp [dumpValue, Value.Within]
  | .bool false, depth => by simp [dumpValue, Value.Within]
  | .float _, depth => by simp [dumpValue, Value.Within]
  | .str _, depth => by simp [dumpValue, Value.Within]
  | .arr _, 0 => by simp [dumpValue, Value.Within]
  | .obj _, 0 => by simp [dumpValue, Value.Within]
  | .int n, depth => by
    rw [Value.Within, dumpValue]
    split
    next h => exact ⟨fun ⟨_, hok⟩ => (by cases hok), fun hle => absurd hle (by omega)⟩
    next h => exact ⟨fun _ => by omega, fun _ => ⟨_, rfl⟩⟩
  | .arr items, depth + 1 => by
    rw [Value.Within, ← dumpItems_ok_iff items depth, dumpValue,
      ExceptRules.exists_ok_bind fun text => exists_ok _, and_true]
  | .obj fields, depth + 1 => by
    rw [Value.Within, ← dumpFields_ok_iff fields depth, dumpValue,
      ExceptRules.exists_ok_bind fun text => exists_ok _, and_true]

theorem dumpItems_ok_iff : ∀ (items : List (Value F)) (depth : Nat),
    (∃ text, dumpItems bounds gap depth items = .ok text) ↔ WithinItems bounds depth items
  | [], depth => by simp [dumpItems, WithinItems]
  | [item], depth => by
    rw [WithinItems, WithinItems, ← dumpValue_ok_iff item depth, dumpItems,
      ExceptRules.exists_ok_bind fun text => exists_ok _]
  | item :: next :: rest, depth => by
    rw [WithinItems, ← dumpValue_ok_iff item depth, ← dumpItems_ok_iff (next :: rest) depth,
      dumpItems, ExceptRules.exists_ok_bind fun text =>
        (ExceptRules.exists_ok_bind fun others => exists_ok _).trans (and_iff_left trivial)]

theorem dumpFields_ok_iff : ∀ (fields : List (List Nat × Value F)) (depth : Nat),
    (∃ text, dumpFields bounds gap depth fields = .ok text) ↔ WithinFields bounds depth fields
  | [], depth => by simp [dumpFields, WithinFields]
  | [(key, value)], depth => by
    rw [WithinFields, WithinFields, ← dumpValue_ok_iff value depth, dumpFields,
      ExceptRules.exists_ok_bind fun text => exists_ok _]
  | (key, value) :: next :: rest, depth => by
    rw [WithinFields, ← dumpValue_ok_iff value depth, ← dumpFields_ok_iff (next :: rest) depth,
      dumpFields, ExceptRules.exists_ok_bind fun text =>
        (ExceptRules.exists_ok_bind fun others => exists_ok _).trans (and_iff_left trivial)]

end

theorem dumpsSorted_ok_iff (bounds : Bounds) (gap : List Nat) (value : Value F) :
    (∃ text, dumpsSorted bounds gap value = .ok text) ↔ value.Within bounds bounds.maxDepth := by
  unfold dumpsSorted
  rw [dumpValue_ok_iff, canonical_within]

theorem dumpsSorted_canonical (value : Value F) :
    dumpsSorted bounds gap value.canonical = dumpsSorted bounds gap value := by
  unfold dumpsSorted
  rw [canonical_canonical]

end Writes

/-- Floats that are spelled in ASCII. -/
class AsciiFloatRepr (F : Type) [FloatRepr F] : Prop extends LawfulFloatRepr F where
  repr_plain : ∀ x : F, Plain (FloatRepr.repr x)

theorem Plain.append {text more : List Nat} (h : Plain text) (hmore : Plain more) :
    Plain (text ++ more) := by
  intro c hc
  exact (List.mem_append.mp hc).elim (h c) (hmore c)

theorem Plain.cons {c : Nat} {text : List Nat} (hc : 0 < c ∧ c < 128) (h : Plain text) :
    Plain (c :: text) := List.forall_mem_cons.mpr ⟨hc, h⟩

theorem escapeUnit_plain {unit : Nat} (h : unit < 65536) : Plain (escapeUnit unit) := by
  have hdigit : ∀ n < 16, 0 < hexDigit n ∧ hexDigit n < 128 := by decide
  unfold escapeUnit
  exact .cons (by decide) (.cons (by decide) (.cons (hdigit _ (by omega)) (.cons (hdigit _ (by omega))
    (.cons (hdigit _ (by omega)) (.cons (hdigit _ (by omega)) (List.forall_mem_nil _))))))

theorem dumpChar_plain {c : Nat} (h : isScalar c = true) : Plain (dumpChar c) := by
  have hbound : c < 0x110000 := by
    simp [isScalar] at h
    omega
  unfold dumpChar
  split_ifs
  · decide
  · decide
  · decide
  · decide
  · decide
  · decide
  · decide
  · exact .cons (by omega) (List.forall_mem_nil _)
  · exact escapeUnit_plain (by omega)
  · exact (escapeUnit_plain (by omega)).append (escapeUnit_plain (by omega))

theorem dumpString_plain {text : List Nat} (h : ∀ c ∈ text, isScalar c = true) :
    Plain (dumpString text) := by
  unfold dumpString
  refine .append (.cons (by decide) ?_) (by decide)
  intro c hc
  obtain ⟨source, hsource, hc⟩ := List.mem_flatMap.mp hc
  exact dumpChar_plain (h source hsource) c hc

theorem dumpInt_plain (n : ℤ) : Plain (dumpInt n) := by
  unfold dumpInt
  refine .append ?_ ?_
  · split <;> decide
  · intro c hc
    have hdigit := isDigit_iff.mp (natDigits_isDigit n.natAbs c hc)
    omega

section Plain

variable {F : Type} [FloatRepr F] {bounds : Bounds} {gap : List Nat}

mutual

theorem dumpValue_plain (hrepr : ∀ x : F, Plain (FloatRepr.repr x)) (hgap : Plain gap) :
    ∀ (value : Value F) (depth : Nat) (text : List Nat),
    value.Proper → dumpValue bounds gap depth value = .ok text → Plain text
  | .null, _, _, _, h => by
    rw [dumpValue] at h
    cases h
    decide
  | .bool true, _, _, _, h => by
    rw [dumpValue] at h
    cases h
    decide
  | .bool false, _, _, _, h => by
    rw [dumpValue] at h
    cases h
    decide
  | .int n, _, _, _, h => by
    rw [dumpValue] at h
    obtain ⟨_, h⟩ := ExceptRules.ite_error_ok h
    cases h
    exact dumpInt_plain n
  | .float x, _, _, _, h => by
    rw [dumpValue] at h
    cases h
    exact hrepr x
  | .str value, _, _, hproper, h => by
    rw [dumpValue] at h
    cases h
    exact dumpString_plain hproper
  | .arr items, 0, _, _, h => by
    rw [dumpValue] at h
    cases h
  | .obj fields, 0, _, _, h => by
    rw [dumpValue] at h
    cases h
  | .arr items, depth + 1, _, hproper, h => by
    rw [dumpValue] at h
    obtain ⟨inner, hinner, h⟩ := ExceptRules.bind_ok h
    cases h
    exact .cons (by decide) (dumpItems_plain hrepr hgap items depth inner hproper hinner)
  | .obj fields, depth + 1, _, hproper, h => by
    rw [dumpValue] at h
    obtain ⟨inner, hinner, h⟩ := ExceptRules.bind_ok h
    cases h
    exact .cons (by decide) (dumpFields_plain hrepr hgap fields depth inner hproper.2 hinner)

theorem dumpItems_plain (hrepr : ∀ x : F, Plain (FloatRepr.repr x)) (hgap : Plain gap) :
    ∀ (items : List (Value F)) (depth : Nat) (text : List Nat),
    ProperItems items → dumpItems bounds gap depth items = .ok text → Plain text
  | [], _, _, _, h => by
    rw [dumpItems] at h
    cases h
    decide
  | item :: others, depth, _, hproper, h => by
    obtain ⟨inner, tail, hinner, rfl, htail⟩ := dumpItems_cons h
    refine (dumpValue_plain hrepr hgap item depth inner hproper.1 hinner).append ?_
    rcases htail with ⟨_, rfl⟩ | ⟨more, _, rfl, hmore⟩
    · decide
    · exact .cons (by decide)
        (hgap.append (dumpItems_plain hrepr hgap others depth more hproper.2 hmore))

theorem dumpFields_plain (hrepr : ∀ x : F, Plain (FloatRepr.repr x)) (hgap : Plain gap) :
    ∀ (fields : List (List Nat × Value F)) (depth : Nat) (text : List Nat),
    ProperFields fields → dumpFields bounds gap depth fields = .ok text → Plain text
  | [], _, _, _, h => by
    rw [dumpFields] at h
    cases h
    decide
  | (key, value) :: others, depth, _, ⟨hkey, hvalue, hothers⟩, h => by
    obtain ⟨inner, tail, hinner, rfl, htail⟩ := dumpFields_cons h
    refine (dumpString_plain hkey).append (.cons (by decide) (hgap.append
      ((dumpValue_plain hrepr hgap value depth inner hvalue hinner).append ?_)))
    rcases htail with ⟨_, rfl⟩ | ⟨more, _, rfl, hmore⟩
    · decide
    · exact .cons (by decide)
        (hgap.append (dumpFields_plain hrepr hgap others depth more hothers hmore))

end

end Plain

/-- Decoding the bytes of what was encoded gives the value, its keys in order. -/
theorem loadsBytes_dumps {F : Type} [FloatRepr F] [AsciiFloatRepr F] {bounds : Bounds}
    {value : Value F} {text : List Nat} (hproper : value.Proper)
    (h : dumpsSorted bounds [] value = .ok text) :
    Plain text ∧ loadsBytes bounds (text.map UInt8.ofNat) = .ok value.canonical := by
  have hplain := dumpValue_plain AsciiFloatRepr.repr_plain (by decide) value.canonical bounds.maxDepth text
    (canonical_proper hproper) h
  refine ⟨hplain, ?_⟩
  rw [loadsBytes_plain hplain]
  exact loads_dumps (by decide) hproper h

end JsonText
