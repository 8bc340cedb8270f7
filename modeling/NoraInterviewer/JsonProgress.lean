import NoraInterviewer.JsonText
import NoraInterviewer.ExceptRules

/-! Each reader takes characters, so the bound on a loop is never met. -/

namespace JsonText

theorem skipSpace_length (text : List Nat) : (skipSpace text).length ≤ text.length :=
  (List.dropWhile_suffix _).length_le

/-- A reader that takes at least one character. -/
def Consumes {α : Type} (read : List Nat → Except LoadFailure (α × List Nat)) : Prop :=
  ∀ text item rest, read text = .ok (item, rest) → rest.length < text.length

theorem readString_consumes (pending : Option Nat) : Consumes (readString pending) := by
  intro text
  fun_induction readString pending text with
  | case1 pending => exact fun item rest h => (by cases h)
  | case2 pending rest =>
    intro item rest' h
    cases h
    exact Nat.lt_succ_self _
  | case3 => exact fun item rest h => (by cases h)
  | case4 | case5 | case6 | case8 | case10 | case12 =>
    rename_i ih
    intro item rest' h
    obtain ⟨read, hread, heq⟩ := ExceptRules.map_ok h
    cases heq
    have hlt := ih _ _ hread
    simp only [List.length_cons]
    omega
  | case7 =>
    rename_i ih
    intro item rest' h
    have hlt := ih _ _ h
    simp only [List.length_cons]
    omega
  | case9 => exact fun item rest h => (by cases h)
  | case11 => exact fun item rest h => (by cases h)

theorem readFraction_length {text digits rest : List Nat}
    (h : readFraction text = some (digits, rest)) : rest.length ≤ text.length := by
  unfold readFraction at h
  split at h
  next tail =>
    split at h
    next => cases h
    next =>
      cases h
      have hle := (List.dropWhile_suffix isDigit (l := tail)).length_le
      simp only [List.length_cons]
      omega
  next => cases h

theorem readExponent_length {text rest : List Nat} {value : ℤ}
    (h : readExponent text = some (value, rest)) : rest.length ≤ text.length := by
  unfold readExponent at h
  split at h
  next c tail =>
    have hsigned : (if tail.head? = some 45 ∨ tail.head? = some 43 then tail.tail
        else tail).length ≤ tail.length := by
      split
      next =>
        rw [List.length_tail]
        omega
      next => exact le_refl _
    simp only at h
    generalize (if tail.head? = some 45 ∨ tail.head? = some 43 then tail.tail else tail) = digits
      at h hsigned
    split at h
    next =>
      split at h
      next => cases h
      next =>
        cases h
        have hle := (List.dropWhile_suffix isDigit (l := digits)).length_le
        simp only [List.length_cons]
        omega
    next => cases h
  next => cases h

theorem readUnsigned_consumes {F : Type} [FloatText F] (bounds : Bounds) (negative : Bool) :
    Consumes (readUnsigned (F := F) bounds negative) := by
  intro text item rest h
  unfold readUnsigned at h
  have hdrop : (if text.head? = some 48 then [48] else text.takeWhile isDigit) ≠ [] →
      (text.drop (if text.head? = some 48 then [48] else text.takeWhile isDigit).length).length <
        text.length := by
    intro hne
    rw [List.length_drop]
    have hpos := List.length_pos_iff.mpr hne
    cases text with
    | nil => exact absurd rfl hne
    | cons c tail =>
      simp only [List.length_cons]
      omega
  generalize (if text.head? = some 48 then [48] else text.takeWhile isDigit) = whole at h hdrop
  simp only at h
  obtain ⟨hwhole, h⟩ := ExceptRules.ite_error_ok h
  have hlt := hdrop hwhole
  generalize text.drop whole.length = after at h hlt
  split at h
  next =>
    obtain ⟨_, h⟩ := ExceptRules.ite_error_ok h
    cases h
    exact hlt
  next =>
    have hfraction : ((readFraction after).elim after Prod.snd).length ≤ after.length := by
      cases hf : readFraction after with
      | none => exact le_refl _
      | some fraction => exact readFraction_length hf
    generalize (readFraction after).elim after Prod.snd = middle at h hfraction
    have hexponent : ((readExponent middle).elim middle Prod.snd).length ≤ middle.length := by
      cases he : readExponent middle with
      | none => exact le_refl _
      | some exponent => exact readExponent_length he
    cases h
    omega

theorem map_consumes {α β : Type} {read : List Nat → Except LoadFailure (α × List Nat)} {f : α → β}
    (hread : Consumes read) :
    Consumes fun text => (read text).map fun result => (f result.1, result.2) := by
  intro text item rest h
  obtain ⟨⟨result, after⟩, hresult, heq⟩ := ExceptRules.map_ok h
  cases heq
  exact hread _ _ _ hresult

theorem readScalar_consumes {F : Type} [FloatText F] (bounds : Bounds) :
    Consumes (readScalar (F := F) bounds) := by
  intro text item rest h
  unfold readScalar at h
  split at h
  next tail =>
    have hlt := map_consumes (readString_consumes none) _ _ _ h
    simp only [List.length_cons]
    omega
  next => cases h; simp only [List.length_cons]; omega
  next => cases h; simp only [List.length_cons]; omega
  next => cases h; simp only [List.length_cons]; omega
  next => cases h; simp only [List.length_cons]; omega
  next => cases h; simp only [List.length_cons]; omega
  next => cases h; simp only [List.length_cons]; omega
  next tail _ =>
    have hlt := readUnsigned_consumes bounds true _ _ _ h
    simp only [List.length_cons]
    omega
  next => exact readUnsigned_consumes bounds false _ _ _ h

variable {V : Type} {value : List Nat → Except LoadFailure (V × List Nat)}

theorem readItems_consumes (hvalue : Consumes value) (fuel : Nat) :
    Consumes (readItems value fuel) := by
  intro text items rest h
  induction fuel generalizing text items rest with
  | zero => cases h
  | succ fuel ih =>
    rw [readItems] at h
    obtain ⟨⟨item, after⟩, hitem, h⟩ := ExceptRules.bind_ok h
    have hlt := hvalue _ _ _ hitem
    have hspace := skipSpace_length after
    simp only at h
    split at h
    next heq =>
      cases h
      rw [heq, List.length_cons] at hspace
      omega
    next more heq =>
      obtain ⟨⟨others, last⟩, hothers, h⟩ := ExceptRules.bind_ok h
      cases h
      have hmore := ih _ _ _ hothers
      have hskip := skipSpace_length more
      rw [heq, List.length_cons] at hspace
      exact lt_trans (lt_of_lt_of_le hmore hskip) (lt_trans hspace hlt)
    next => cases h

theorem readFields_consumes (hvalue : Consumes value) (fuel : Nat) :
    Consumes (readFields value fuel) := by
  intro text fields rest h
  induction fuel generalizing text fields rest with
  | zero => cases h
  | succ fuel ih =>
    by_cases hquote : ∃ tail, text = 34 :: tail
    · obtain ⟨tail, rfl⟩ := hquote
      rw [readFields] at h
      obtain ⟨⟨key, afterKey⟩, hkey, h⟩ := ExceptRules.bind_ok h
      have hkeyLt := readString_consumes none _ _ _ hkey
      have hkeySpace := skipSpace_length afterKey
      simp only at h
      split at h
      next afterColon hcolon =>
        obtain ⟨⟨item, after⟩, hitem, h⟩ := ExceptRules.bind_ok h
        have hitemLt := hvalue _ _ _ hitem
        have hcolonSpace := skipSpace_length afterColon
        have hspace := skipSpace_length after
        rw [hcolon, List.length_cons] at hkeySpace
        simp only at h
        split at h
        next heq =>
          cases h
          rw [heq, List.length_cons] at hspace
          simp only [List.length_cons]
          omega
        next more heq =>
          obtain ⟨⟨others, last⟩, hothers, h⟩ := ExceptRules.bind_ok h
          cases h
          have hmore : last.length < (skipSpace more).length := ih _ _ _ hothers
          have hskip := skipSpace_length more
          rw [heq, List.length_cons] at hspace
          simp only [List.length_cons]
          omega
        next => cases h
      next => cases h
    · rw [readFields] at h
      · cases h
      · exact fun hc => (by cases hc)
      · exact fun fuel tail _ hc => hquote ⟨tail, hc⟩

variable {F : Type} [FloatText F]

theorem readValue_consumes (bounds : Bounds) (depth : Nat) :
    Consumes (readValue (F := F) bounds depth) := by
  induction depth with
  | zero =>
    intro text item rest h
    unfold readValue at h
    split at h
    next => cases h
    next => cases h
    next hc => cases hc
    next hc => cases hc
    next => exact readScalar_consumes bounds _ _ _ h
  | succ depth ih =>
    intro text item rest h
    unfold readValue at h
    split at h
    next hc => cases hc
    next hc => cases hc
    next tail hdepth =>
      cases hdepth
      have hspace := skipSpace_length tail
      split at h
      next heq =>
        cases h
        rw [heq] at hspace
        simp only [List.length_cons] at hspace ⊢
        omega
      next =>
        have hlt := map_consumes (readItems_consumes ih _) _ _ _ h
        simp only [List.length_cons]
        omega
    next tail hdepth =>
      cases hdepth
      have hspace := skipSpace_length tail
      split at h
      next heq =>
        cases h
        rw [heq] at hspace
        simp only [List.length_cons] at hspace ⊢
        omega
      next =>
        obtain ⟨⟨fields, after⟩, hfields, heq⟩ := ExceptRules.map_ok h
        cases heq
        have hlt := readFields_consumes ih _ _ _ _ hfields
        simp only [List.length_cons]
        omega
    next => exact readScalar_consumes bounds _ _ _ h

/-- The text is as long a bound on the number of items as any. -/
theorem readItems_enough (hvalue : Consumes value) (hnil : value [] = .error .notJson)
    {fuel fuel' : Nat} {text : List Nat} (h : text.length ≤ fuel) (h' : text.length ≤ fuel') :
    readItems value fuel text = readItems value fuel' text := by
  have hempty : ∀ fuel, readItems value fuel [] = .error .notJson := by
    intro fuel
    cases fuel with
    | zero => rfl
    | succ fuel =>
      rw [readItems, hnil]
      rfl
  induction fuel generalizing fuel' text with
  | zero =>
    rw [List.length_eq_zero_iff.mp (Nat.le_zero.mp h), hempty, hempty]
  | succ fuel ih =>
    cases fuel' with
    | zero => rw [List.length_eq_zero_iff.mp (Nat.le_zero.mp h'), hempty, hempty]
    | succ fuel' =>
      rw [readItems, readItems]
      cases hitem : value text with
      | error e => rfl
      | ok result =>
        obtain ⟨item, after⟩ := result
        have hlt := hvalue _ _ _ hitem
        have hspace := skipSpace_length after
        rw [ExceptRules.ok_bind, ExceptRules.ok_bind]
        simp only
        split
        next => rfl
        next more heq =>
          have hskip := skipSpace_length more
          rw [heq, List.length_cons] at hspace
          rw [@ih fuel' _ (by omega) (by omega)]
        next => rfl

theorem readFields_enough (hvalue : Consumes value) {fuel fuel' : Nat} {text : List Nat}
    (h : text.length ≤ fuel) (h' : text.length ≤ fuel') :
    readFields value fuel text = readFields value fuel' text := by
  have hempty : ∀ fuel, readFields value fuel [] = .error .notJson := by
    intro fuel
    cases fuel with
    | zero => rfl
    | succ fuel => rfl
  induction fuel generalizing fuel' text with
  | zero =>
    rw [List.length_eq_zero_iff.mp (Nat.le_zero.mp h), hempty, hempty]
  | succ fuel ih =>
    cases fuel' with
    | zero => rw [List.length_eq_zero_iff.mp (Nat.le_zero.mp h'), hempty, hempty]
    | succ fuel' =>
      by_cases hquote : ∃ tail, text = 34 :: tail
      · obtain ⟨tail, rfl⟩ := hquote
        rw [readFields, readFields]
        cases hkey : readString none tail with
        | error e => rfl
        | ok key =>
          obtain ⟨key, afterKey⟩ := key
          have hkeyLt := readString_consumes none _ _ _ hkey
          have hkeySpace := skipSpace_length afterKey
          rw [ExceptRules.ok_bind, ExceptRules.ok_bind]
          simp only
          split
          next afterColon hcolon =>
            have hcolonSpace := skipSpace_length afterColon
            cases hitem : value (skipSpace afterColon) with
            | error e => rfl
            | ok result =>
              obtain ⟨item, after⟩ := result
              have hlt := hvalue _ _ _ hitem
              have hspace := skipSpace_length after
              rw [ExceptRules.ok_bind, ExceptRules.ok_bind]
              simp only
              split
              next => rfl
              next more heq =>
                have hskip := skipSpace_length more
                rw [hcolon, List.length_cons] at hkeySpace
                rw [heq, List.length_cons] at hspace
                rw [List.length_cons] at h h'
                rw [@ih fuel' _ (by omega) (by omega)]
              next => rfl
          next => rfl
      · have hnone : ∀ fuel, readFields value (fuel + 1) text = .error .notJson := by
          intro fuel
          rw [readFields]
          · exact fun hc => (by cases hc)
          · exact fun fuel tail _ hc => hquote ⟨tail, hc⟩
        rw [hnone, hnone]

theorem readValue_nil (bounds : Bounds) (depth : Nat) :
    readValue (F := F) bounds depth [] = .error .notJson := by
  cases depth with
  | zero => rfl
  | succ depth => rfl

/-- An array is read as a loop without a bound reads it. -/
theorem readValue_array {bounds : Bounds} {depth fuel : Nat} {rest : List Nat}
    (hopen : ∀ tail, skipSpace rest ≠ 93 :: tail) (h : (skipSpace rest).length ≤ fuel) :
    readValue (F := F) bounds (depth + 1) (91 :: rest) =
      (readItems (readValue bounds depth) fuel (skipSpace rest)).map
        fun read => (.arr read.1, read.2) := by
  rw [readValue]
  split
  next tail heq => exact absurd heq (hopen tail)
  next =>
    rw [readItems_enough (readValue_consumes bounds depth) (readValue_nil bounds depth) (le_refl _) h]

/-- An object is read as a loop without a bound reads it. -/
theorem readValue_object {bounds : Bounds} {depth fuel : Nat} {rest : List Nat}
    (hopen : ∀ tail, skipSpace rest ≠ 125 :: tail) (h : (skipSpace rest).length ≤ fuel) :
    readValue (F := F) bounds (depth + 1) (123 :: rest) =
      (readFields (readValue bounds depth) fuel (skipSpace rest)).map
        fun read => (.obj (dictOf read.1), read.2) := by
  rw [readValue]
  split
  next tail heq => exact absurd heq (hopen tail)
  next => rw [readFields_enough (readValue_consumes bounds depth) (le_refl _) h]

end JsonText
