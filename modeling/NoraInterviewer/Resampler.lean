import NoraInterviewer.LinearInterpolation
import Mathlib.Data.List.SplitLengths
import Mathlib.Data.Rat.Floor
import Mathlib.Algebra.Order.Field.Rat

/-! `NoraLinearResampler` of the page, its samples and positions exact: what it gives for samples
pushed in pieces, and what for all at once. -/

namespace NoraInterviewer

open LinearInterpolation

/-- The rates that the constructor lets through. -/
structure SampleRates where
  inputRate : ℚ
  outputRate : ℚ
  inputRate_pos : 0 < inputRate
  outputRate_pos : 0 < outputRate

def SampleRates.ratio (rates : SampleRates) : ℚ := rates.inputRate / rates.outputRate

structure NoraLinearResampler (rates : SampleRates) where
  buffer : List ℚ := []
  position : ℚ := 0
  position_range : 0 ≤ position ∧ position < 1 := by decide

namespace NoraLinearResampler

/-- The loop of `push`: the output, and the position where it stops. Each turn advances by `ratio`,
so a number of turns that the caller takes from the length suffices. -/
def interpolateFrom (ratio : ℚ) (data : List ℚ) : ℕ → ℚ → List ℚ × ℚ
  | 0, position => ([], position)
  | turns + 1, position =>
    if position + 1 < data.length then
      let rest := interpolateFrom ratio data turns (position + ratio)
      (interpolate data position :: rest.1, rest.2)
    else ([], position)

def push {rates : SampleRates} (resampler : NoraLinearResampler rates) (input : List ℚ) :
    List ℚ × NoraLinearResampler rates :=
  if input = [] then ([], resampler)
  else if rates.inputRate = rates.outputRate then (input, resampler)
  else
    let data := resampler.buffer ++ input
    let loop := interpolateFrom rates.ratio data (steps rates.ratio data.length) resampler.position
    let consumed := ⌊loop.2⌋
    (loop.1, {
      buffer := data.drop consumed.toNat
      position := loop.2 - consumed
      position_range := ⟨Int.fract_nonneg loop.2, Int.fract_lt_one loop.2⟩ })

/-- The outputs of one push after another. -/
def pushAll {rates : SampleRates} (resampler : NoraLinearResampler rates) :
    List (List ℚ) → List ℚ
  | [] => []
  | input :: rest => (resampler.push input).1 ++ (resampler.push input).2.pushAll rest

end NoraLinearResampler

/-- The first position of the grid that is not below the last of `pushed` samples. -/
def resumesAt (ratio : ℚ) (pushed : ℕ) : ℚ := steps ratio (pushed - 1) * ratio

/-- Before each push, if two samples at least are still to come: the position to go on from is
less than one past the samples pushed so far. -/
def KeepsPlace (ratio : ℚ) : ℕ → List ℕ → Prop
  | _, [] => True
  | pushed, n :: rest =>
    (2 ≤ n + rest.sum → resumesAt ratio pushed < pushed + 1) ∧ KeepsPlace ratio (pushed + n) rest

instance (ratio : ℚ) : ∀ (pushed : ℕ) (lengths : List ℕ), Decidable (KeepsPlace ratio pushed lengths)
  | _, [] => .isTrue trivial
  | pushed, n :: rest =>
    have := instDecidableKeepsPlace ratio (pushed + n) rest
    inferInstanceAs (Decidable (_ ∧ _))

section Loop

namespace NoraLinearResampler

/-- The loop reads the grid from its position on, up to the last sample. -/
theorem interpolateFrom_eq {ratio : ℚ} (hr : 0 < ratio) (data : List ℚ) (turns : ℕ) (position : ℚ)
    (h : steps ratio (data.length - 1 - position) ≤ turns) :
    interpolateFrom ratio data turns position =
      ((List.range (steps ratio (data.length - 1 - position))).map fun k : ℕ =>
          interpolate data (position + k * ratio),
        position + steps ratio (data.length - 1 - position) * ratio) := by
  induction turns generalizing position with
  | zero =>
    have hzero := Nat.le_zero.mp h
    rw [hzero, interpolateFrom]
    simp
  | succ turns ih =>
    rw [interpolateFrom]
    split
    next hlt =>
      have hsteps := steps_succ hr (x := data.length - 1 - position) (by linarith)
      have hnext : (data.length : ℚ) - 1 - position - ratio =
          data.length - 1 - (position + ratio) := by ring
      rw [hnext] at hsteps
      rw [hsteps] at h ⊢
      rw [ih (position + ratio) (by omega), List.range_succ_eq_map, List.map_cons, List.map_map]
      refine Prod.ext ?_ ?_
      · refine congrArg₂ List.cons ?_ (List.map_congr_left fun k _ => ?_)
        · rw [Nat.cast_zero, zero_mul, add_zero]
        · simp only [Function.comp_apply]
          congr 1
          push_cast
          ring
      · simp only
        push_cast
        ring
    next hge =>
      rw [steps_of_nonpos hr (by linarith [not_lt.mp hge])]
      simp

end NoraLinearResampler

end Loop

section Push

variable {rates : SampleRates}

theorem SampleRates.ratio_pos (rates : SampleRates) : 0 < rates.ratio :=
  div_pos rates.inputRate_pos rates.outputRate_pos

namespace NoraLinearResampler

variable (resampler : NoraLinearResampler rates)

theorem push_nil : resampler.push [] = ([], resampler) := if_pos rfl

theorem push_equal (h : rates.inputRate = rates.outputRate) (input : List ℚ) :
    resampler.push input = (input, resampler) := by
  unfold push
  split
  next hnil => rw [hnil]
  next => rfl

/-- One push reads the grid over what is buffered and what is new. -/
theorem push_unequal (h : rates.inputRate ≠ rates.outputRate) {input : List ℚ} (hne : input ≠ []) :
    let data := resampler.buffer ++ input
    let count := steps rates.ratio (data.length - 1 - resampler.position)
    let stop := resampler.position + count * rates.ratio
    (resampler.push input).1 = (List.range count).map (fun k : ℕ =>
        interpolate data (resampler.position + k * rates.ratio)) ∧
      (resampler.push input).2.buffer = data.drop ⌊stop⌋.toNat ∧
      (resampler.push input).2.position = stop - ⌊stop⌋ := by
  intro data count stop
  have hturns : count ≤ steps rates.ratio data.length :=
    steps_mono rates.ratio_pos (by linarith [resampler.position_range.1])
  have hloop := interpolateFrom_eq rates.ratio_pos data _ resampler.position hturns
  unfold push
  rw [if_neg hne, if_neg h]
  simp only
  rw [hloop]
  exact ⟨rfl, rfl, rfl⟩

/-- The resampler after `samples`, where no push overran them: it goes on from where their
interpolation resumes. -/
structure Carried (samples : List ℚ) : Prop where
  buffer_eq : resampler.buffer = samples.drop ⌊resumesAt rates.ratio samples.length⌋₊
  position_eq : resampler.position = resumesAt rates.ratio samples.length -
    ⌊resumesAt rates.ratio samples.length⌋₊

end NoraLinearResampler

theorem resumesAt_nonneg (rates : SampleRates) (pushed : ℕ) : 0 ≤ resumesAt rates.ratio pushed :=
  mul_nonneg (Nat.cast_nonneg _) (le_of_lt rates.ratio_pos)

theorem resumesAt_zero (rates : SampleRates) : resumesAt rates.ratio 0 = 0 := by
  unfold resumesAt
  rw [steps_of_nonpos rates.ratio_pos (by norm_num), Nat.cast_zero, zero_mul]

theorem le_resumesAt (rates : SampleRates) (pushed : ℕ) :
    (pushed : ℚ) - 1 ≤ resumesAt rates.ratio pushed := le_steps_mul rates.ratio_pos _

/-- Where the interpolation resumes after more samples, from where it resumed before. -/
theorem resumesAt_add (rates : SampleRates) (pushed more : ℕ) :
    resumesAt rates.ratio (pushed + more) = resumesAt rates.ratio pushed +
      steps rates.ratio ((pushed + more : ℕ) - 1 - resumesAt rates.ratio pushed) * rates.ratio := by
  have hle : (pushed : ℚ) - 1 ≤ (pushed + more : ℕ) - 1 := by
    push_cast
    linarith [Nat.cast_nonneg (α := ℚ) more]
  unfold resumesAt
  rw [steps_add rates.ratio_pos hle]
  push_cast
  ring

theorem floor_resumesAt_le (rates : SampleRates) {pushed : ℕ}
    (h : resumesAt rates.ratio pushed < pushed + 1) :
    ⌊resumesAt rates.ratio pushed⌋₊ ≤ pushed := by
  have hlt : ((⌊resumesAt rates.ratio pushed⌋₊ : ℕ) : ℚ) < (pushed + 1 : ℕ) := by
    push_cast
    linarith [Nat.floor_le (resumesAt_nonneg rates pushed)]
  have hlt' : ⌊resumesAt rates.ratio pushed⌋₊ < pushed + 1 := by exact_mod_cast hlt
  omega

theorem keepsPlace_few {ratio : ℚ} {pushed : ℕ} {lengths : List ℕ} (h : lengths.sum ≤ 1) :
    KeepsPlace ratio pushed lengths := by
  induction lengths generalizing pushed with
  | nil => trivial
  | cons n rest ih =>
    rw [List.sum_cons] at h
    exact ⟨fun hmany => absurd hmany (by omega), ih (by omega)⟩

namespace NoraLinearResampler

theorem start_carried (rates : SampleRates) : ({} : NoraLinearResampler rates).Carried [] := by
  refine ⟨?_, ?_⟩
  · rw [List.drop_nil]
  · rw [List.length_nil, resumesAt_zero, Nat.floor_zero]
    norm_num

variable {resampler : NoraLinearResampler rates} {samples : List ℚ}

/-- The step: where the next position is not past the samples, a push gives what more samples add
to the interpolation. -/
theorem Carried.push (h : resampler.Carried samples) (hne : rates.inputRate ≠ rates.outputRate)
    (input : List ℚ) (hplace : resumesAt rates.ratio samples.length < samples.length + 1) :
    interpolation rates.ratio (samples ++ input) =
        interpolation rates.ratio samples ++ (resampler.push input).1 ∧
      (resampler.push input).2.Carried (samples ++ input) := by
  by_cases hnil : input = []
  · rw [hnil, resampler.push_nil, List.append_nil, List.append_nil]
    exact ⟨rfl, h⟩
  obtain ⟨hbuffer, hposition⟩ := h
  have hfloor := floor_resumesAt_le rates hplace
  have hnonneg := resumesAt_nonneg rates samples.length
  have hadd := resumesAt_add rates samples.length input.length
  have hpush := resampler.push_unequal hne hnil
  simp only at hpush
  generalize hP : resumesAt rates.ratio samples.length = P at *
  have hle := Nat.floor_le hnonneg
  have hdata : resampler.buffer ++ input = (samples ++ input).drop ⌊P⌋₊ := by
    rw [hbuffer, List.drop_append_of_le_length hfloor]
  have hcount : ((resampler.buffer ++ input).length : ℚ) - 1 - resampler.position =
      (samples.length + input.length : ℕ) - 1 - P := by
    rw [hdata, List.length_drop, List.length_append, Nat.cast_sub (by omega), hposition]
    ring
  rw [hcount] at hpush
  obtain ⟨houtput, hnext, hstop⟩ := hpush
  have hratio := rates.ratio_pos
  refine ⟨?_, ?_⟩
  · have hstart : (steps rates.ratio (samples.length - 1) : ℚ) * rates.ratio = P := hP
    rw [interpolation_append hratio, hstart, houtput, List.length_append]
    congr 1
    refine List.map_congr_left fun k _ => ?_
    have hk : (0 : ℚ) ≤ k * rates.ratio := by positivity
    rw [hdata, hposition, interpolate_drop _ _ (by linarith)]
    congr 1
    ring
  · have hend : resampler.position +
        steps rates.ratio ((samples.length + input.length : ℕ) - 1 - P) * rates.ratio =
        resumesAt rates.ratio (samples.length + input.length) - ⌊P⌋₊ := by
      rw [hadd, hposition]
      ring
    rw [hend, Int.floor_sub_natCast] at hnext hstop
    have hnonneg' := resumesAt_nonneg rates (samples.length + input.length)
    have hmono : P ≤ resumesAt rates.ratio (samples.length + input.length) := by
      rw [hadd]
      exact le_add_of_nonneg_right (by positivity)
    have hfloors := Nat.floor_mono hmono
    have hint := Int.natCast_floor_eq_floor hnonneg'
    rw [← List.length_append] at hnext hstop hint hfloors
    refine ⟨?_, ?_⟩
    · rw [hnext, hdata, List.drop_drop, ← hint]
      congr 1
      omega
    · rw [hstop, ← hint]
      push_cast
      ring

/-- All samples at once. -/
theorem push_interpolation (hne : rates.inputRate ≠ rates.outputRate) (samples : List ℚ) :
    (({} : NoraLinearResampler rates).push samples).1 = interpolation rates.ratio samples := by
  have hplace : resumesAt rates.ratio 0 < ((0 : ℕ) : ℚ) + 1 := by
    rw [resumesAt_zero]
    norm_num
  have hpush := ((start_carried rates).push hne samples hplace).1
  have hnil : interpolation rates.ratio [] = [] := by
    unfold interpolation
    rw [List.length_nil, steps_of_nonpos rates.ratio_pos (by norm_num)]
    rfl
  rw [List.nil_append, hnil, List.nil_append] at hpush
  exact hpush.symm

/-- What comes out first, if anything does, is the interpolation where the resampler stands. -/
theorem pushAll_head (hne : rates.inputRate ≠ rates.outputRate) (pushes : List (List ℚ))
    (resampler : NoraLinearResampler rates)
    (hdrained : (resampler.buffer.length : ℚ) ≤ resampler.position + 1) :
    (resampler.pushAll pushes).head? =
      if resampler.position + 1 < (resampler.buffer ++ pushes.flatten).length then
        some (interpolate (resampler.buffer ++ pushes.flatten) resampler.position)
      else none := by
  induction pushes generalizing resampler with
  | nil => rw [if_neg (by rw [List.flatten_nil, List.append_nil]; linarith)]; rfl
  | cons input rest ih =>
    rw [pushAll]
    by_cases hnil : input = []
    · rw [hnil, push_nil, List.nil_append, List.flatten_cons, List.nil_append]
      exact ih resampler hdrained
    have hratio := rates.ratio_pos
    obtain ⟨hlow, hhigh⟩ := resampler.position_range
    have hpush := resampler.push_unequal hne hnil
    simp only at hpush
    obtain ⟨houtput, hbuffer, hposition⟩ := hpush
    rw [List.flatten_cons, ← List.append_assoc]
    by_cases hreach : resampler.position + 1 < (resampler.buffer ++ input).length
    · have hlater : resampler.position + 1 <
          (resampler.buffer ++ input ++ rest.flatten).length := by
        rw [List.length_append]
        push_cast
        linarith [Nat.cast_nonneg (α := ℚ) rest.flatten.length]
      have hfirst := interpolate_head hratio (resampler.buffer ++ input) resampler.position
      rw [if_pos hreach, ← houtput] at hfirst
      rw [if_pos hlater, interpolate_append hlow hreach, List.head?_append, hfirst, Option.some_or]
    · have hcount : steps rates.ratio
          ((resampler.buffer ++ input).length - 1 - resampler.position) = 0 :=
        steps_of_nonpos hratio (by linarith [not_lt.mp hreach])
      have hfloor : ⌊resampler.position⌋ = 0 := Int.floor_eq_zero_iff.mpr ⟨hlow, hhigh⟩
      rw [hcount, Nat.cast_zero, zero_mul, add_zero, hfloor] at hbuffer hposition
      rw [hcount, List.range_zero, List.map_nil] at houtput
      rw [Int.toNat_zero, List.drop_zero] at hbuffer
      rw [Int.cast_zero, sub_zero] at hposition
      rw [houtput, List.nil_append, ih _ (by rw [hbuffer, hposition]; exact not_lt.mp hreach),
        hbuffer, hposition]

theorem Carried.drained {resampler : NoraLinearResampler rates} {samples : List ℚ}
    (h : resampler.Carried samples) : (resampler.buffer.length : ℚ) ≤ resampler.position + 1 := by
  have hle := le_resumesAt rates samples.length
  rw [h.buffer_eq, h.position_eq, List.length_drop]
  by_cases hpast : ⌊resumesAt rates.ratio samples.length⌋₊ ≤ samples.length
  · rw [Nat.cast_sub hpast]
    linarith
  · rw [Nat.sub_eq_zero_of_le (by omega), Nat.cast_zero]
    linarith [Nat.floor_le (resumesAt_nonneg rates samples.length)]

/-- Where the next position is past the samples, nothing of them is kept. -/
theorem Carried.overran {resampler : NoraLinearResampler rates} {samples : List ℚ}
    (h : resampler.Carried samples)
    (hpast : (samples.length : ℚ) + 1 ≤ resumesAt rates.ratio samples.length) :
    resampler.buffer = [] := by
  have hfloor : samples.length ≤ ⌊resumesAt rates.ratio samples.length⌋₊ :=
    Nat.le_floor (by linarith)
  rw [h.buffer_eq, List.drop_eq_nil_of_le hfloor]

/-- What the interpolation adds begins where it resumes. -/
theorem interpolation_append_head (rates : SampleRates) (samples more : List ℚ) :
    ∃ added, interpolation rates.ratio (samples ++ more) =
        interpolation rates.ratio samples ++ added ∧
      added.head? = if resumesAt rates.ratio samples.length + 1 < (samples ++ more).length then
        some (interpolate (samples ++ more) (resumesAt rates.ratio samples.length)) else none := by
  have hratio := rates.ratio_pos
  exact ⟨_, interpolation_append hratio samples more, interpolate_head hratio _ _⟩

/-- The run: pushes that keep their place give what their samples add to the interpolation. -/
theorem Carried.pushAll (hne : rates.inputRate ≠ rates.outputRate) (pushes : List (List ℚ))
    {resampler : NoraLinearResampler rates} {samples : List ℚ} (h : resampler.Carried samples)
    (hkeeps : KeepsPlace rates.ratio samples.length (pushes.map List.length)) :
    interpolation rates.ratio (samples ++ pushes.flatten) =
      interpolation rates.ratio samples ++ resampler.pushAll pushes := by
  induction pushes generalizing resampler samples with
  | nil => rw [List.flatten_nil, List.append_nil, NoraLinearResampler.pushAll, List.append_nil]
  | cons input rest ih =>
    obtain ⟨hplace, hrest⟩ := hkeeps
    by_cases hon : resumesAt rates.ratio samples.length < samples.length + 1
    · obtain ⟨houtput, hnext⟩ := h.push hne input hon
      rw [← List.length_append] at hrest
      rw [List.flatten_cons, ← List.append_assoc, ih hnext hrest, houtput,
        NoraLinearResampler.pushAll, List.append_assoc]
    · have hpast := not_lt.mp hon
      have hfew : (input :: rest).flatten.length ≤ 1 := by
        by_contra hmany
        refine hon (hplace ?_)
        rw [List.flatten_cons, List.length_append, List.length_flatten] at hmany
        omega
      have hfew' : ((input :: rest).flatten.length : ℚ) ≤ 1 := by exact_mod_cast hfew
      have hhead := pushAll_head hne (input :: rest) resampler h.drained
      rw [h.overran hpast, List.nil_append,
        if_neg (by linarith [resampler.position_range.1]), List.head?_eq_none_iff] at hhead
      obtain ⟨added, hadded, hadded_head⟩ :=
        interpolation_append_head rates samples (input :: rest).flatten
      rw [if_neg (by rw [List.length_append]; push_cast; linarith), List.head?_eq_none_iff]
        at hadded_head
      rw [hadded, hadded_head, hhead]

/-- The samples `0, 1, 2, …`. -/
def ramp (n : ℕ) : List ℚ := (List.range n).map fun k : ℕ => (k : ℚ)

theorem ramp_length (n : ℕ) : (ramp n).length = n := by
  rw [ramp, List.length_map, List.length_range]

theorem interpolate_ramp {n : ℕ} {position : ℚ} (hp : 0 ≤ position) (h : position + 1 < n) :
    interpolate (ramp n) position = position := by
  have hindex := floor_succ_lt hp h
  unfold interpolate ramp
  simp only [List.getD_eq_getElem?_getD, List.getElem?_map]
  rw [List.getElem?_range (by omega), List.getElem?_range hindex]
  simp only [Option.map_some, Option.getD_some]
  push_cast
  ring

/-- What comes out of a ramp after a push overran it is off its place. -/
theorem Carried.on_place (hne : rates.inputRate ≠ rates.outputRate) {pushes : List (List ℚ)}
    {resampler : NoraLinearResampler rates} {samples : List ℚ} {n : ℕ} (h : resampler.Carried samples)
    (hramp : samples ++ pushes.flatten = ramp n)
    (heq : interpolation rates.ratio (samples ++ pushes.flatten) =
      interpolation rates.ratio samples ++ resampler.pushAll pushes)
    (hmany : 2 ≤ pushes.flatten.length) :
    resumesAt rates.ratio samples.length < samples.length + 1 := by
  by_contra hon
  have hpast := not_lt.mp hon
  obtain ⟨hlow, hhigh⟩ := resampler.position_range
  have hmany' : (2 : ℚ) ≤ pushes.flatten.length := by exact_mod_cast hmany
  have hlength : (samples ++ pushes.flatten).length = n := by
    rw [hramp, ramp_length]
  have hn : (n : ℚ) = samples.length + pushes.flatten.length := by
    rw [← hlength, List.length_append]
    push_cast
    rfl
  have hhead := pushAll_head hne pushes resampler h.drained
  rw [h.overran hpast, List.nil_append, if_pos (by linarith)] at hhead
  obtain ⟨added, hadded, hadded_head⟩ :=
    interpolation_append_head rates samples pushes.flatten
  rw [List.append_cancel_left (hadded.symm.trans heq), hhead] at hadded_head
  split at hadded_head
  next hlt =>
    have hsame := Option.some.inj hadded_head
    have hdrop : pushes.flatten = (ramp n).drop samples.length := by
      rw [← hramp, List.drop_left]
    rw [hlength] at hlt
    rw [hramp, interpolate_ramp (resumesAt_nonneg rates _) hlt, hdrop,
      interpolate_drop _ _ hlow,
      interpolate_ramp (by positivity) (by rw [hn]; linarith)] at hsame
    linarith
  next => cases hadded_head

/-- A ramp tells whether some push overran it. -/
theorem Carried.keepsPlace (hne : rates.inputRate ≠ rates.outputRate) (pushes : List (List ℚ))
    {resampler : NoraLinearResampler rates} {samples : List ℚ} {n : ℕ} (h : resampler.Carried samples)
    (hramp : samples ++ pushes.flatten = ramp n)
    (heq : interpolation rates.ratio (samples ++ pushes.flatten) =
      interpolation rates.ratio samples ++ resampler.pushAll pushes) :
    KeepsPlace rates.ratio samples.length (pushes.map List.length) := by
  induction pushes generalizing resampler samples with
  | nil => trivial
  | cons input rest ih =>
    have hplace : 2 ≤ input.length + (rest.map List.length).sum →
        resumesAt rates.ratio samples.length < samples.length + 1 := by
      intro hmany
      refine h.on_place hne hramp heq ?_
      rw [List.flatten_cons, List.length_append, List.length_flatten]
      exact hmany
    refine ⟨hplace, ?_⟩
    by_cases hmany : 2 ≤ input.length + (rest.map List.length).sum
    · obtain ⟨houtput, hnext⟩ := h.push hne input (hplace hmany)
      rw [List.flatten_cons, ← List.append_assoc] at hramp heq
      rw [← List.length_append]
      refine ih hnext hramp ?_
      rw [heq, houtput, NoraLinearResampler.pushAll, List.append_assoc]
    · exact keepsPlace_few (by omega)

theorem pushAll_equal (heq : rates.inputRate = rates.outputRate) (pushes : List (List ℚ))
    (resampler : NoraLinearResampler rates) : resampler.pushAll pushes = pushes.flatten := by
  induction pushes with
  | nil => rfl
  | cons input rest ih => rw [pushAll, push_equal resampler heq, List.flatten_cons, ih]

end NoraLinearResampler

/-- Up to twice the output rate, no push overruns its samples. -/
theorem keepsPlace_of_le_two (h : rates.ratio ≤ 2) (lengths : List ℕ) (pushed : ℕ) :
    KeepsPlace rates.ratio pushed lengths := by
  induction lengths generalizing pushed with
  | nil => trivial
  | cons n rest ih =>
    refine ⟨fun _ => ?_, ih _⟩
    cases pushed with
    | zero =>
      rw [resumesAt_zero]
      norm_num
    | succ pushed =>
      have hnonneg : (0 : ℚ) ≤ (pushed + 1 : ℕ) - 1 := by
        push_cast
        linarith [Nat.cast_nonneg (α := ℚ) pushed]
      have hlt := steps_mul_lt rates.ratio_pos hnonneg
      unfold resumesAt
      linarith

end Push

/-- Pieces of such lengths come out as all at once, whatever the samples, exactly where they keep
their place. -/
theorem streaming_resample_iff (rates : SampleRates) (lengths : List ℕ) :
    (∀ pushes : List (List ℚ), pushes.map List.length = lengths →
      ({} : NoraLinearResampler rates).pushAll pushes =
          (({} : NoraLinearResampler rates).push pushes.flatten).1 ∧
        (rates.inputRate ≠ rates.outputRate →
          (({} : NoraLinearResampler rates).push pushes.flatten).1 =
            interpolation rates.ratio pushes.flatten)) ↔
      KeepsPlace rates.ratio 0 lengths := by
  by_cases hne : rates.inputRate = rates.outputRate
  · have hratio : rates.ratio ≤ 2 := by
      unfold SampleRates.ratio
      rw [hne, div_self (ne_of_gt rates.outputRate_pos)]
      norm_num
    refine ⟨fun _ => keepsPlace_of_le_two hratio lengths 0, fun _ pushes _ => ⟨?_, fun h => absurd hne h⟩⟩
    rw [NoraLinearResampler.pushAll_equal hne, NoraLinearResampler.push_equal _ hne]
  have hstart := NoraLinearResampler.start_carried rates
  have hnil : interpolation rates.ratio [] = [] := by
    rw [← NoraLinearResampler.push_interpolation hne, NoraLinearResampler.push_nil]
  constructor
  · intro h
    have hsum := NoraLinearResampler.ramp_length lengths.sum
    have hlengths := List.map_splitLengths_length _ lengths (ge_of_eq hsum)
    have hflatten := List.flatten_splitLengths _ lengths (le_of_eq hsum)
    obtain ⟨houtput, hbatch⟩ := h _ hlengths
    have hkeeps := hstart.keepsPlace hne _ ((List.nil_append _).trans hflatten)
      (by rw [hnil, List.nil_append, List.nil_append, houtput, hbatch hne])
    rwa [hlengths] at hkeeps
  · rintro hkeeps pushes rfl
    have hrun := hstart.pushAll hne pushes hkeeps
    rw [hnil, List.nil_append, List.nil_append] at hrun
    refine ⟨?_, fun _ => NoraLinearResampler.push_interpolation hne _⟩
    rw [← hrun, NoraLinearResampler.push_interpolation hne]

def threeToOne : SampleRates where
  inputRate := 48000
  outputRate := 16000
  inputRate_pos := by norm_num
  outputRate_pos := by norm_num

/-- After two samples the next position is the third after them, and the second comes out. -/
theorem streaming_resample_skips : ¬∀ (rates : SampleRates) (pushes : List (List ℚ)),
    (∀ input ∈ pushes, input ≠ []) → ({} : NoraLinearResampler rates).pushAll pushes =
      (({} : NoraLinearResampler rates).push pushes.flatten).1 := by
  intro h
  exact absurd (h threeToOne [[0, 1], [2, 3, 4]] (by decide)) (by decide +kernel)

end NoraInterviewer
