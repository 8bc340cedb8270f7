import NoraInterviewer.BuiltInJudges

/-! `Pcm16EnergyVad`: what it makes of one chunk of audio. -/

namespace NoraInterviewer

inductive VadState where
  | silence
  | speechCandidate
  | speaking
  | speechEnded
  | maxDuration
  deriving DecidableEq

def VadState.value : VadState → String
  | silence => "silence"
  | speechCandidate => "speech_candidate"
  | speaking => "speaking"
  | speechEnded => "speech_ended"
  | maxDuration => "max_duration"

structure VadConfig where
  speechThreshold : ℚ := 2 / 100
  releaseThreshold : ℚ := 12 / 1000
  speechStartMs : ℕ := 120
  speechEndSilenceMs : ℕ := 700
  maxUtteranceMs : ℕ := 120000
  speechThreshold_range : 0 < speechThreshold ∧ speechThreshold < 1 := by decide +kernel
  releaseThreshold_range : 0 < releaseThreshold ∧ releaseThreshold < 1 := by decide +kernel
  speechStart_range : 20 ≤ speechStartMs ∧ speechStartMs ≤ 2000 := by decide
  speechEndSilence_range : 100 ≤ speechEndSilenceMs ∧ speechEndSilenceMs ≤ 5000 := by decide
  maxUtterance_range : 1000 ≤ maxUtteranceMs ∧ maxUtteranceMs ≤ 600000 := by decide
  release_lt_speech : releaseThreshold < speechThreshold := by decide +kernel

/-- `round(x, 3)`. -/
def round3 (x : ℚ) : ℚ := roundHalfEven (x * 1000) / 1000

/-- `round(x, 6)`. -/
def round6 (x : ℚ) : ℚ := roundHalfEven (x * 1000000) / 1000000

/-- The integer nearest the square root of `x`, a tie to the even one. -/
def roundSqrt (x : ℚ) : ℕ :=
  let root := Nat.sqrt ⌊x⌋₊
  let middle : ℚ := (root + 1 / 2) * (root + 1 / 2)
  if x < middle then root
  else if middle < x then root + 1
  else if root % 2 = 0 then root
  else root + 1

/-- `struct.iter_unpack("<h", audio)`. -/
def unpackInt16 : List UInt8 → List ℤ
  | low :: high :: rest =>
    let value : ℕ := low.toNat + 256 * high.toNat
    (if value < 32768 then (value : ℤ) else value - 65536) :: unpackInt16 rest
  | _ => []

/-- The mean square of the samples. The code takes its square root, `rms`; the model compares
squares instead. -/
def meanSquare (audio : List UInt8) : ℚ :=
  ((unpackInt16 audio).map fun sample : ℤ => (sample / 32768 : ℚ) * (sample / 32768)).sum /
    (audio.length / 2 : ℕ)

/-- `round(rms, 6)`. -/
def roundedRms (audio : List UInt8) : ℚ := roundSqrt (meanSquare audio * 10 ^ 12) / 10 ^ 6

def normalizedPeak (audio : List UInt8) : ℚ :=
  min 1 (((unpackInt16 audio).foldl (fun peak sample => max peak sample.natAbs) 0 : ℕ) / 32768)

def frameMs (audio : List UInt8) (sampleRateHz channels : ℤ) : ℚ :=
  ((audio.length / 2 : ℕ) / channels : ℤ) / sampleRateHz * 1000

/-- `VadObservation`, whole. -/
structure Pcm16EnergyVad.Observation where
  state : VadState
  rms : ℚ
  peak : ℚ
  frameMs : ℚ
  utteranceMs : ℚ
  silenceMs : ℚ
  speechStarted : Bool
  speechEnded : Bool
  autoCommitRecommended : Bool

/-- The bounds of its fields. -/
def Pcm16EnergyVad.Observation.InBounds (observation : Observation) : Prop :=
  0 ≤ observation.rms ∧ observation.rms ≤ 1 ∧ 0 ≤ observation.peak ∧ observation.peak ≤ 1 ∧
    0 < observation.frameMs ∧ 0 ≤ observation.utteranceMs ∧ 0 ≤ observation.silenceMs

instance (observation : Pcm16EnergyVad.Observation) : Decidable observation.InBounds :=
  inferInstanceAs (Decidable (_ ∧ _))

structure Pcm16EnergyVad where
  config : VadConfig := {}
  speaking : Bool := false
  ended : Bool := false
  candidateSpeechMs : ℚ := 0
  utteranceMs : ℚ := 0
  silenceMs : ℚ := 0

namespace Pcm16EnergyVad

/-- What one chunk does to the accumulators, by its level and its duration; the state to report, and
whether speech started or ended. -/
def advance (vad : Pcm16EnergyVad) (loud quiet : Bool) (frameMs : ℚ) :
    Pcm16EnergyVad × VadState × Bool × Bool :=
  if ¬vad.speaking then
    if loud then
      let candidate := vad.candidateSpeechMs + frameMs
      if vad.config.speechStartMs ≤ candidate then
        ({ vad with
          candidateSpeechMs := candidate
          speaking := true
          utteranceMs := candidate
          silenceMs := 0 }, .speaking, true, false)
      else ({ vad with candidateSpeechMs := candidate }, .speechCandidate, false, false)
    else ({ vad with candidateSpeechMs := 0 }, .silence, false, false)
  else
    let utterance := vad.utteranceMs + frameMs
    let silence := if quiet then vad.silenceMs + frameMs else 0
    let vad := { vad with utteranceMs := utterance, silenceMs := silence }
    if vad.config.maxUtteranceMs ≤ utterance then
      ({ vad with ended := true }, .maxDuration, false, true)
    else if vad.config.speechEndSilenceMs ≤ silence then
      ({ vad with ended := true }, .speechEnded, false, true)
    else (vad, .speaking, false, false)

/-- An observation that its model lets through. -/
def Observation.validate (observation : Observation) : Except Raised Observation :=
  if observation.InBounds then .ok observation
  else .error (.validationError "validation error for VadObservation")

/-- The observation of a chunk, and the detector after it. -/
def observe (vad : Pcm16EnergyVad) (audio : List UInt8) (sampleRateHz channels : ℤ) :
    Except Raised Observation × Pcm16EnergyVad :=
  if sampleRateHz ≤ 0 then (.error (.valueError "sample_rate_hz must be > 0"), vad)
  else if channels ≠ 1 ∧ channels ≠ 2 then (.error (.valueError "channels must be 1 or 2"), vad)
  else if audio = [] then (.error (.valueError "VAD audio frame cannot be empty"), vad)
  else if (audio.length : ℤ) % (2 * channels) ≠ 0 then
    (.error (.valueError "PCM16 audio length must align to complete frames"), vad)
  else if ((audio.length / 2 : ℕ) : ℤ) / channels ≤ 0 then
    (.error (.valueError "PCM16 audio frame contains no samples"), vad)
  else
    let duration := frameMs audio sampleRateHz channels
    let report (vad : Pcm16EnergyVad) (state : VadState) (started ended : Bool) :=
      Observation.validate {
        state
        rms := roundedRms audio
        peak := round6 (normalizedPeak audio)
        frameMs := round3 duration
        utteranceMs := round3 vad.utteranceMs
        silenceMs := round3 vad.silenceMs
        speechStarted := started
        speechEnded := ended
        autoCommitRecommended := ended }
    if vad.ended then (report vad .speechEnded false true, vad)
    else
      let loud := decide (vad.config.speechThreshold * vad.config.speechThreshold ≤ meanSquare audio)
      let quiet := decide (meanSquare audio ≤
        vad.config.releaseThreshold * vad.config.releaseThreshold)
      let (vad, state, started, ended) := vad.advance loud quiet duration
      (report vad state started ended, vad)

end Pcm16EnergyVad

end NoraInterviewer
