import NoraInterviewer.VadReadings
import NoraInterviewer.TrailingRuns
import NoraInterviewer.AudioStreams

/-! Where speech starts and ends in a sequence of chunks, and that the detector tells it. -/

namespace NoraInterviewer

open TrailingRuns

/-- The audio of a chunk: whole frames, one at least. -/
structure Pcm16Chunk (channels : ℕ) where
  audio : List UInt8
  ne_nil : audio ≠ []
  aligned : audio.length % (2 * channels) = 0

section Boundaries

variable (config : VadConfig) {stream : AudioStreamConfig}
  (chunks : ℕ → Pcm16Chunk stream.channels)

/-- The duration of a chunk in milliseconds. -/
def chunkMs (k : ℕ) : ℚ := frameMs (chunks k).audio stream.sampleRateHz stream.channels

/-- At or above the speech threshold. -/
def Loud (k : ℕ) : Prop := (config.speechThreshold : ℝ) ≤ rms (chunks k).audio

/-- At or below the release threshold. -/
def Quiet (k : ℕ) : Prop := rms (chunks k).audio ≤ config.releaseThreshold

/-- Loud chunks up to this one last long enough for speech to start. -/
def CompletesRun (n : ℕ) : Prop :=
  ∃ first ≤ n, (∀ k, first ≤ k → k ≤ n → Loud config chunks k) ∧
    config.speechStartMs ≤ lasting (chunkMs chunks) first (n + 1)

/-- The first chunk that completes a run. -/
def StartsAt (n : ℕ) : Prop :=
  CompletesRun config chunks n ∧ ∀ j < n, ¬CompletesRun config chunks j

/-- The run of loud chunks up to this one begins there. -/
def RunBegins (first n : ℕ) : Prop :=
  first ≤ n ∧ (∀ k, first ≤ k → k ≤ n → Loud config chunks k) ∧
    (first = 0 ∨ ¬Loud config chunks (first - 1))

/-- The utterance reaches its greatest length. -/
def ReachesMax (first n : ℕ) : Prop :=
  config.maxUtteranceMs ≤ lasting (chunkMs chunks) first (n + 1)

/-- Quiet chunks up to this one last long enough for speech to end. -/
def FallsSilent (n : ℕ) : Prop :=
  ∃ first ≤ n, (∀ k, first ≤ k → k ≤ n → Quiet config chunks k) ∧
    config.speechEndSilenceMs ≤ lasting (chunkMs chunks) first (n + 1)

/-- The earliest chunk after the start where the utterance is too long or silence falls. -/
def EndsAt (first start n : ℕ) : Prop :=
  start < n ∧ (ReachesMax config chunks first n ∨ FallsSilent config chunks n) ∧
    ∀ j, start < j → j < n → ¬(ReachesMax config chunks first j ∨ FallsSilent config chunks j)

end Boundaries

namespace Pcm16EnergyVad

variable {stream : AudioStreamConfig}

/-- The detector after the first chunks. -/
def after (vad : Pcm16EnergyVad) (chunks : ℕ → Pcm16Chunk stream.channels) : ℕ → Pcm16EnergyVad
  | 0 => vad
  | n + 1 => ((after vad chunks n).observe (chunks n).audio stream.sampleRateHz stream.channels).2

/-- The observation of one chunk, after those before it. -/
def observation (vad : Pcm16EnergyVad) (chunks : ℕ → Pcm16Chunk stream.channels) (n : ℕ) :
    Except Raised Observation :=
  ((vad.after chunks n).observe (chunks n).audio stream.sampleRateHz stream.channels).1

end Pcm16EnergyVad

section Chunks

variable {config : VadConfig} {stream : AudioStreamConfig}
  {chunks : ℕ → Pcm16Chunk stream.channels}

theorem AudioStreamConfig.channels_cases (stream : AudioStreamConfig) :
    stream.channels = 1 ∨ stream.channels = 2 := by
  have hrange := stream.channels_range
  omega

/-- A chunk has one frame at least. -/
theorem Pcm16Chunk.frames_pos (chunk : Pcm16Chunk stream.channels) :
    0 < ((chunk.audio.length / 2 : ℕ) : ℤ) / (stream.channels : ℤ) := by
  have hpos := List.length_pos_iff.mpr chunk.ne_nil
  have haligned := chunk.aligned
  generalize chunk.audio.length = length at hpos haligned ⊢
  rcases stream.channels_cases with h | h
  · rw [h] at haligned ⊢
    omega
  · rw [h] at haligned ⊢
    omega

theorem le_chunkMs (k : ℕ) : 1 / 100 ≤ chunkMs chunks k := by
  have hframes := (chunks k).frames_pos
  have hframes' : (1 : ℚ) ≤ ((((chunks k).audio.length / 2 : ℕ) : ℤ) / (stream.channels : ℤ) : ℤ) := by
    exact_mod_cast hframes
  have hrate : (stream.sampleRateHz : ℚ) ≤ 96000 := by exact_mod_cast stream.sampleRate_range.2
  have hrate_pos : (0 : ℚ) < stream.sampleRateHz := by
    have hle := stream.sampleRate_range.1
    exact_mod_cast (by omega : 0 < stream.sampleRateHz)
  unfold chunkMs frameMs
  rw [Int.cast_natCast (R := ℚ) stream.sampleRateHz]
  have hdiv : (1 : ℚ) / 96000 ≤ ((((chunks k).audio.length / 2 : ℕ) : ℤ) /
      (stream.channels : ℤ) : ℤ) / stream.sampleRateHz := by
    rw [div_le_div_iff₀ (by norm_num) hrate_pos]
    linarith
  linarith

theorem chunkMs_nonneg (k : ℕ) : 0 ≤ chunkMs chunks k :=
  le_trans (by norm_num) (le_chunkMs k)

variable (config chunks) in
def loudAt (k : ℕ) : Bool :=
  decide (config.speechThreshold * config.speechThreshold ≤ meanSquare (chunks k).audio)

variable (config chunks) in
def quietAt (k : ℕ) : Bool :=
  decide (meanSquare (chunks k).audio ≤ config.releaseThreshold * config.releaseThreshold)

theorem loudAt_iff {k : ℕ} : loudAt config chunks k = true ↔ Loud config chunks k := by
  unfold loudAt Loud
  rw [decide_eq_true_iff, le_rms_iff (le_of_lt config.speechThreshold_range.1)]

theorem quietAt_iff {k : ℕ} : quietAt config chunks k = true ↔ Quiet config chunks k := by
  unfold quietAt Quiet
  rw [decide_eq_true_iff, rms_le_iff (le_of_lt config.releaseThreshold_range.1)]

theorem not_quiet_of_loud {k : ℕ} (h : Loud config chunks k) : ¬Quiet config chunks k := by
  intro hquiet
  have hlt : (config.releaseThreshold : ℝ) < config.speechThreshold := by
    exact_mod_cast config.release_lt_speech
  exact absurd (h.trans hquiet) (not_le.mpr hlt)

theorem completesRun_iff {n : ℕ} : CompletesRun config chunks n ↔
    config.speechStartMs ≤ trailing (loudAt config chunks) (chunkMs chunks) (n + 1) := by
  have hbound : ¬(config.speechStartMs : ℚ) ≤ 0 := by
    have hle := config.speechStart_range.1
    exact not_le.mpr (by exact_mod_cast (by omega : 0 < config.speechStartMs))
  rw [le_trailing_succ_iff chunkMs_nonneg hbound]
  simp only [loudAt_iff]
  rfl

theorem fallsSilent_iff {n : ℕ} : FallsSilent config chunks n ↔
    config.speechEndSilenceMs ≤ trailing (quietAt config chunks) (chunkMs chunks) (n + 1) := by
  have hbound : ¬(config.speechEndSilenceMs : ℚ) ≤ 0 := by
    have hle := config.speechEndSilence_range.1
    exact not_le.mpr (by exact_mod_cast (by omega : 0 < config.speechEndSilenceMs))
  rw [le_trailing_succ_iff chunkMs_nonneg hbound]
  simp only [quietAt_iff]
  rfl

theorem RunBegins.unique {first other n : ℕ} (h : RunBegins config chunks first n)
    (hother : RunBegins config chunks other n) : first = other := by
  have hrun {first : ℕ} (h : RunBegins config chunks first n) :
      RunFrom (loudAt config chunks) first (n + 1) := by
    obtain ⟨_, hall, hbreak⟩ := h
    refine ⟨fun k hfirst hk => loudAt_iff.mpr (hall k hfirst (by omega)), hbreak.imp_right ?_⟩
    intro hquiet
    exact Bool.eq_false_of_not_eq_true fun htrue => hquiet (loudAt_iff.mp htrue)
  exact (hrun h).unique (hrun hother) (by have hle := h.1; omega) (by have hle := hother.1; omega)

/-- The accumulator at a loud chunk holds the run that the chunk is in. -/
theorem trailing_run {n : ℕ} (hloud : Loud config chunks n) : ∃ first,
    RunBegins config chunks first n ∧
      trailing (loudAt config chunks) (chunkMs chunks) (n + 1) =
        lasting (chunkMs chunks) first (n + 1) := by
  obtain ⟨first, hle, ⟨hall, hbreak⟩, heq⟩ :=
    trailing_eq (loudAt config chunks) (chunkMs chunks) (n + 1)
  have hfirst : first ≤ n := by
    rcases Nat.le_succ_iff.mp hle with hle | rfl
    · exact hle
    · rcases hbreak with hzero | hfalse
      · omega
      · rw [Nat.succ_sub_one, loudAt_iff.mpr hloud] at hfalse
        cases hfalse
  refine ⟨first, ⟨hfirst, fun k hk hn => loudAt_iff.mp (hall k hk (by omega)), ?_⟩, heq⟩
  refine hbreak.imp_right fun hfalse hbefore => ?_
  rw [loudAt_iff.mpr hbefore] at hfalse
  cases hfalse

theorem StartsAt.unique {n other : ℕ} (h : StartsAt config chunks n)
    (hother : StartsAt config chunks other) : n = other := by
  rcases Nat.lt_trichotomy n other with hlt | heq | hgt
  · exact absurd h.1 (hother.2 n hlt)
  · exact heq
  · exact absurd hother.1 (h.2 other hgt)

end Chunks

namespace Pcm16EnergyVad

variable {config : VadConfig} {stream : AudioStreamConfig}
  {chunks : ℕ → Pcm16Chunk stream.channels}

/-- An observation within its bounds that says so much. -/
structure Observation.Says (observation : Observation) (state : VadState) (started ended : Bool) :
    Prop where
  inBounds : observation.InBounds
  state_eq : observation.state = state
  started_eq : observation.speechStarted = started
  ended_eq : observation.speechEnded = ended

/-- What is reported of a chunk, with the accumulators after it. -/
def reading (chunks : ℕ → Pcm16Chunk stream.channels) (n : ℕ) (vad : Pcm16EnergyVad) (state : VadState)
    (started ended : Bool) : Observation where
  state := state
  rms := roundedRms (chunks n).audio
  peak := round6 (normalizedPeak (chunks n).audio)
  frameMs := round3 (chunkMs chunks n)
  utteranceMs := round3 vad.utteranceMs
  silenceMs := round3 vad.silenceMs
  speechStarted := started
  speechEnded := ended
  autoCommitRecommended := ended

theorem reading_validate (chunks : ℕ → Pcm16Chunk stream.channels) (n : ℕ) {vad : Pcm16EnergyVad}
    (state : VadState) (started ended : Bool)
    (hutterance : 0 ≤ vad.utteranceMs) (hsilence : 0 ≤ vad.silenceMs) :
    ∃ observation : Observation, observation.Says state started ended ∧
      Observation.validate (reading chunks n vad state started ended) = .ok observation := by
  have hrms := roundedRms_range (chunks n).audio
  have hpeak := round6_range (normalizedPeak_range (chunks n).audio)
  have hbounds : (reading chunks n vad state started ended).InBounds :=
    ⟨hrms.1, hrms.2, hpeak.1, hpeak.2, round3_pos (le_chunkMs n), round3_nonneg hutterance,
      round3_nonneg hsilence⟩
  exact ⟨_, ⟨hbounds, rfl, rfl, rfl⟩, if_pos hbounds⟩

/-- No check of `observe` refuses a chunk of the stream. -/
theorem observe_chunk (vad : Pcm16EnergyVad) (n : ℕ) :
    vad.observe (chunks n).audio stream.sampleRateHz stream.channels =
      if vad.ended then
        (Observation.validate (reading chunks n vad .speechEnded false true), vad)
      else
        let advanced := vad.advance (loudAt vad.config chunks n) (quietAt vad.config chunks n)
          (chunkMs chunks n)
        (Observation.validate (reading chunks n advanced.1 advanced.2.1 advanced.2.2.1
          advanced.2.2.2), advanced.1) := by
  have hrate : ¬((stream.sampleRateHz : ℕ) : ℤ) ≤ 0 := by
    have hle := stream.sampleRate_range.1
    omega
  have hchannels : ¬((stream.channels : ℤ) ≠ 1 ∧ (stream.channels : ℤ) ≠ 2) := by
    have hcases := stream.channels_cases
    omega
  have haligned : ¬(((chunks n).audio.length : ℤ) % (2 * stream.channels) ≠ 0) := by
    have hmod := (chunks n).aligned
    rw [not_not]
    exact_mod_cast hmod
  unfold observe
  rw [if_neg hrate, if_neg hchannels, if_neg (chunks n).ne_nil, if_neg haligned,
    if_neg (not_le.mpr (chunks n).frames_pos)]
  rfl

/-- What a chunk makes of a detector that has not ended: as `advance` has it. -/
theorem observe_advance {vad next : Pcm16EnergyVad} {n : ℕ} {state : VadState}
    {started ended : Bool} (hended : vad.ended = false) (hconfig : vad.config = config)
    (hadvance : vad.advance (loudAt config chunks n) (quietAt config chunks n) (chunkMs chunks n) =
      (next, state, started, ended))
    (hutterance : 0 ≤ next.utteranceMs) (hsilence : 0 ≤ next.silenceMs) :
    ∃ observation : Observation, observation.Says state started ended ∧
      vad.observe (chunks n).audio stream.sampleRateHz stream.channels = (.ok observation, next) := by
  obtain ⟨observation, hreport, hvalid⟩ :=
    reading_validate chunks n state started ended hutterance hsilence
  refine ⟨observation, hreport, ?_⟩
  rw [observe_chunk, hended, if_neg Bool.false_ne_true, hconfig]
  simp only [hadvance, hvalid]

/-- What a chunk makes of one that has ended. -/
theorem observe_ended {vad : Pcm16EnergyVad} (chunks : ℕ → Pcm16Chunk stream.channels) (n : ℕ)
    (hended : vad.ended = true)
    (hutterance : 0 ≤ vad.utteranceMs) (hsilence : 0 ≤ vad.silenceMs) :
    ∃ observation : Observation, observation.Says .speechEnded false true ∧
      vad.observe (chunks n).audio stream.sampleRateHz stream.channels = (.ok observation, vad) := by
  obtain ⟨observation, hreport, hvalid⟩ :=
    reading_validate chunks n .speechEnded false true hutterance hsilence
  refine ⟨observation, hreport, ?_⟩
  rw [observe_chunk, hended, if_pos rfl, hvalid]

end Pcm16EnergyVad

end NoraInterviewer
