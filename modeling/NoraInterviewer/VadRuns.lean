import NoraInterviewer.VadBoundaries

/-! The detector over a whole sequence of chunks. -/

namespace NoraInterviewer

open TrailingRuns

variable (config : VadConfig) {stream : AudioStreamConfig}
  (chunks : ℕ → Pcm16Chunk stream.channels)

/-- Where the detector stands before a chunk, by what its accumulators hold. -/
inductive Tracks (n : ℕ) (vad : Pcm16EnergyVad) : Prop
  | waiting (hconfig : vad.config = config) (hspeaking : vad.speaking = false)
      (hended : vad.ended = false) (hnone : ∀ j < n, ¬CompletesRun config chunks j)
      (hcandidate : vad.candidateSpeechMs = trailing (loudAt config chunks) (chunkMs chunks) n)
      (hutterance : vad.utteranceMs = 0) (hsilence : vad.silenceMs = 0)
  | speaking (first start : ℕ) (hconfig : vad.config = config) (hspeaking : vad.speaking = true)
      (hended : vad.ended = false) (hstart : StartsAt config chunks start) (hbefore : start < n)
      (hrun : RunBegins config chunks first start)
      (hutterance : vad.utteranceMs = lasting (chunkMs chunks) first n)
      (hsilence : vad.silenceMs = trailing (quietAt config chunks) (chunkMs chunks) n)
      (hgoes : ∀ j, start < j → j < n →
        ¬(ReachesMax config chunks first j ∨ FallsSilent config chunks j))
  | ended (first start last : ℕ) (hconfig : vad.config = config) (hended : vad.ended = true)
      (hstart : StartsAt config chunks start) (hrun : RunBegins config chunks first start)
      (hend : EndsAt config chunks first start last) (hbefore : last < n)
      (hutterance : 0 ≤ vad.utteranceMs) (hsilence : 0 ≤ vad.silenceMs)

/-- An observation tells of a chunk whether speech starts there, whether it has ended, and why. -/
structure TellsBoundaries (n : ℕ) (observation : Pcm16EnergyVad.Observation) : Prop where
  inBounds : observation.InBounds
  started_iff : observation.speechStarted = true ↔ StartsAt config chunks n
  ended_iff : observation.speechEnded = true ↔ ∃ first start last, StartsAt config chunks start ∧
    RunBegins config chunks first start ∧ EndsAt config chunks first start last ∧ last ≤ n
  reachedMax : ∀ first start, StartsAt config chunks start → RunBegins config chunks first start →
    EndsAt config chunks first start n → ReachesMax config chunks first n →
    observation.state = .maxDuration
  fellSilent : ∀ first start, StartsAt config chunks start → RunBegins config chunks first start →
    EndsAt config chunks first start n → ¬ReachesMax config chunks first n →
    observation.state = .speechEnded

variable {config chunks}

theorem EndsAt.unique {first start last other : ℕ} (h : EndsAt config chunks first start last)
    (hother : EndsAt config chunks first start other) : last = other := by
  rcases Nat.lt_trichotomy last other with hlt | heq | hgt
  · exact absurd h.2.1 (hother.2.2 last h.1 hlt)
  · exact heq
  · exact absurd hother.2.1 (h.2.2 other hother.1 hgt)

namespace Pcm16EnergyVad

variable {n : ℕ} {vad : Pcm16EnergyVad} {observation : Observation} {state : VadState}

/-- An observation before any end. -/
theorem tells_open {started : Bool} (hreport : observation.Says state started false)
    (hstarted : started = true ↔ StartsAt config chunks n)
    (hopen : ∀ first start last, StartsAt config chunks start → RunBegins config chunks first start →
      EndsAt config chunks first start last → n < last) :
    TellsBoundaries config chunks n observation := by
  refine ⟨hreport.inBounds, ?_, ?_, ?_, ?_⟩
  · rw [hreport.started_eq]
    exact hstarted
  · rw [hreport.ended_eq]
    refine ⟨fun h => (by cases h), ?_⟩
    rintro ⟨first, start, last, hstart, hrun, hend, hlast⟩
    exact absurd (hopen first start last hstart hrun hend) (by omega)
  · intro first start hstart hrun hend _
    exact absurd (hopen first start n hstart hrun hend) (lt_irrefl n)
  · intro first start hstart hrun hend _
    exact absurd (hopen first start n hstart hrun hend) (lt_irrefl n)

/-- An observation from the end on. -/
theorem tells_over {first start last : ℕ} (hreport : observation.Says state false true)
    (hstart : StartsAt config chunks start) (hrun : RunBegins config chunks first start)
    (hend : EndsAt config chunks first start last) (hlast : last ≤ n)
    (hmax : last = n → ReachesMax config chunks first n → state = .maxDuration)
    (hsilent : last = n → ¬ReachesMax config chunks first n → state = .speechEnded) :
    TellsBoundaries config chunks n observation := by
  have hsame {first' start' : ℕ} (hstart' : StartsAt config chunks start')
      (hrun' : RunBegins config chunks first' start') (hend' : EndsAt config chunks first' start' n) :
      first = first' ∧ last = n := by
    obtain rfl := hstart.unique hstart'
    obtain rfl := hrun.unique hrun'
    exact ⟨rfl, hend.unique hend'⟩
  refine ⟨hreport.inBounds, ?_, ?_, ?_, ?_⟩
  · rw [hreport.started_eq]
    refine ⟨fun h => (by cases h), fun h => ?_⟩
    have heq := hstart.unique h
    have hlt := hend.1
    omega
  · rw [hreport.ended_eq]
    exact ⟨fun _ => ⟨first, start, last, hstart, hrun, hend, hlast⟩, fun _ => rfl⟩
  · intro first' start' hstart' hrun' hend' hreaches
    obtain ⟨rfl, heq⟩ := hsame hstart' hrun' hend'
    rw [hreport.state_eq]
    exact hmax heq hreaches
  · intro first' start' hstart' hrun' hend' hreaches
    obtain ⟨rfl, heq⟩ := hsame hstart' hrun' hend'
    rw [hreport.state_eq]
    exact hsilent heq hreaches

/-- What a chunk makes of the detector: it tells the boundaries there, and stands where it should
before the next. -/
def Keeps (config : VadConfig) (chunks : ℕ → Pcm16Chunk stream.channels) (n : ℕ)
    (vad : Pcm16EnergyVad) : Prop :=
  ∃ observation next,
    vad.observe (chunks n).audio stream.sampleRateHz stream.channels = (.ok observation, next) ∧
      TellsBoundaries config chunks n observation ∧ Tracks config chunks (n + 1) next

theorem keeps_over {first start last : ℕ} (hconfig : vad.config = config) (hended : vad.ended = true)
    (hstart : StartsAt config chunks start) (hrun : RunBegins config chunks first start)
    (hend : EndsAt config chunks first start last) (hbefore : last < n)
    (hutterance : 0 ≤ vad.utteranceMs) (hsilence : 0 ≤ vad.silenceMs) :
    Keeps config chunks n vad := by
  obtain ⟨observation, hreport, hobserve⟩ :=
    observe_ended chunks n hended hutterance hsilence
  exact ⟨observation, vad, hobserve,
    tells_over hreport hstart hrun hend (le_of_lt hbefore) (fun heq => absurd heq (by omega))
      (fun heq => absurd heq (by omega)),
    .ended first start last hconfig hended hstart hrun hend (by omega) hutterance hsilence⟩

theorem keeps_waiting (hconfig : vad.config = config) (hspeaking : vad.speaking = false)
    (hended : vad.ended = false) (hnone : ∀ j < n, ¬CompletesRun config chunks j)
    (hcandidate : vad.candidateSpeechMs = trailing (loudAt config chunks) (chunkMs chunks) n)
    (hutterance : vad.utteranceMs = 0) (hsilence : vad.silenceMs = 0) :
    Keeps config chunks n vad := by
  have hopen {m : ℕ} (hm : ∀ j < m, ¬CompletesRun config chunks j) (first start last : ℕ)
      (hstart : StartsAt config chunks start) (hend : EndsAt config chunks first start last) :
      m < last := by
    have hle : m ≤ start := by
      by_contra hlt
      exact hm start (by omega) hstart.1
    have hlt := hend.1
    omega
  have hnot : ¬vad.speaking = true := by
    rw [hspeaking]
    exact Bool.false_ne_true
  cases hloud : loudAt config chunks n with
  | false =>
    have hnone' : ∀ j < n + 1, ¬CompletesRun config chunks j := by
      refine Nat.forall_lt_succ_right.mpr ⟨hnone, ?_⟩
      rw [completesRun_iff, trailing, hloud, if_neg Bool.false_ne_true, not_le]
      have hle := config.speechStart_range.1
      exact_mod_cast (by omega : 0 < config.speechStartMs)
    let next : Pcm16EnergyVad := { vad with candidateSpeechMs := 0 }
    have hadvance : vad.advance (loudAt config chunks n) (quietAt config chunks n)
        (chunkMs chunks n) = (next, .silence, false, false) := by
      unfold advance
      rw [if_pos hnot, hloud]
      rfl
    obtain ⟨observation, hreport, hobserve⟩ := observe_advance hended hconfig hadvance
      (le_of_eq hutterance.symm) (le_of_eq hsilence.symm)
    refine ⟨observation, next, hobserve, tells_open hreport ?_ fun first start last hstart _ hend => ?_,
      .waiting hconfig hspeaking hended hnone' ?_ hutterance hsilence⟩
    · exact ⟨fun h => (by cases h), fun h => absurd h.1 (hnone' n (by omega))⟩
    · have hlt := hopen hnone' first start last hstart hend
      omega
    · rw [trailing, hloud, if_neg Bool.false_ne_true]
  | true =>
    have htrailing : trailing (loudAt config chunks) (chunkMs chunks) (n + 1) =
        vad.candidateSpeechMs + chunkMs chunks n := by
      rw [trailing, hloud, if_pos rfl, hcandidate]
    have hcompletes : CompletesRun config chunks n ↔
        vad.config.speechStartMs ≤ vad.candidateSpeechMs + chunkMs chunks n := by
      rw [completesRun_iff, htrailing, hconfig]
    by_cases henough : CompletesRun config chunks n
    · have hstart : StartsAt config chunks n := ⟨henough, hnone⟩
      obtain ⟨first, hrun, hlasting⟩ := trailing_run (loudAt_iff.mp hloud)
      let next : Pcm16EnergyVad := { vad with
        candidateSpeechMs := vad.candidateSpeechMs + chunkMs chunks n
        speaking := true
        utteranceMs := vad.candidateSpeechMs + chunkMs chunks n
        silenceMs := 0 }
      have hadvance : vad.advance (loudAt config chunks n) (quietAt config chunks n)
          (chunkMs chunks n) = (next, .speaking, true, false) := by
        unfold advance
        rw [if_pos hnot, hloud, if_pos rfl]
        simp only
        rw [if_pos (hcompletes.mp henough)]
      have hnext : next.utteranceMs = lasting (chunkMs chunks) first (n + 1) :=
        htrailing.symm.trans hlasting
      obtain ⟨observation, hreport, hobserve⟩ := observe_advance hended hconfig hadvance
        (hnext ▸ lasting_nonneg chunkMs_nonneg first (n + 1)) (le_refl 0)
      refine ⟨observation, next, hobserve,
        tells_open hreport ⟨fun _ => hstart, fun _ => rfl⟩ fun first start last hother _ hend => ?_,
        .speaking first n hconfig rfl hended hstart (by omega) hrun hnext ?_
          fun j hfrom hto => absurd hto (by omega)⟩
      · obtain rfl := hother.unique hstart
        exact hend.1
      · have hquiet : quietAt config chunks n = false := Bool.eq_false_of_not_eq_true fun htrue =>
          not_quiet_of_loud (loudAt_iff.mp hloud) (quietAt_iff.mp htrue)
        rw [trailing, hquiet, if_neg Bool.false_ne_true]
    · have hnone' : ∀ j < n + 1, ¬CompletesRun config chunks j :=
        Nat.forall_lt_succ_right.mpr ⟨hnone, henough⟩
      let next : Pcm16EnergyVad := { vad with
        candidateSpeechMs := vad.candidateSpeechMs + chunkMs chunks n }
      have hadvance : vad.advance (loudAt config chunks n) (quietAt config chunks n)
          (chunkMs chunks n) = (next, .speechCandidate, false, false) := by
        unfold advance
        rw [if_pos hnot, hloud, if_pos rfl]
        simp only
        rw [if_neg fun h => henough (hcompletes.mpr h)]
      obtain ⟨observation, hreport, hobserve⟩ := observe_advance hended hconfig hadvance
        (le_of_eq hutterance.symm) (le_of_eq hsilence.symm)
      refine ⟨observation, next, hobserve, tells_open hreport ?_ fun first start last hstart _ hend => ?_,
        .waiting hconfig hspeaking hended hnone' htrailing.symm hutterance hsilence⟩
      · exact ⟨fun h => (by cases h), fun h => absurd h.1 henough⟩
      · have hlt := hopen hnone' first start last hstart hend
        omega

theorem keeps_speaking {first start : ℕ} (hconfig : vad.config = config)
    (hspeaking : vad.speaking = true) (hended : vad.ended = false)
    (hstart : StartsAt config chunks start) (hbefore : start < n)
    (hrun : RunBegins config chunks first start)
    (hutterance : vad.utteranceMs = lasting (chunkMs chunks) first n)
    (hsilence : vad.silenceMs = trailing (quietAt config chunks) (chunkMs chunks) n)
    (hgoes : ∀ j, start < j → j < n →
      ¬(ReachesMax config chunks first j ∨ FallsSilent config chunks j)) :
    Keeps config chunks n vad := by
  have hnot : ¬¬vad.speaking = true := not_not.mpr hspeaking
  have hlasting : vad.utteranceMs + chunkMs chunks n = lasting (chunkMs chunks) first (n + 1) := by
    rw [lasting_succ (by have hle := hrun.1; omega), hutterance]
  have htrailing : (if quietAt config chunks n = true then vad.silenceMs + chunkMs chunks n else 0) =
      trailing (quietAt config chunks) (chunkMs chunks) (n + 1) := by
    rw [trailing, hsilence]
  have hreaches : ReachesMax config chunks first n ↔
      (vad.config.maxUtteranceMs : ℚ) ≤ vad.utteranceMs + chunkMs chunks n := by
    rw [ReachesMax, hlasting, hconfig]
  have hsilent : FallsSilent config chunks n ↔ (vad.config.speechEndSilenceMs : ℚ) ≤
      if quietAt config chunks n = true then vad.silenceMs + chunkMs chunks n else 0 := by
    rw [fallsSilent_iff, htrailing, hconfig]
  have hlength : 0 ≤ vad.utteranceMs + chunkMs chunks n :=
    hlasting ▸ lasting_nonneg chunkMs_nonneg first (n + 1)
  have hquiet : 0 ≤ if quietAt config chunks n = true then vad.silenceMs + chunkMs chunks n else 0 :=
    htrailing ▸ trailing_nonneg chunkMs_nonneg (n + 1)
  let advanced : Pcm16EnergyVad := { vad with
    utteranceMs := vad.utteranceMs + chunkMs chunks n
    silenceMs := if quietAt config chunks n = true then vad.silenceMs + chunkMs chunks n else 0 }
  by_cases hover : ReachesMax config chunks first n ∨ FallsSilent config chunks n
  · have hend : EndsAt config chunks first start n := ⟨hbefore, hover, hgoes⟩
    let next : Pcm16EnergyVad := { advanced with ended := true }
    by_cases hmax : ReachesMax config chunks first n
    · have hadvance : vad.advance (loudAt config chunks n) (quietAt config chunks n)
          (chunkMs chunks n) = (next, .maxDuration, false, true) := by
        unfold advance
        rw [if_neg hnot]
        simp only
        rw [if_pos (hreaches.mp hmax)]
      obtain ⟨observation, hreport, hobserve⟩ := observe_advance hended hconfig hadvance hlength hquiet
      exact ⟨observation, next, hobserve, tells_over hreport hstart hrun hend (le_refl n)
          (fun _ _ => rfl) (fun _ hno => absurd hmax hno),
        .ended first start n hconfig rfl hstart hrun hend (by omega) hlength hquiet⟩
    · have hadvance : vad.advance (loudAt config chunks n) (quietAt config chunks n)
          (chunkMs chunks n) = (next, .speechEnded, false, true) := by
        unfold advance
        rw [if_neg hnot]
        simp only
        rw [if_neg fun h => hmax (hreaches.mpr h),
          if_pos (hsilent.mp (hover.resolve_left hmax))]
      obtain ⟨observation, hreport, hobserve⟩ := observe_advance hended hconfig hadvance hlength hquiet
      exact ⟨observation, next, hobserve, tells_over hreport hstart hrun hend (le_refl n)
          (fun _ hyes => absurd hyes hmax) (fun _ _ => rfl),
        .ended first start n hconfig rfl hstart hrun hend (by omega) hlength hquiet⟩
  · have hadvance : vad.advance (loudAt config chunks n) (quietAt config chunks n)
        (chunkMs chunks n) = (advanced, .speaking, false, false) := by
      unfold advance
      rw [if_neg hnot]
      simp only
      rw [if_neg fun h => hover (.inl (hreaches.mpr h)),
        if_neg fun h => hover (.inr (hsilent.mpr h))]
    have hgoes' : ∀ j, start < j → j < n + 1 →
        ¬(ReachesMax config chunks first j ∨ FallsSilent config chunks j) := by
      intro j hfrom hto
      rcases Nat.lt_succ_iff_lt_or_eq.mp hto with hlt | rfl
      · exact hgoes j hfrom hlt
      · exact hover
    obtain ⟨observation, hreport, hobserve⟩ := observe_advance hended hconfig hadvance hlength hquiet
    refine ⟨observation, advanced, hobserve,
      tells_open hreport ?_ fun first' start' last hstart' hrun' hend => ?_,
      .speaking first start hconfig hspeaking hended hstart (by omega) hrun hlasting htrailing hgoes'⟩
    · refine ⟨fun h => (by cases h), fun h => ?_⟩
      have heq := h.unique hstart
      omega
    · obtain rfl := hstart'.unique hstart
      obtain rfl := hrun'.unique hrun
      by_contra hle
      exact hgoes' last hend.1 (by omega) hend.2.1

/-- The step: from where the detector should stand, a chunk keeps it there. -/
theorem tracks_keeps (h : Tracks config chunks n vad) : Keeps config chunks n vad := by
  cases h with
  | waiting hconfig hspeaking hended hnone hcandidate hutterance hsilence =>
    exact keeps_waiting hconfig hspeaking hended hnone hcandidate hutterance hsilence
  | speaking first start hconfig hspeaking hended hstart hbefore hrun hutterance hsilence hgoes =>
    exact keeps_speaking hconfig hspeaking hended hstart hbefore hrun hutterance hsilence hgoes
  | ended first start last hconfig hended hstart hrun hend hbefore hutterance hsilence =>
    exact keeps_over hconfig hended hstart hrun hend hbefore hutterance hsilence

/-- The run. -/
theorem after_tracks (config : VadConfig) (chunks : ℕ → Pcm16Chunk stream.channels) (n : ℕ) :
    Tracks config chunks n (({ config } : Pcm16EnergyVad).after chunks n) := by
  induction n with
  | zero =>
    exact .waiting rfl rfl rfl (fun j hj => absurd hj (Nat.not_lt_zero j)) rfl rfl rfl
  | succ n ih =>
    obtain ⟨observation, next, hobserve, _, hnext⟩ := tracks_keeps ih
    rw [after, hobserve]
    exact hnext

end Pcm16EnergyVad

/-- Whatever the chunks, every one is observed within the bounds, and the observations tell where
speech starts, once at most, and where it ends. -/
theorem vad_boundaries (config : VadConfig) (stream : AudioStreamConfig)
    (chunks : ℕ → Pcm16Chunk stream.channels) :
    (∀ start other, StartsAt config chunks start → StartsAt config chunks other → start = other) ∧
    (∀ start, StartsAt config chunks start → ∃! first, RunBegins config chunks first start) ∧
    ∀ n, ∃ observation, ({ config } : Pcm16EnergyVad).observation chunks n = .ok observation ∧
      TellsBoundaries config chunks n observation := by
  refine ⟨fun start other hstart hother => hstart.unique hother, fun start hstart => ?_, fun n => ?_⟩
  · obtain ⟨first, hle, hloud, _⟩ := hstart.1
    obtain ⟨begins, hbegins, _⟩ := trailing_run (hloud start hle (le_refl start))
    exact ⟨begins, hbegins, fun other hother => hother.unique hbegins⟩
  · obtain ⟨observation, next, hobserve, htells, _⟩ :=
      Pcm16EnergyVad.tracks_keeps (Pcm16EnergyVad.after_tracks config chunks n)
    refine ⟨observation, ?_, htells⟩
    unfold Pcm16EnergyVad.observation
    rw [hobserve]

end NoraInterviewer
