import Mathlib.Order.Bounds.Basic
import Mathlib.Order.Defs.LinearOrder

/-! Marks are a grade and a weight. The standing of a list of marks is its greatest grade, with the
greatest weight in that grade; here it is compared with an update that looks at one mark at a time. -/

namespace Grading

/-- Grades in order of strength; a bare one carries no weight. -/
structure Scale (σ : Type) where
  rank : σ → Nat
  lowest : σ
  highest : σ
  bare : σ → Bool
  rank_injective : ∀ s s', rank s = rank s' → s = s'
  lowest_le : ∀ s, rank lowest ≤ rank s
  le_highest : ∀ s, rank s ≤ rank highest
  bare_lowest : bare lowest = true
  bare_highest : bare highest = false

variable {σ γ : Type} [LinearOrder γ] {scale : Scale σ} {marks : List (σ × γ)} {s : σ} {w : Option γ}

/-- The weights that a grade has among the marks. -/
def weights (marks : List (σ × γ)) (s : σ) : Set γ := {c | (s, c) ∈ marks}

/-- The grade occurs, and none above it. -/
structure Leads (scale : Scale σ) (marks : List (σ × γ)) (s : σ) : Prop where
  occurs : ∃ c, (s, c) ∈ marks
  above : ∀ mark ∈ marks, scale.rank mark.1 ≤ scale.rank s

inductive Standing (scale : Scale σ) (marks : List (σ × γ)) : σ → Option γ → Prop where
  | blank (h : marks = []) : Standing scale marks scale.lowest none
  | bare {s : σ} (hs : Leads scale marks s) (hb : scale.bare s = true) : Standing scale marks s none
  | weighed {s : σ} {c : γ} (hs : Leads scale marks s) (hb : scale.bare s = false)
    (hc : IsGreatest (weights marks s) c) : Standing scale marks s (some c)

omit [LinearOrder γ] in
theorem Leads.unique {s' : σ} (h : Leads scale marks s) (h' : Leads scale marks s') : s = s' := by
  obtain ⟨c, hc⟩ := h.occurs
  obtain ⟨c', hc'⟩ := h'.occurs
  exact scale.rank_injective s s' (Nat.le_antisymm (h'.above _ hc) (h.above _ hc'))

omit [LinearOrder γ] in
theorem Leads.ne_nil (h : Leads scale marks s) : marks ≠ [] := by
  obtain ⟨c, hc⟩ := h.occurs
  exact List.ne_nil_of_mem hc

/-- Marks have one standing. -/
theorem Standing.unique {s' : σ} {w' : Option γ} (h : Standing scale marks s w)
    (h' : Standing scale marks s' w') : s = s' ∧ w = w' := by
  cases h with
  | blank hnil =>
    cases h' with
    | blank => exact ⟨rfl, rfl⟩
    | bare hs => exact absurd hnil hs.ne_nil
    | weighed hs => exact absurd hnil hs.ne_nil
  | bare hs hb =>
    cases h' with
    | blank hnil => exact absurd hnil hs.ne_nil
    | bare hs' => exact ⟨hs.unique hs', rfl⟩
    | weighed hs' hb' =>
      rw [hs.unique hs', hb'] at hb
      cases hb
  | weighed hs hb hc =>
    cases h' with
    | blank hnil => exact absurd hnil hs.ne_nil
    | bare hs' hb' =>
      rw [hs.unique hs', hb'] at hb
      cases hb
    | weighed hs' hb' hc' =>
      obtain rfl := hs.unique hs'
      exact ⟨rfl, congrArg some (hc.unique hc')⟩

/-- The standing does not depend on the order of the marks. -/
theorem Standing.perm {marks' : List (σ × γ)} (hp : marks.Perm marks') (h : Standing scale marks s w) :
    Standing scale marks' s w := by
  have hleads : ∀ {s}, Leads scale marks s → Leads scale marks' s := by
    intro s hs
    obtain ⟨c, hc⟩ := hs.occurs
    exact ⟨⟨c, hp.mem_iff.mp hc⟩, fun mark hmem => hs.above mark (hp.mem_iff.mpr hmem)⟩
  cases h with
  | blank hnil =>
    rw [hnil] at hp
    exact .blank hp.nil_eq.symm
  | bare hs hb => exact .bare (hleads hs) hb
  | weighed hs hb hc =>
    have hweights : weights marks' s = weights marks s := Set.ext fun c => hp.mem_iff.symm
    exact .weighed (hleads hs) hb (hweights ▸ hc)

/-- A later mark counts if it is at least as strong, but nothing displaces the highest grade. -/
def update [DecidableEq σ] (scale : Scale σ) (s : σ) (w : Option γ) (mark : σ × γ) : σ × Option γ :=
  if s = scale.highest then (s, w)
  else if scale.rank s ≤ scale.rank mark.1 then (mark.1, some mark.2)
  else (s, w)

/-- A weaker mark than one that is there; or one whose weight the update and the standing agree on:
the first of the highest grade has to be its heaviest, the last of any other grade has to be. -/
def Agrees (scale : Scale σ) (marks : List (σ × γ)) (mark : σ × γ) : Prop :=
  (∃ other ∈ marks, scale.rank mark.1 < scale.rank other.1) ∨
    scale.bare mark.1 = false ∧
      (mark.1 = scale.highest → (∃ other ∈ marks, other.1 = mark.1) →
        ∃ other ∈ marks, other.1 = mark.1 ∧ mark.2 ≤ other.2) ∧
      (mark.1 ≠ scale.highest → ∀ other ∈ marks, other.1 = mark.1 → other.2 ≤ mark.2)

instance [DecidableEq σ] (scale : Scale σ) (marks : List (σ × γ)) (mark : σ × γ) :
    Decidable (Agrees scale marks mark) := by
  unfold Agrees
  infer_instance

omit [LinearOrder γ] in
theorem mem_weights_append {mark : σ × γ} {c : γ} {s : σ} :
    c ∈ weights (marks ++ [mark]) s ↔ c ∈ weights marks s ∨ (s, c) = mark := by
  unfold weights
  rw [Set.mem_ofPred_eq, List.mem_append, List.mem_singleton]
  rfl

omit [LinearOrder γ] in
/-- A mark that is at least as strong as the grade so far leads. -/
theorem leads_append {mark : σ × γ} (h : ∀ other ∈ marks, scale.rank other.1 ≤ scale.rank mark.1) :
    Leads scale (marks ++ [mark]) mark.1 := by
  refine ⟨⟨mark.2, by simp⟩, fun other hother => ?_⟩
  rcases List.mem_append.mp hother with hold | hnew
  · exact h other hold
  · rw [List.mem_singleton.mp hnew]

/-- A weaker mark leaves the standing as it is. -/
theorem Standing.append_weaker {mark : σ × γ} (h : Standing scale marks s w)
    (hlt : scale.rank mark.1 < scale.rank s) : Standing scale (marks ++ [mark]) s w := by
  have hleads : Leads scale marks s → Leads scale (marks ++ [mark]) s := by
    intro hs
    obtain ⟨c, hc⟩ := hs.occurs
    refine ⟨⟨c, List.mem_append_left _ hc⟩, fun other hother => ?_⟩
    rcases List.mem_append.mp hother with hold | hnew
    · exact hs.above other hold
    · rw [List.mem_singleton.mp hnew]
      omega
  cases h with
  | blank hnil =>
    have hlow := scale.lowest_le mark.1
    omega
  | bare hs hb => exact .bare (hleads hs) hb
  | weighed hs hb hc =>
    have hweights : weights (marks ++ [mark]) s = weights marks s := by
      ext c
      rw [mem_weights_append]
      refine or_iff_left fun heq => ?_
      rw [← heq] at hlt
      exact absurd hlt (lt_irrefl _)
    exact .weighed (hleads hs) hb (hweights ▸ hc)

theorem Standing.above (h : Standing scale marks s w) :
    ∀ mark ∈ marks, scale.rank mark.1 ≤ scale.rank s := by
  cases h with
  | blank hnil =>
    intro mark hmem
    rw [hnil] at hmem
    cases hmem
  | bare hs => exact hs.above
  | weighed hs => exact hs.above

/-- Another mark of a bare grade changes nothing. -/
theorem Standing.append_bare {mark : σ × γ} (h : Standing scale marks s w)
    (hb : scale.bare s = true) (hmark : mark.1 = s) : Standing scale (marks ++ [mark]) s w := by
  have hleads : Leads scale (marks ++ [mark]) s := by
    subst hmark
    exact leads_append h.above
  cases h with
  | blank hnil => exact .bare hleads hb
  | bare hs => exact .bare hleads hb
  | weighed hs hb' =>
    rw [hb] at hb'
    cases hb'

theorem standing_some_iff {c : γ} : Standing scale marks s (some c) ↔
    Leads scale marks s ∧ scale.bare s = false ∧ IsGreatest (weights marks s) c := by
  constructor
  · intro h
    cases h with
    | weighed hs hb hc => exact ⟨hs, hb, hc⟩
  · rintro ⟨hs, hb, hc⟩
    exact .weighed hs hb hc

/-- Some mark is stronger than a grade below the standing. -/
theorem Standing.exists_stronger (h : Standing scale marks s w) {s' : σ}
    (hlt : scale.rank s' < scale.rank s) : ∃ other ∈ marks, scale.rank s' < scale.rank other.1 := by
  have hoccurs : Leads scale marks s → ∃ other ∈ marks, scale.rank s' < scale.rank other.1 := by
    intro hs
    obtain ⟨c, hc⟩ := hs.occurs
    exact ⟨(s, c), hc, hlt⟩
  cases h with
  | blank hnil =>
    have hlow := scale.lowest_le s'
    omega
  | bare hs => exact hoccurs hs
  | weighed hs => exact hoccurs hs

/-- The standing in the highest grade has a weight. -/
theorem Standing.of_highest (h : Standing scale marks scale.highest w) :
    ∃ c, w = some c ∧ Leads scale marks scale.highest ∧
      IsGreatest (weights marks scale.highest) c := by
  generalize hs : scale.highest = s at h ⊢
  cases h with
  | blank hnil =>
    have hbare := scale.bare_lowest
    rw [← hs, scale.bare_highest] at hbare
    cases hbare
  | bare hl hb =>
    rw [← hs, scale.bare_highest] at hb
    cases hb
  | @weighed _ c hl hb hc => exact ⟨c, rfl, hl, hc⟩

/-- Once the highest grade is reached, the first weight in it stays. -/
theorem standing_highest_iff {mark : σ × γ} (h : Standing scale marks scale.highest w) :
    Standing scale (marks ++ [mark]) scale.highest w ↔ Agrees scale marks mark := by
  obtain ⟨c, rfl, hleads, hc⟩ := h.of_highest
  by_cases hmark : mark.1 = scale.highest
  · have hnone : ¬∃ other ∈ marks, scale.rank mark.1 < scale.rank other.1 := by
      rintro ⟨other, _, hlt⟩
      have hle := scale.le_highest other.1
      rw [hmark] at hlt
      omega
    rw [standing_some_iff, Agrees, or_iff_right hnone, hmark]
    constructor
    · rintro ⟨_, hb, hgreatest⟩
      refine ⟨hb, fun _ _ => ⟨_, hc.1, rfl, ?_⟩, fun hne => absurd rfl hne⟩
      exact hgreatest.2 (mem_weights_append.mpr (.inr (Prod.ext hmark.symm rfl)))
    · rintro ⟨hb, hfirst, _⟩
      obtain ⟨other, hother, hgrade, hle⟩ := hfirst rfl ⟨_, hc.1, rfl⟩
      have hweight : other.2 ∈ weights marks scale.highest := by
        rw [← hgrade]
        exact hother
      have hle' : mark.2 ≤ c := hle.trans (hc.2 hweight)
      have habove : ∀ other ∈ marks, scale.rank other.1 ≤ scale.rank mark.1 := by
        intro other _
        rw [hmark]
        exact scale.le_highest other.1
      refine ⟨hmark ▸ leads_append habove, hb, mem_weights_append.mpr (.inl hc.1), fun d hd => ?_⟩
      rcases mem_weights_append.mp hd with hold | hnew
      · exact hc.2 hold
      · rw [← hnew] at hle'
        exact hle'
  · have hlt : scale.rank mark.1 < scale.rank scale.highest := by
      have hle := scale.le_highest mark.1
      have hne : scale.rank mark.1 ≠ scale.rank scale.highest :=
        fun heq => hmark (scale.rank_injective _ _ heq)
      omega
    exact iff_of_true (h.append_weaker hlt) (.inl (h.exists_stronger hlt))

/-- A mark that is not weaker, below the highest grade, takes its own weight along. -/
theorem standing_latest_iff {mark : σ × γ} (h : Standing scale marks s w) (hs : s ≠ scale.highest)
    (hle : scale.rank s ≤ scale.rank mark.1) :
    Standing scale (marks ++ [mark]) mark.1 (some mark.2) ↔ Agrees scale marks mark := by
  have habove : ∀ other ∈ marks, scale.rank other.1 ≤ scale.rank mark.1 :=
    fun other hother => (h.above other hother).trans hle
  have hnone : ¬∃ other ∈ marks, scale.rank mark.1 < scale.rank other.1 := by
    rintro ⟨other, hother, hlt⟩
    have hother := habove other hother
    omega
  have hgreatest : IsGreatest (weights (marks ++ [mark]) mark.1) mark.2 ↔
      ∀ other ∈ marks, other.1 = mark.1 → other.2 ≤ mark.2 := by
    constructor
    · intro hg other hother hgrade
      have hweight : other.2 ∈ weights marks mark.1 := by
        rw [← hgrade]
        exact hother
      exact hg.2 (mem_weights_append.mpr (.inl hweight))
    · intro hall
      refine ⟨mem_weights_append.mpr (.inr rfl), fun c hc => ?_⟩
      rcases mem_weights_append.mp hc with hold | hnew
      · exact hall _ hold rfl
      · rw [← hnew]
  rw [standing_some_iff, hgreatest, Agrees, or_iff_right hnone]
  refine (and_iff_right (leads_append habove)).trans (and_congr_right fun _ => ?_)
  by_cases hmark : mark.1 = scale.highest
  · have hempty : ∀ other ∈ marks, other.1 ≠ mark.1 := by
      intro other hother hgrade
      have hrank := h.above _ hother
      have hhigh := scale.le_highest s
      have hne : scale.rank s ≠ scale.rank scale.highest :=
        fun heq => hs (scale.rank_injective _ _ heq)
      rw [hgrade, hmark] at hrank
      omega
    refine iff_of_true (fun other hother hgrade => absurd hgrade (hempty other hother)) ⟨?_, ?_⟩
    · rintro _ ⟨other, hother, hgrade⟩
      exact absurd hgrade (hempty other hother)
    · exact fun hne => absurd hmark hne
  · exact ⟨fun hall => ⟨fun heq => absurd heq hmark, fun _ => hall⟩, fun hall => hall.2 hmark⟩

/-- The update reaches the standing exactly if the mark agrees. -/
theorem update_standing_iff [DecidableEq σ] {mark : σ × γ} (h : Standing scale marks s w) :
    Standing scale (marks ++ [mark]) (update scale s w mark).1 (update scale s w mark).2 ↔
      Agrees scale marks mark := by
  unfold update
  by_cases hs : s = scale.highest
  · rw [if_pos hs]
    subst hs
    exact standing_highest_iff h
  · rw [if_neg hs]
    by_cases hle : scale.rank s ≤ scale.rank mark.1
    · rw [if_pos hle]
      exact standing_latest_iff h hs hle
    · rw [if_neg hle]
      have hlt : scale.rank mark.1 < scale.rank s := by omega
      exact iff_of_true (h.append_weaker hlt) (.inl (h.exists_stronger hlt))

/-- Each mark agrees with those before it. -/
def AgreesInOrder (scale : Scale σ) (marks : List (σ × γ)) : List (σ × γ) → Prop
  | [] => True
  | mark :: rest => Agrees scale marks mark ∧ AgreesInOrder scale (marks ++ [mark]) rest

/-- The grade of the standing: the greatest one among the marks. -/
inductive Graded (scale : Scale σ) (marks : List (σ × γ)) : σ → Prop where
  | blank (h : marks = []) : Graded scale marks scale.lowest
  | led {s : σ} (h : Leads scale marks s) : Graded scale marks s

theorem Standing.graded (h : Standing scale marks s w) : Graded scale marks s := by
  cases h with
  | blank hnil => exact .blank hnil
  | bare hs => exact .led hs
  | weighed hs => exact .led hs

omit [LinearOrder γ] in
theorem Graded.above (h : Graded scale marks s) :
    ∀ mark ∈ marks, scale.rank mark.1 ≤ scale.rank s := by
  cases h with
  | blank hnil =>
    intro mark hmem
    rw [hnil] at hmem
    cases hmem
  | led hs => exact hs.above

omit [LinearOrder γ] in
theorem Graded.append_stronger {mark : σ × γ} (h : Graded scale marks s)
    (hle : scale.rank s ≤ scale.rank mark.1) : Graded scale (marks ++ [mark]) mark.1 :=
  .led (leads_append fun other hother => (h.above other hother).trans hle)

omit [LinearOrder γ] in
theorem Graded.append_weaker {mark : σ × γ} (h : Graded scale marks s)
    (hlt : scale.rank mark.1 < scale.rank s) : Graded scale (marks ++ [mark]) s := by
  cases h with
  | blank hnil =>
    have hlow := scale.lowest_le mark.1
    omega
  | led hs =>
    obtain ⟨c, hc⟩ := hs.occurs
    refine .led ⟨⟨c, List.mem_append_left _ hc⟩, fun other hother => ?_⟩
    rcases List.mem_append.mp hother with hold | hnew
    · exact hs.above other hold
    · rw [List.mem_singleton.mp hnew]
      omega

omit [LinearOrder γ] in
/-- The update finds the grade of the standing, whatever the weights. -/
theorem Graded.update [DecidableEq σ] {mark : σ × γ} (h : Graded scale marks s) :
    Graded scale (marks ++ [mark]) (update scale s w mark).1 := by
  unfold Grading.update
  by_cases hs : s = scale.highest
  · rw [if_pos hs]
    have hle := scale.le_highest mark.1
    rw [← hs] at hle
    by_cases hlt : scale.rank mark.1 < scale.rank s
    · exact h.append_weaker hlt
    · have hmark : mark.1 = s := scale.rank_injective _ _ (by omega)
      have hled := h.append_stronger (by omega : scale.rank s ≤ scale.rank mark.1)
      rw [hmark] at hled
      exact hled
  · rw [if_neg hs]
    by_cases hle : scale.rank s ≤ scale.rank mark.1
    · rw [if_pos hle]
      exact h.append_stronger hle
    · rw [if_neg hle]
      exact h.append_weaker (by omega)

omit [LinearOrder γ] in
/-- The highest grade is reached exactly if a mark has it. -/
theorem Graded.highest_iff (h : Graded scale marks s) :
    s = scale.highest ↔ ∃ mark ∈ marks, mark.1 = scale.highest := by
  constructor
  · rintro rfl
    generalize hs : scale.highest = s at h
    cases h with
    | blank hnil =>
      have hbare := scale.bare_lowest
      rw [← hs, scale.bare_highest] at hbare
      cases hbare
    | led hl =>
      obtain ⟨c, hc⟩ := hl.occurs
      exact ⟨_, hc, rfl⟩
  · rintro ⟨mark, hmem, hmark⟩
    have hle := h.above mark hmem
    have hhigh := scale.le_highest s
    rw [hmark] at hle
    exact scale.rank_injective _ _ (by omega)

end Grading
