import Mathlib.Data.List.Sort

/-! Scans of a list that leave items out, work the others out with a step that may raise, and
fold, collect or sort what they get. -/

namespace FallibleScans

variable {α β γ ε σ : Type}

/-- What is worked out of the items that are picked, each by itself. -/
def worked (pick : α → Option β) (work : α → β → Except ε γ) (items : List α) :
    List (Except ε γ) :=
  items.filterMap fun item => (pick item).map (work item)

def collect (results : List (Except ε γ)) : Except ε (List γ) := results.mapM id

@[simp] theorem collect_nil : collect ([] : List (Except ε γ)) = .ok [] := rfl

theorem collect_cons (x : Except ε γ) (results : List (Except ε γ)) :
    collect (x :: results) = x >>= fun c => (collect results).map (c :: ·) := by
  unfold collect
  rw [List.mapM_cons]
  cases x with
  | error e => rfl
  | ok c =>
    simp only [id]
    cases List.mapM (fun a => a) results with
    | error e => rfl
    | ok cs => rfl

/-- Everything is collected exactly when nothing raised. -/
theorem collect_ok {results : List (Except ε γ)} {cs : List γ} :
    collect results = .ok cs ↔ results = cs.map .ok := by
  induction results generalizing cs with
  | nil =>
    cases cs with
    | nil => simp
    | cons c cs => simp
  | cons x results ih =>
    rw [collect_cons]
    cases x with
    | error e =>
      constructor
      · intro h
        cases h
      · intro h
        cases cs with
        | nil => cases h
        | cons c cs => cases h
    | ok c =>
      constructor
      · intro h
        cases hrest : collect results with
        | error e =>
          rw [hrest] at h
          cases h
        | ok rest =>
          rw [hrest] at h
          cases h
          rw [ih.mp hrest]
          rfl
      · intro h
        cases cs with
        | nil => cases h
        | cons d cs =>
          simp only [List.map_cons, List.cons.injEq, Except.ok.injEq] at h
          obtain ⟨rfl, h⟩ := h
          rw [ih.mpr h]
          rfl

theorem collect_error {results : List (Except ε γ)} {e : ε} (h : collect results = .error e) :
    .error e ∈ results := by
  induction results with
  | nil => cases h
  | cons x results ih =>
    rw [collect_cons] at h
    cases x with
    | error e' =>
      cases h
      exact List.mem_cons_self
    | ok c =>
      cases hrest : collect results with
      | ok rest =>
        rw [hrest] at h
        cases h
      | error e' =>
        rw [hrest] at h
        cases h
        exact List.mem_cons_of_mem _ (ih hrest)

/-- Items that are not picked may be left out of the list. -/
theorem worked_filter {pick : α → Option β} (work : α → β → Except ε γ) {keep : α → Bool}
    (hkeep : ∀ item, keep item = false → pick item = none) (items : List α) :
    worked pick work (items.filter keep) = worked pick work items := by
  unfold worked
  rw [List.filterMap_filter]
  refine List.filterMap_congr fun item _ => ?_
  cases hk : keep item with
  | true => rfl
  | false =>
    rw [hkeep item hk]
    rfl

/-- A scan that adds each result to an account is a fold over what is collected. -/
theorem foldlM_scan (pick : α → Option β) (work : α → β → Except ε γ) (add : σ → γ → σ)
    (body : σ → α → Except ε σ)
    (hskip : ∀ account item, pick item = none → body account item = .ok account)
    (hadd : ∀ account item b, pick item = some b →
      body account item = (work item b).map (add account))
    (items : List α) (account : σ) :
    items.foldlM body account = (collect (worked pick work items)).map (List.foldl add account) := by
  induction items generalizing account with
  | nil => rfl
  | cons item items ih =>
    rw [List.foldlM_cons]
    unfold worked
    cases hp : pick item with
    | none =>
      rw [hskip account item hp, List.filterMap_cons_none (by rw [hp]; rfl)]
      exact ih account
    | some b =>
      rw [hadd account item b hp, List.filterMap_cons_some (by rw [hp]; rfl), collect_cons]
      cases work item b with
      | error e => rfl
      | ok c =>
        refine (ih (add account c)).trans ?_
        unfold worked
        simp only [bind, Except.bind]
        cases collect (items.filterMap fun item => (pick item).map (work item)) with
        | error e => rfl
        | ok cs => rfl

/-- What each pass of a fold keeps, the fold keeps. -/
theorem foldlM_keeps {body : σ → α → Except ε σ} {P : σ → Prop}
    (hbody : ∀ account item account', P account → body account item = .ok account' → P account')
    {items : List α} {account result : σ} (h : items.foldlM body account = .ok result)
    (hp : P account) : P result := by
  induction items generalizing account with
  | nil =>
    cases h
    exact hp
  | cons item items ih =>
    rw [List.foldlM_cons] at h
    cases hb : body account item with
    | error e =>
      rw [hb] at h
      cases h
    | ok account' =>
      rw [hb] at h
      exact ih h (hbody account item account' hp hb)

theorem exists_map_ok {results : List (Except ε γ)} (h : ∀ x ∈ results, ∃ c, x = .ok c) :
    ∃ cs : List γ, results = cs.map .ok := by
  induction results with
  | nil => exact ⟨[], rfl⟩
  | cons x results ih =>
    obtain ⟨c, rfl⟩ := h x List.mem_cons_self
    obtain ⟨cs, rfl⟩ := ih fun x hx => h x (List.mem_cons_of_mem _ hx)
    exact ⟨c :: cs, rfl⟩

theorem collect_ok_of_perm {results results' : List (Except ε γ)} (hperm : results.Perm results')
    {cs : List γ} (h : collect results = .ok cs) :
    ∃ cs', collect results' = .ok cs' ∧ cs.Perm cs' := by
  have hall := collect_ok.mp h
  obtain ⟨cs', rfl⟩ : ∃ cs' : List γ, results' = cs'.map .ok := by
    refine exists_map_ok fun x hx => ?_
    have hmem : x ∈ cs.map Except.ok := hall ▸ hperm.mem_iff.mpr hx
    obtain ⟨c, -, rfl⟩ := List.mem_map.mp hmem
    exact ⟨c, rfl⟩
  rw [hall] at hperm
  have hcs := hperm.filterMap Except.toOption
  simp only [List.filterMap_map, Function.comp_def, Except.toOption, List.filterMap_some] at hcs
  exact ⟨cs', collect_ok.mpr rfl, hcs⟩

/-- The order of the items does not matter where it does not matter for what is made of them, and
one exception is all that can be raised. -/
theorem collect_perm {results results' : List (Except ε γ)} {δ : Type} {e₀ : ε}
    (hperm : results.Perm results') (hone : ∀ e, .error e ∈ results → e = e₀)
    {make : List γ → δ}
    (hmake : ∀ cs cs', collect results = .ok cs → cs.Perm cs' → make cs = make cs') :
    (collect results).map make = (collect results').map make := by
  cases hleft : collect results with
  | ok cs =>
    obtain ⟨cs', heq, hcs⟩ := collect_ok_of_perm hperm hleft
    rw [heq]
    exact congrArg Except.ok (hmake cs cs' hleft hcs)
  | error e =>
    cases hright : collect results' with
    | error e' =>
      rw [hone e (collect_error hleft), hone e' (hperm.mem_iff.mpr (collect_error hright))]
    | ok cs' =>
      obtain ⟨cs, heq, -⟩ := collect_ok_of_perm hperm.symm hright
      rw [heq] at hleft
      cases hleft

/-- `sorted(items, key=key)`. -/
def sortOn {κ : Type} [LinearOrder κ] (key : α → κ) (items : List α) : List α :=
  items.mergeSort fun a b => key a ≤ key b

theorem sortOn_perm {κ : Type} [LinearOrder κ] (key : α → κ) (items : List α) :
    (sortOn key items).Perm items :=
  List.mergeSort_perm _ _

/-- Items of which no two have the same key are sorted into one order. -/
theorem sortOn_eq_of_perm {κ : Type} [LinearOrder κ] {key : α → κ} {items items' : List α}
    (hkey : ∀ a ∈ items, ∀ b ∈ items, key a = key b → a = b) (hperm : items.Perm items') :
    sortOn key items = sortOn key items' := by
  have hsorted : ∀ items : List α, (sortOn key items).Pairwise fun a b => key a ≤ key b := by
    intro items
    have h : (sortOn key items).Pairwise fun a b => decide (key a ≤ key b) = true := by
      refine List.pairwise_mergeSort (fun a b c hab hbc => ?_) (fun a b => ?_) items
      · simp only [decide_eq_true_eq] at hab hbc ⊢
        exact hab.trans hbc
      · simp only [Bool.or_eq_true, decide_eq_true_eq]
        exact le_total _ _
    exact h.imp fun h => of_decide_eq_true h
  refine List.Perm.eq_of_pairwise (fun a b ha hb hab hba => ?_) (hsorted items) (hsorted items')
    ((sortOn_perm key items).trans (hperm.trans (sortOn_perm key items').symm))
  exact hkey a ((sortOn_perm key items).mem_iff.mp ha) b
    (hperm.mem_iff.mpr ((sortOn_perm key items').mem_iff.mp hb)) (le_antisymm hab hba)

end FallibleScans
