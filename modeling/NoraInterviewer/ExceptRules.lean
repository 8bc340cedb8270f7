import Mathlib.Data.List.Forall2

/-! Reading a run of fallible steps: what a success says about the steps before it,
and a contract that speaks about the result and about what may be raised. -/

namespace ExceptRules

variable {ε α β : Type}

theorem bind_ok {x : Except ε α} {f : α → Except ε β} {b : β} (h : x >>= f = .ok b) :
    ∃ a, x = .ok a ∧ f a = .ok b := by
  cases x with
  | error e => cases h
  | ok a => exact ⟨a, rfl, h⟩

theorem map_ok {x : Except ε α} {f : α → β} {b : β} (h : x.map f = .ok b) :
    ∃ a, x = .ok a ∧ f a = b := by
  cases x with
  | error e => cases h
  | ok a => exact ⟨a, rfl, Except.ok.inj h⟩

theorem ok_bind (a : α) (f : α → Except ε β) : (Except.ok a >>= f) = f a := rfl

/-- A step succeeds and then the next, where that succeeds or not whatever the first gave. -/
theorem exists_ok_bind {x : Except ε α} {f : α → Except ε β} {p : Prop}
    (h : ∀ a, (∃ b, f a = .ok b) ↔ p) : (∃ b, x >>= f = .ok b) ↔ (∃ a, x = .ok a) ∧ p := by
  constructor
  · rintro ⟨b, hb⟩
    obtain ⟨a, ha, hf⟩ := bind_ok hb
    exact ⟨⟨a, ha⟩, (h a).mp ⟨b, hf⟩⟩
  · rintro ⟨⟨a, rfl⟩, hp⟩
    exact (h a).mpr hp

/-- What is made of a result is made of the last step's. -/
theorem bind_then_map {γ : Type} (x : Except ε α) (f : α → Except ε β) (g : β → γ) :
    (x >>= f).map g = x >>= fun a => (f a).map g := by
  cases x with
  | error e => rfl
  | ok a => rfl

/-- A guard that raises has not raised. -/
theorem ite_error_ok {c : Prop} [Decidable c] {e : ε} {x : Except ε α} {a : α}
    (h : (if c then .error e else x) = .ok a) : ¬c ∧ x = .ok a := by
  by_cases hc : c
  · rw [if_pos hc] at h
    cases h
  · rw [if_neg hc] at h
    exact ⟨hc, h⟩

/-- A loop none of whose passes raises. -/
theorem mapM_ok {f : α → Except ε β} {items : List α} (h : ∀ item ∈ items, ∃ b, f item = .ok b) :
    ∃ results, items.mapM f = .ok results ∧
      List.Forall₂ (fun item b => f item = .ok b) items results := by
  induction items with
  | nil => exact ⟨[], rfl, .nil⟩
  | cons item rest ih =>
    obtain ⟨b, hb⟩ := h item List.mem_cons_self
    obtain ⟨results, hrest, hall⟩ := ih fun other ho => h other (List.mem_cons_of_mem _ ho)
    refine ⟨b :: results, ?_, .cons hb hall⟩
    rw [List.mapM_cons, hb, hrest]
    rfl

/-- Each result of a loop comes from an item of it. -/
theorem forall₂_mem_right {r : α → β → Prop} {items : List α} {results : List β} {b : β}
    (h : List.Forall₂ r items results) (hb : b ∈ results) : ∃ item ∈ items, r item b := by
  induction h with
  | nil => cases hb
  | cons hr _ ih =>
    rcases List.mem_cons.mp hb with rfl | hb
    · exact ⟨_, List.mem_cons_self, hr⟩
    · obtain ⟨item, hmem, hitem⟩ := ih hb
      exact ⟨item, List.mem_cons_of_mem _ hmem, hitem⟩

/-- What the passes of a loop say of their results, each says of its item. -/
theorem forall₂_iff {r p : α → β → Prop} {q : α → Prop} {items : List α} {results : List β}
    (h : List.Forall₂ r items results) (hpq : ∀ item ∈ items, ∀ b, r item b → (p item b ↔ q item)) :
    List.Forall₂ p items results ↔ ∀ item ∈ items, q item := by
  induction h with
  | nil => simp
  | @cons item b rest results hr _ ih =>
    have hrest := ih fun other ho => hpq other (List.mem_cons_of_mem _ ho)
    rw [List.forall₂_cons, List.forall_mem_cons, hrest, hpq item List.mem_cons_self b hr]

/-- The result meets `post`, or the exception meets `raises`. -/
def Meets (x : Except ε α) (post : α → Prop) (raises : ε → Prop) : Prop :=
  match x with
  | .ok a => post a
  | .error e => raises e

variable {post : α → Prop} {raises : ε → Prop}

theorem Meets.of_ok {x : Except ε α} {a : α} (h : Meets x post raises) (hx : x = .ok a) :
    post a := by
  subst hx
  exact h

theorem Meets.of_error {x : Except ε α} {e : ε} (h : Meets x post raises) (hx : x = .error e) :
    raises e := by
  subst hx
  exact h

theorem Meets.imp {x : Except ε α} {post' : α → Prop} (h : Meets x post raises)
    (hp : ∀ a, post a → post' a) : Meets x post' raises := by
  cases x with
  | error e => exact h
  | ok a => exact hp a h

theorem Meets.weaken {x : Except ε α} {raises' : ε → Prop} (h : Meets x post raises)
    (he : ∀ e, raises e → raises' e) : Meets x post raises' := by
  cases x with
  | error e => exact he e h
  | ok a => exact h

theorem Meets.bind {x : Except ε α} {f : α → Except ε β} {next : β → Prop}
    (h : Meets x post raises) (hf : ∀ a, x = .ok a → post a → Meets (f a) next raises) :
    Meets (x >>= f) next raises := by
  cases x with
  | error e => exact h
  | ok a => exact hf a rfl h

theorem Meets.map {x : Except ε α} {f : α → β} {next : β → Prop}
    (h : Meets x (fun a => next (f a)) raises) : Meets (x.map f) next raises := by
  cases x with
  | error e => exact h
  | ok a => exact h

theorem Meets.mapM {f : α → Except ε β} {items : List α}
    (h : ∀ item ∈ items, Meets (f item) (fun _ => True) raises) :
    Meets (items.mapM f) (fun _ => True) raises := by
  induction items with
  | nil => exact trivial
  | cons item items ih =>
    rw [List.mapM_cons]
    refine (h item List.mem_cons_self).bind fun b _ _ => ?_
    exact (ih fun other ho => h other (List.mem_cons_of_mem _ ho)).bind fun _ _ _ => trivial

theorem Meets.ite {c : Prop} [Decidable c] {x y : Except ε α}
    (hx : c → Meets x post raises) (hy : ¬c → Meets y post raises) :
    Meets (if c then x else y) post raises := by
  by_cases hc : c
  · rw [if_pos hc]
    exact hx hc
  · rw [if_neg hc]
    exact hy hc

end ExceptRules
