import Mathlib.Data.List.Forall2
import Mathlib.Data.List.Nodup
import Mathlib.Data.List.Induction

/-! Hash chains: a list of entries each of which names the digest of the entry before
it and carries its own. -/

namespace HashChain

/-- Where an entry keeps its links, and how its digest is computed from the
previous one. `admits` is what an entry must satisfy apart from its links. -/
structure Links (E H : Type) where
  prev : E → Option H
  hash : E → Option H
  digest : E → Option H → H
  admits : E → Prop

variable {E H : Type} (L : Links E H)

/-- `es` continues a chain whose last hash is `p`. -/
def Linked : Option H → List E → Prop
  | _, [] => True
  | p, e :: es => L.admits e ∧ L.prev e = p ∧ L.hash e = some (L.digest e p) ∧ Linked (L.hash e) es

/-- The last hash of a chain that starts after `p`. -/
def head : Option H → List E → Option H
  | p, [] => p
  | _, e :: es => head (L.hash e) es

theorem head_append (p : Option H) (es fs : List E) :
    head L p (es ++ fs) = head L (head L p es) fs := by
  induction es generalizing p with
  | nil => rfl
  | cons e es ih => exact ih _

theorem linked_append {p : Option H} {es fs : List E} :
    Linked L p (es ++ fs) ↔ Linked L p es ∧ Linked L (head L p es) fs := by
  induction es generalizing p with
  | nil => simp [Linked, head]
  | cons e es ih => simp only [List.cons_append, Linked, head, ih, and_assoc]

/-- A properly linked entry extends the chain. -/
theorem Linked.concat {p : Option H} {es : List E} {e : E} (h : Linked L p es)
    (ha : L.admits e) (hp : L.prev e = head L p es)
    (hh : L.hash e = some (L.digest e (head L p es))) : Linked L p (es ++ [e]) :=
  (linked_append L).mpr ⟨h, ha, hp, hh, trivial⟩

theorem Linked.admits_of_mem {p : Option H} {es : List E} {e : E} (h : Linked L p es)
    (he : e ∈ es) : L.admits e := by
  induction es generalizing p with
  | nil => simp at he
  | cons x xs ih =>
    rcases List.mem_cons.mp he with rfl | he
    · exact h.1
    · exact ih h.2.2.2 he

theorem head_concat (p : Option H) (es : List E) (e : E) : head L p (es ++ [e]) = L.hash e := by
  rw [head_append]
  rfl

/-- Equal digests come from equal predecessors and from entries that `same` relates. -/
def Binds (same : E → E → Prop) : Prop :=
  ∀ e e' p p', L.digest e p = L.digest e' p' → p = p' ∧ same e e'

/-- Two chains with one head agree entry by entry. -/
theorem Linked.agree {same : E → E → Prop} (hc : Binds L same) {es es' : List E}
    (h : Linked L none es) (h' : Linked L none es') (hhead : head L none es = head L none es') :
    List.Forall₂ (fun e e' => same e e' ∧ L.prev e = L.prev e' ∧ L.hash e = L.hash e') es es' := by
  -- From the head backwards: the digest of the last entry fixes the head before it.
  induction es using List.reverseRecOn generalizing es' with
  | nil =>
    rcases List.eq_nil_or_concat' es' with rfl | ⟨ys, y, rfl⟩
    · exact List.Forall₂.nil
    · obtain ⟨_, _, _, hy, _⟩ := (linked_append L).mp h'
      rw [head_concat, hy] at hhead
      cases hhead
  | append_singleton xs x ih =>
    obtain ⟨hxs, _, hpx, hx, _⟩ := (linked_append L).mp h
    rcases List.eq_nil_or_concat' es' with rfl | ⟨ys, y, rfl⟩
    · rw [head_concat, hx] at hhead
      cases hhead
    · obtain ⟨hys, _, hpy, hy, _⟩ := (linked_append L).mp h'
      rw [head_concat, head_concat] at hhead
      have hdigest : L.digest x (head L none xs) = L.digest y (head L none ys) := by
        rw [hx, hy] at hhead
        exact Option.some.inj hhead
      obtain ⟨hprev, hsame⟩ := hc _ _ _ _ hdigest
      have hlast : same x y ∧ L.prev x = L.prev y ∧ L.hash x = L.hash y :=
        ⟨hsame, by rw [hpx, hpy, hprev], hhead⟩
      exact List.rel_append (ih hxs hys hprev) (List.Forall₂.cons hlast List.Forall₂.nil)

/-- No two entries of a chain carry one hash. -/
theorem Linked.nodup_hash {same : E → E → Prop} (hc : Binds L same) {es : List E}
    (h : Linked L none es) : (es.map L.hash).Nodup := by
  induction es using List.reverseRecOn with
  | nil => exact List.nodup_nil
  | append_singleton xs x ih =>
    have hxs := ((linked_append L).mp h).1
    rw [List.map_append]
    refine (ih hxs).append (List.nodup_singleton _) ?_
    intro hash hmem hlast
    obtain ⟨e, he, rfl⟩ := List.mem_map.mp hmem
    have hex : L.hash e = L.hash x := by simpa using hlast
    -- The chain up to `e` would have the head of the whole chain, and so its length.
    obtain ⟨us, vs, rfl⟩ := List.append_of_mem he
    have hue : Linked L none (us ++ [e]) := by
      rw [List.append_cons] at hxs
      exact ((linked_append L).mp hxs).1
    have hlen := (hue.agree L hc h (by rw [head_concat, head_concat, hex])).length_eq
    simp only [List.length_append, List.length_cons, List.length_nil] at hlen
    omega

/-- A chain put in another order is not a chain with the same head. -/
theorem Linked.eq_of_perm {same : E → E → Prop} (hc : Binds L same) {es es' : List E}
    (h : Linked L none es) (h' : Linked L none es') (hhead : head L none es = head L none es')
    (hperm : es'.Perm es) : es' = es := by
  have hagree := h.agree L hc h' hhead
  have hinj := List.inj_on_of_nodup_map (h.nodup_hash L hc)
  refine List.ext_getElem hagree.length_eq.symm ?_
  intro i hi' hi
  have hsame := (hagree.get hi hi').2.2
  exact hinj (hperm.mem_iff.mp (List.getElem_mem hi')) (List.getElem_mem hi) hsame.symm

end HashChain
