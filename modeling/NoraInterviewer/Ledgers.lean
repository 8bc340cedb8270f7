import Mathlib.Data.List.Basic
import Mathlib.Logic.Relation
import Mathlib.Data.List.Perm.Subperm

/-! Append-only books of a collection: members come in and are withdrawn later, in the course of
runs that may break off. -/

namespace Ledgers

inductive Fact (ι κ : Type) where
  | added (item : ι)
  | withdrawn (item : ι)
  | broke (run : κ)
  | closed (run : κ) (broken : Bool)
  deriving DecidableEq

variable {ι κ : Type}

def Fact.comesIn : Fact ι κ → Option ι
  | added item => some item
  | _ => none

def Fact.goesOut : Fact ι κ → Option ι
  | withdrawn item => some item
  | _ => none

def Fact.ofRun : Fact ι κ → Bool
  | broke _ => true
  | closed _ _ => true
  | _ => false

/-- What a run leaves in the books. -/
def runFacts (run : κ × Bool) : List (Fact ι κ) :=
  if run.2 then [.broke run.1, .closed run.1 true] else [.closed run.1 false]

/-- The members, each with whether it is in force, the runs, each with whether it broke off, and
the books. -/
structure Ledger (ι κ : Type) where
  items : List (ι × Bool)
  runs : List (κ × Bool)
  facts : List (Fact ι κ)

inductive Step (ledger : Ledger ι κ) : Ledger ι κ → Prop where
  | added {items : List (ι × Bool)} (new : List ι)
    (h : items.Perm (ledger.items ++ new.map (·, true))) :
    Step ledger { ledger with items, facts := ledger.facts ++ new.map .added }
  | withdrawn {items kept : List (ι × Bool)} (old : List ι)
    (hb : ledger.items.Perm (kept ++ old.map (·, true)))
    (ha : items.Perm (kept ++ old.map (·, false))) :
    Step ledger { ledger with items, facts := ledger.facts ++ old.map .withdrawn }
  | ran (run : κ × Bool) :
    Step ledger { ledger with runs := ledger.runs ++ [run], facts := ledger.facts ++ runFacts run }

theorem Step.adds {ledger ledger' : Ledger ι κ} {new : List ι}
    (hitems : ledger'.items.Perm (ledger.items ++ new.map (·, true)))
    (hruns : ledger'.runs = ledger.runs) (hfacts : ledger'.facts = ledger.facts ++ new.map .added) :
    Step ledger ledger' := by
  obtain ⟨items, runs, facts⟩ := ledger'
  cases hruns
  cases hfacts
  exact .added new hitems

theorem Step.withdraws {ledger ledger' : Ledger ι κ} {kept : List (ι × Bool)} {old : List ι}
    (hbefore : ledger.items.Perm (kept ++ old.map (·, true)))
    (hafter : ledger'.items.Perm (kept ++ old.map (·, false)))
    (hruns : ledger'.runs = ledger.runs)
    (hfacts : ledger'.facts = ledger.facts ++ old.map .withdrawn) : Step ledger ledger' := by
  obtain ⟨items, runs, facts⟩ := ledger'
  cases hruns
  cases hfacts
  exact .withdrawn old hbefore hafter

theorem Step.runs {ledger ledger' : Ledger ι κ} {run : κ × Bool}
    (hitems : ledger'.items = ledger.items) (hruns : ledger'.runs = ledger.runs ++ [run])
    (hfacts : ledger'.facts = ledger.facts ++ runFacts run) : Step ledger ledger' := by
  obtain ⟨items, runs, facts⟩ := ledger'
  cases hitems
  cases hruns
  cases hfacts
  exact .ran run

abbrev Run : Ledger ι κ → Ledger ι κ → Prop := Relation.ReflTransGen Step

/-- The members are those that came in, the withdrawn ones among them those that went out, and
not before they came in; and each run is in the books, after a note that it broke if it did. -/
structure Balanced (ledger : Ledger ι κ) : Prop where
  added : (ledger.facts.filterMap Fact.comesIn).Perm (ledger.items.map Prod.fst)
  withdrawn : (ledger.facts.filterMap Fact.goesOut).Perm
    ((ledger.items.filter fun item => !item.2).map Prod.fst)
  ordered : ∀ before, before <+: ledger.facts →
    (before.filterMap Fact.goesOut).Subperm (before.filterMap Fact.comesIn)
  runs : ledger.facts.filter Fact.ofRun = ledger.runs.flatMap runFacts

theorem balanced_nil : Balanced ({ items := [], runs := [], facts := [] } : Ledger ι κ) where
  added := .refl _
  withdrawn := .refl _
  ordered before h := by
    rw [List.prefix_nil.mp h]
    exact .refl _
  runs := rfl

/-- A prefix of an extended log ends within it or within the extension. -/
theorem prefix_append_cases {α : Type} {before first second : List α} (h : before <+: first ++ second) :
    before <+: first ∨ ∃ more, more <+: second ∧ before = first ++ more := by
  rcases List.prefix_or_prefix_of_prefix h (List.prefix_append first second) with hle | hge
  · exact .inl hle
  · obtain ⟨more, rfl⟩ := hge
    exact .inr ⟨more, (List.prefix_append_right_inj first).mp h, rfl⟩

theorem comesIn_added (new : List ι) :
    (new.map Fact.added : List (Fact ι κ)).filterMap Fact.comesIn = new := by
  rw [List.filterMap_map]
  exact List.filterMap_some

theorem goesOut_withdrawn (old : List ι) :
    (old.map Fact.withdrawn : List (Fact ι κ)).filterMap Fact.goesOut = old := by
  rw [List.filterMap_map]
  exact List.filterMap_some

theorem goesOut_added (new : List ι) :
    (new.map Fact.added : List (Fact ι κ)).filterMap Fact.goesOut = [] :=
  List.filterMap_eq_nil_iff.mpr (by simp [Fact.goesOut])

theorem comesIn_withdrawn (old : List ι) :
    (old.map Fact.withdrawn : List (Fact ι κ)).filterMap Fact.comesIn = [] :=
  List.filterMap_eq_nil_iff.mpr (by simp [Fact.comesIn])

theorem comesIn_runFacts (run : κ × Bool) :
    (runFacts run : List (Fact ι κ)).filterMap Fact.comesIn = [] := by
  unfold runFacts
  split <;> rfl

theorem goesOut_runFacts (run : κ × Bool) :
    (runFacts run : List (Fact ι κ)).filterMap Fact.goesOut = [] := by
  unfold runFacts
  split <;> rfl

theorem ofRun_runFacts (run : κ × Bool) :
    (runFacts run : List (Fact ι κ)).filter Fact.ofRun = runFacts run := by
  unfold runFacts
  split <;> rfl

theorem ofRun_added (new : List ι) :
    (new.map Fact.added : List (Fact ι κ)).filter Fact.ofRun = [] :=
  List.filter_eq_nil_iff.mpr (by simp [Fact.ofRun])

theorem ofRun_withdrawn (old : List ι) :
    (old.map Fact.withdrawn : List (Fact ι κ)).filter Fact.ofRun = [] :=
  List.filter_eq_nil_iff.mpr (by simp [Fact.ofRun])

theorem fst_marked (items : List ι) (mark : Bool) : (items.map (·, mark)).map Prod.fst = items := by
  rw [List.map_map]
  exact List.map_id items

theorem filter_marked (items : List ι) (mark : Bool) :
    (items.map (·, mark)).filter (fun item => !item.2) =
      if mark then [] else items.map (·, mark) := by
  cases mark with
  | true => exact List.filter_eq_nil_iff.mpr (by simp)
  | false => exact List.filter_eq_self.mpr (by simp)

/-- Facts that only let members in keep the order. -/
theorem ordered_append {facts more : List (Fact ι κ)}
    (h : ∀ before, before <+: facts →
      (before.filterMap Fact.goesOut).Subperm (before.filterMap Fact.comesIn))
    (hmore : more.filterMap Fact.goesOut = []) :
    ∀ before, before <+: facts ++ more →
      (before.filterMap Fact.goesOut).Subperm (before.filterMap Fact.comesIn) := by
  intro before hbefore
  rcases prefix_append_cases hbefore with hin | ⟨last, hlast, rfl⟩
  · exact h before hin
  · have hnone : last.filterMap Fact.goesOut = [] := by
      have hsub := hlast.sublist.filterMap Fact.goesOut
      rw [hmore] at hsub
      exact List.sublist_nil.mp hsub
    rw [List.filterMap_append, List.filterMap_append, hnone, List.append_nil]
    exact (h facts (List.prefix_refl _)).trans (List.sublist_append_left _ _).subperm

theorem Balanced.step {ledger ledger' : Ledger ι κ} (h : Balanced ledger) (hs : Step ledger ledger') :
    Balanced ledger' := by
  cases hs with
  | @added items new hitems =>
    have hnames := hitems.map Prod.fst
    have hout := (hitems.filter fun item => !item.2).map Prod.fst
    rw [List.map_append, fst_marked] at hnames
    rw [List.filter_append, filter_marked, if_pos rfl, List.append_nil] at hout
    refine ⟨?_, ?_, ordered_append h.ordered (goesOut_added new), ?_⟩
    · rw [List.filterMap_append, comesIn_added]
      exact (h.added.append_right new).trans hnames.symm
    · rw [List.filterMap_append, goesOut_added, List.append_nil]
      exact h.withdrawn.trans hout.symm
    · rw [List.filter_append, ofRun_added, List.append_nil]
      exact h.runs
  | @withdrawn items kept old hb ha =>
    have hnames : (ledger.items.map Prod.fst).Perm (kept.map Prod.fst ++ old) := by
      have hmap := hb.map Prod.fst
      rwa [List.map_append, fst_marked] at hmap
    have hnames' : (items.map Prod.fst).Perm (kept.map Prod.fst ++ old) := by
      have hmap := ha.map Prod.fst
      rwa [List.map_append, fst_marked] at hmap
    have hout : ((ledger.items.filter fun item => !item.2).map Prod.fst).Perm
        ((kept.filter fun item => !item.2).map Prod.fst) := by
      have hmap := (hb.filter fun item => !item.2).map Prod.fst
      rwa [List.filter_append, filter_marked, if_pos rfl, List.append_nil] at hmap
    have hout' : ((items.filter fun item => !item.2).map Prod.fst).Perm
        ((kept.filter fun item => !item.2).map Prod.fst ++ old) := by
      have hmap := (ha.filter fun item => !item.2).map Prod.fst
      rwa [List.filter_append, filter_marked, if_neg (by decide), List.map_append, fst_marked] at hmap
    refine ⟨?_, ?_, ?_, ?_⟩
    · rw [List.filterMap_append, comesIn_withdrawn, List.append_nil]
      exact h.added.trans (hnames.trans hnames'.symm)
    · rw [List.filterMap_append, goesOut_withdrawn]
      exact ((h.withdrawn.trans hout).append_right old).trans hout'.symm
    · intro before hbefore
      rcases prefix_append_cases hbefore with hin | ⟨last, hlast, rfl⟩
      · exact h.ordered before hin
      · -- All that has been withdrawn by the end is among what came in before.
        have hwithdrawn : (ledger.facts.filterMap Fact.goesOut ++ old).Subperm
            (ledger.facts.filterMap Fact.comesIn) := by
          refine ((h.withdrawn.trans hout).append_right old).subperm.trans ?_
          refine List.Subperm.trans ?_ (h.added.trans hnames).symm.subperm
          exact ((List.filter_sublist.map Prod.fst).append_right old).subperm
        have hpart := hlast.sublist.filterMap Fact.goesOut
        rw [goesOut_withdrawn] at hpart
        rw [List.filterMap_append, List.filterMap_append]
        refine ((hpart.append_left _).subperm.trans hwithdrawn).trans ?_
        exact (List.sublist_append_left _ _).subperm
    · rw [List.filter_append, ofRun_withdrawn, List.append_nil]
      exact h.runs
  | ran run =>
    refine ⟨?_, ?_, ordered_append h.ordered (goesOut_runFacts run), ?_⟩
    · rw [List.filterMap_append, comesIn_runFacts, List.append_nil]
      exact h.added
    · rw [List.filterMap_append, goesOut_runFacts, List.append_nil]
      exact h.withdrawn
    · rw [List.filter_append, ofRun_runFacts, h.runs, List.flatMap_append, List.flatMap_singleton]

theorem Balanced.run {ledger ledger' : Ledger ι κ} (h : Balanced ledger) (hr : Run ledger ledger') :
    Balanced ledger' := by
  induction hr with
  | refl => exact h
  | tail _ hs ih => exact ih.step hs

/-- A member goes out only after it came in. -/
theorem Balanced.withdrawn_after {ledger : Ledger ι κ} (h : Balanced ledger)
    {before after : List (Fact ι κ)} {item : ι}
    (hf : ledger.facts = before ++ Fact.withdrawn item :: after) : Fact.added item ∈ before := by
  have hprefix : before ++ [Fact.withdrawn item] <+: ledger.facts := by
    rw [hf]
    exact ⟨after, by simp⟩
  have hin : item ∈ (before ++ [Fact.withdrawn item]).filterMap Fact.comesIn := by
    refine (h.ordered _ hprefix).subset (List.mem_filterMap.mpr ⟨.withdrawn item, by simp, rfl⟩)
  obtain ⟨fact, hfact, hitem⟩ := List.mem_filterMap.mp hin
  cases fact with
  | added other =>
    cases hitem
    simpa using hfact
  | _ => cases hitem

end Ledgers
