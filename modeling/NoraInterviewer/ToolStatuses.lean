import Mathlib.Data.List.Nodup
import NoraInterviewer.Effects

namespace NoraInterviewer

/-- A tool with the id has the status. -/
def hasStatus (tools : List ToolInvocation) (id : String) (status : ToolStatus) : Prop :=
  ∃ tool ∈ tools, tool.id = id ∧ tool.status = status

theorem hasStatus_append (tools : List ToolInvocation) (tool : ToolInvocation) (id : String)
    (status : ToolStatus) :
    hasStatus (tools ++ [tool]) id status ↔
      hasStatus tools id status ∨ tool.id = id ∧ tool.status = status := by
  simp only [hasStatus, List.mem_append, List.mem_singleton, or_and_right, exists_or,
    exists_eq_left]

theorem hasStatus_unique {tools : List ToolInvocation} (hn : (tools.map ToolInvocation.id).Nodup)
    {id : String} {first second : ToolStatus} (h1 : hasStatus tools id first)
    (h2 : hasStatus tools id second) : first = second := by
  obtain ⟨a, ha, hai, rfl⟩ := h1
  obtain ⟨b, hb, hbi, rfl⟩ := h2
  rw [List.inj_on_of_nodup_map hn ha hb (hai.trans hbi.symm)]

theorem setToolStatus_ids (id : String) (status : ToolStatus) (tools : List ToolInvocation) :
    (setToolStatus id status tools).map ToolInvocation.id = tools.map ToolInvocation.id := by
  induction tools with
  | nil => rfl
  | cons tool rest ih =>
    unfold setToolStatus
    split
    next => rfl
    next => rw [List.map_cons, List.map_cons, ih]

/-- With distinct ids, the first tool with the id is the only one. -/
theorem setToolStatus_map {tools : List ToolInvocation}
    (hn : (tools.map ToolInvocation.id).Nodup) (id : String) (status : ToolStatus) :
    setToolStatus id status tools =
      tools.map fun tool => if tool.id = id then { tool with status } else tool := by
  induction tools with
  | nil => rfl
  | cons tool rest ih =>
    rw [List.map_cons, List.nodup_cons] at hn
    rw [setToolStatus, List.map_cons]
    split
    next hid =>
      have hrest : (rest.map fun item => if item.id = id then { item with status } else item) =
          rest.map fun item => item := by
        refine List.map_congr_left fun item hi => if_neg fun he => hn.1 ?_
        exact List.mem_map.mpr ⟨item, hi, he.trans hid.symm⟩
      rw [hrest, List.map_id']
    next => rw [ih hn.2]

/-- Only the named tool changes its status. -/
theorem setToolStatus_hasStatus {id : String} {tools : List ToolInvocation}
    (hn : (tools.map ToolInvocation.id).Nodup) (hm : id ∈ tools.map ToolInvocation.id)
    (status : ToolStatus) (other : String) (wanted : ToolStatus) :
    hasStatus (setToolStatus id status tools) other wanted ↔
      if other = id then wanted = status else hasStatus tools other wanted := by
  induction tools with
  | nil => simp at hm
  | cons tool rest ih =>
    rw [List.map_cons, List.nodup_cons] at hn
    unfold setToolStatus
    split
    next hid =>
      have hrest : ∀ item ∈ rest, item.id ≠ id := by
        intro item hi he
        exact hn.1 (List.mem_map.mpr ⟨item, hi, he.trans hid.symm⟩)
      simp only [hasStatus, List.mem_cons, exists_eq_or_imp]
      split
      next ho =>
        subst ho
        refine ⟨fun h => ?_, fun h => Or.inl ⟨hid, h.symm⟩⟩
        rcases h with ⟨_, h⟩ | ⟨item, hi, he, _⟩
        · exact h.symm
        · exact absurd he (hrest item hi)
      next ho =>
        have hne : ¬tool.id = other := fun he => ho (he.symm.trans hid)
        simp [hne]
    next hid =>
      have hm' : id ∈ rest.map ToolInvocation.id := by
        rcases List.mem_cons.mp hm with h | h
        · exact absurd h.symm hid
        · exact h
      have hrest := ih hn.2 hm'
      simp only [hasStatus, List.mem_cons, exists_eq_or_imp] at hrest ⊢
      rw [hrest]
      split
      next ho =>
        subst ho
        simp [hid]
      next => rfl

/-- Submitting and evaluating an open tool adds it to the evaluated ones, and touches no
cancelled one. -/
theorem worked_hasStatus {tools : List ToolInvocation} {tool : ToolInvocation}
    (hn : (tools.map ToolInvocation.id).Nodup) (hm : tool ∈ tools) (hopen : tool.status = .open)
    (other : String) :
    (hasStatus (setToolStatus tool.id .evaluated (setToolStatus tool.id .submitted tools)) other
        .evaluated ↔ other = tool.id ∨ hasStatus tools other .evaluated) ∧
      (hasStatus (setToolStatus tool.id .evaluated (setToolStatus tool.id .submitted tools)) other
        .cancelled ↔ hasStatus tools other .cancelled) := by
  have hid : tool.id ∈ tools.map ToolInvocation.id := List.mem_map_of_mem hm
  have hids := setToolStatus_ids tool.id .submitted tools
  have hsubmitted := setToolStatus_hasStatus hn hid .submitted other
  rw [← hids] at hn hid
  rw [setToolStatus_hasStatus hn hid, setToolStatus_hasStatus hn hid, hsubmitted, hsubmitted]
  by_cases ho : other = tool.id
  · subst ho
    have hlive : hasStatus tools tool.id .open := ⟨tool, hm, rfl, hopen⟩
    have hnot : ¬hasStatus tools tool.id .cancelled := by
      intro hc
      rw [hids] at hn
      exact absurd (hasStatus_unique hn hlive hc) (by decide)
    simp [hnot]
  · simp [ho]

/-- Cancelling leaves every tool evaluated or cancelled, and touches no evaluated one. -/
theorem cancel_status (tool : ToolInvocation) :
    tool.cancel.status = .evaluated ∧ tool.status = .evaluated ∨
      tool.cancel.status = .cancelled ∧ (tool.status = .cancelled ∨ tool.pending = true) := by
  unfold ToolInvocation.cancel ToolInvocation.pending
  cases h : tool.status <;> simp [h]

theorem cancel_id (tool : ToolInvocation) : tool.cancel.id = tool.id := by
  unfold ToolInvocation.cancel
  split <;> rfl

theorem cancel_ids (tools : List ToolInvocation) :
    (tools.map ToolInvocation.cancel).map ToolInvocation.id = tools.map ToolInvocation.id := by
  rw [List.map_map]
  exact List.map_congr_left fun tool _ => cancel_id tool

theorem cancel_hasStatus_evaluated (tools : List ToolInvocation) (id : String) :
    hasStatus (tools.map ToolInvocation.cancel) id .evaluated ↔ hasStatus tools id .evaluated := by
  simp only [hasStatus, List.mem_map, exists_exists_and_eq_and, cancel_id]
  refine exists_congr fun tool => and_congr_right fun _ => and_congr_right fun _ => ?_
  rcases cancel_status tool with ⟨h1, h2⟩ | ⟨h1, h2⟩
  · simp [h1, h2]
  · rcases h2 with h2 | h2
    · simp [h1, h2]
    · have hne : tool.status ≠ .evaluated := by
        intro he
        simp [ToolInvocation.pending, he] at h2
      simp [h1, hne]

theorem cancel_hasStatus_cancelled (tools : List ToolInvocation) (id : String) :
    hasStatus (tools.map ToolInvocation.cancel) id .cancelled ↔
      hasStatus tools id .cancelled ∨
        id ∈ (tools.filter ToolInvocation.pending).map ToolInvocation.id := by
  simp only [hasStatus, List.mem_map, List.mem_filter, exists_exists_and_eq_and, cancel_id,
    ← exists_or]
  refine exists_congr fun tool => ?_
  have hstatus : tool.cancel.status = .cancelled ↔
      tool.status = .cancelled ∨ tool.pending = true := by
    unfold ToolInvocation.cancel ToolInvocation.pending
    cases h : tool.status <;> simp [h]
  rw [hstatus]
  grind

end NoraInterviewer
