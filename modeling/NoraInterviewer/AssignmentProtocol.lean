import NoraInterviewer.AssignmentMoves
import NoraInterviewer.OwnedRuns
import NoraInterviewer.History
import NoraInterviewer.ServicePrograms

namespace NoraInterviewer

open ExceptRules OptimisticRuns

/-- The timestamps of an assignment are those of its status. -/
structure ReviewAssignment.Shaped (assignment : ReviewAssignment) : Prop where
  open_unstarted : assignment.status = .open → assignment.startedAt = none
  started : assignment.status = .inReview ∨ assignment.status = .completed →
    assignment.startedAt.isSome = true
  completedAt : assignment.completedAt.isSome = true ↔ assignment.status = .completed
  cancelledAt : assignment.cancelledAt.isSome = true ↔ assignment.status = .cancelled

/-- What every stored version keeps: one active assignment at most, and the `REVIEW_*` events of
each assignment are those of the transitions it has made, in their order. -/
structure AssignmentsKept (session : StoredSession) : Prop where
  active_le : session.reviewAssignments.countP (fun item => item.status.active) ≤ 1
  ids_nodup : (session.reviewAssignments.map ReviewAssignment.id).Nodup
  shaped : ∀ item ∈ session.reviewAssignments, item.Shaped
  events : ∀ item ∈ session.reviewAssignments,
    session.reviewLog.filter (fun event => event.assignmentId = item.id) = item.events
  known : ∀ event ∈ session.reviewLog,
    event.assignmentId ∈ session.reviewAssignments.map ReviewAssignment.id

/-- How the assignments get from an earlier version to a later one. -/
structure AssignmentsMoved (older newer : StoredSession) : Prop where
  moved : ∀ item ∈ older.reviewAssignments, ∃ item' ∈ newer.reviewAssignments,
    Relation.ReflTransGen Moves item item'
  begun : ∀ item' ∈ newer.reviewAssignments,
    (∃ item ∈ older.reviewAssignments, Relation.ReflTransGen Moves item item') ∨
      ∃ first : ReviewAssignment, first.Fresh ∧ Relation.ReflTransGen Moves first item'
  settled : ∀ item ∈ older.reviewAssignments, item.status.active = false →
    item ∈ newer.reviewAssignments
  log : older.reviewLog <+: newer.reviewLog

/-- What a write that is not a review request keeps. -/
structure KeepsReviews (base written : StoredSession) : Prop where
  version : written.version = base.version
  reviewAssignments : written.reviewAssignments = base.reviewAssignments
  reviewLog : written.reviewLog = base.reviewLog

theorem AssignmentsMoved.of_moved {older newer : StoredSession}
    (hmoved : ∀ item ∈ older.reviewAssignments, ∃ item' ∈ newer.reviewAssignments,
      Relation.ReflTransGen Moves item item')
    (hbegun : ∀ item' ∈ newer.reviewAssignments,
      (∃ item ∈ older.reviewAssignments, Relation.ReflTransGen Moves item item') ∨
        ∃ first : ReviewAssignment, first.Fresh ∧ Relation.ReflTransGen Moves first item')
    (hlog : older.reviewLog <+: newer.reviewLog) : AssignmentsMoved older newer where
  moved := hmoved
  begun := hbegun
  settled := by
    intro item hi hs
    obtain ⟨item', hi', hmoves⟩ := hmoved item hi
    rwa [moves_settled hmoves hs] at hi'
  log := hlog

theorem AssignmentsMoved.trans {a b c : StoredSession} (hab : AssignmentsMoved a b)
    (hbc : AssignmentsMoved b c) : AssignmentsMoved a c := by
  refine .of_moved (fun item hi => ?_) (fun item' hi' => ?_) (hab.log.trans hbc.log)
  · obtain ⟨mid, hm, hmoves⟩ := hab.moved item hi
    obtain ⟨item', hi', hmoves'⟩ := hbc.moved mid hm
    exact ⟨item', hi', hmoves.trans hmoves'⟩
  · rcases hbc.begun item' hi' with ⟨mid, hm, hmoves'⟩ | hfirst
    · rcases hab.begun mid hm with ⟨item, hi, hmoves⟩ | ⟨first, hfresh, hmoves⟩
      · exact .inl ⟨item, hi, hmoves.trans hmoves'⟩
      · exact .inr ⟨first, hfresh, hmoves.trans hmoves'⟩
    · exact .inr hfirst

theorem ReviewMove.shaped {principalId : String} {assignment moved : ReviewAssignment}
    {type : EventType} (h : ReviewMove principalId assignment type moved)
    (hs : assignment.Shaped) : moved.Shaped := by
  cases h with
  | start at_ ho hr =>
    have hc := hs.completedAt
    have hx := hs.cancelledAt
    rw [ho] at hc hx
    exact ⟨by simp, by simp, by simpa using hc, by simpa using hx⟩
  | complete at_ note hi hr =>
    have hx := hs.cancelledAt
    rw [hi] at hx
    exact ⟨by simp, fun _ => hs.started (.inl hi), by simp, by simpa using hx⟩
  | cancel at_ reason ha =>
    have hc : ¬assignment.completedAt.isSome = true := by
      rw [hs.completedAt]
      intro hcompleted
      rw [hcompleted] at ha
      cases ha
    exact ⟨by simp, by simp, by simpa using hc, by simp⟩

/-- A transition adds its event to those that the assignment has made. -/
theorem ReviewMove.events {principalId : String} {assignment moved : ReviewAssignment}
    {type : EventType} (h : ReviewMove principalId assignment type moved)
    (hs : assignment.Shaped) :
    moved.events = assignment.events ++ [⟨type, assignment.id, assignment.reviewerId⟩] := by
  have hmade : moved.made = assignment.made ++ [type] := by
    unfold ReviewAssignment.made
    cases h with
    | start at_ ho hr =>
      rw [hs.open_unstarted ho, ho]
      rfl
    | complete at_ note hi hr =>
      rw [hi]
      simp
    | cancel at_ reason ha =>
      cases hstatus : assignment.status with
      | «open» => simp
      | inReview => simp
      | completed =>
        rw [hstatus] at ha
        cases ha
      | cancelled =>
        rw [hstatus] at ha
        cases ha
  unfold ReviewAssignment.events
  rw [hmade, h.keeps.1, h.keeps.2.1, List.map_append]
  rfl

theorem AssignmentsKept.congr {base written : StoredSession} (h : AssignmentsKept base)
    (ha : written.reviewAssignments = base.reviewAssignments)
    (hl : written.reviewLog = base.reviewLog) : AssignmentsKept written where
  active_le := ha ▸ h.active_le
  ids_nodup := ha ▸ h.ids_nodup
  shaped := ha ▸ h.shaped
  events := by
    rw [ha, hl]
    exact h.events
  known := by
    rw [ha, hl]
    exact h.known

/-- An assignment that is made where none is active. -/
theorem AssignmentsKept.assigned {base written : StoredSession} (h : AssignmentsKept base)
    {assignment : ReviewAssignment}
    (hnone : ∀ item ∈ base.reviewAssignments, item.status.active = false)
    (hnew : assignment.id ∉ base.reviewAssignments.map ReviewAssignment.id)
    (hfresh : assignment.Fresh)
    (hwritten : written.reviewAssignments = base.reviewAssignments ++ [assignment])
    (hlog : written.reviewLog =
      base.reviewLog ++ [⟨.reviewAssigned, assignment.id, assignment.reviewerId⟩]) :
    AssignmentsKept written where
  active_le := by
    have hzero : base.reviewAssignments.countP (fun item => item.status.active) = 0 :=
      List.countP_eq_zero.mpr fun item hi => by simp [hnone item hi]
    rw [hwritten, List.countP_append, hzero, List.countP_singleton]
    split <;> omega
  ids_nodup := by
    rw [hwritten, List.map_append]
    exact h.ids_nodup.append (List.nodup_singleton _) (by simpa using hnew)
  shaped := by
    intro item hi
    rw [hwritten] at hi
    rcases List.mem_append.mp hi with hi | hi
    · exact h.shaped item hi
    · obtain rfl := List.mem_singleton.mp hi
      refine ⟨fun _ => hfresh.startedAt, ?_, ?_, ?_⟩
      · simp [hfresh.status]
      · simp [hfresh.status, hfresh.completedAt]
      · simp [hfresh.status, hfresh.cancelledAt]
  events := by
    intro item hi
    rw [hwritten] at hi
    rw [hlog, List.filter_append]
    rcases List.mem_append.mp hi with hi | hi
    · have hne : assignment.id ≠ item.id := fun he => hnew (List.mem_map.mpr ⟨item, hi, he.symm⟩)
      rw [h.events item hi]
      simp [hne]
    · obtain rfl := List.mem_singleton.mp hi
      have hnil : base.reviewLog.filter (fun event => event.assignmentId = item.id) = [] := by
        refine List.filter_eq_nil_iff.mpr fun event he => ?_
        simp only [decide_eq_true_eq]
        exact fun heq => hnew (heq ▸ h.known event he)
      rw [hnil]
      simp [ReviewAssignment.events, ReviewAssignment.made, hfresh.startedAt, hfresh.status]
  known := by
    intro event he
    rw [hlog] at he
    rw [hwritten, List.map_append]
    rcases List.mem_append.mp he with he | he
    · exact List.mem_append_left _ (h.known event he)
    · obtain rfl := List.mem_singleton.mp he
      exact List.mem_append_right _ (by simp)

/-- An assignment that moves. -/
theorem AssignmentsKept.moved {principalId : String} {base written : StoredSession}
    (h : AssignmentsKept base) {before after : List ReviewAssignment}
    {assignment moved : ReviewAssignment} {type : EventType}
    (hbase : base.reviewAssignments = before ++ assignment :: after)
    (hmove : ReviewMove principalId assignment type moved)
    (hwritten : written.reviewAssignments = before ++ moved :: after)
    (hlog : written.reviewLog = base.reviewLog ++ [⟨type, assignment.id, assignment.reviewerId⟩]) :
    AssignmentsKept written := by
  obtain ⟨hid, -, hactive⟩ := hmove.keeps
  have hids : written.reviewAssignments.map ReviewAssignment.id =
      base.reviewAssignments.map ReviewAssignment.id := by
    rw [hwritten, hbase]
    simp [hid]
  have hin : assignment ∈ base.reviewAssignments := by simp [hbase]
  have hcases : ∀ item ∈ written.reviewAssignments, item = moved ∨
      item ∈ base.reviewAssignments ∧ item.id ≠ assignment.id := by
    intro item hi
    have hnodup := h.ids_nodup
    rw [hbase, List.map_append, List.map_cons] at hnodup
    obtain ⟨-, hrest, hapart⟩ := List.nodup_append.mp hnodup
    rw [hwritten] at hi
    rcases List.mem_append.mp hi with hi | hi
    · refine .inr ⟨by simp [hbase, hi], ?_⟩
      exact hapart _ (List.mem_map_of_mem hi) _ List.mem_cons_self
    · rcases List.mem_cons.mp hi with hi | hi
      · exact .inl hi
      · refine .inr ⟨by simp [hbase, hi], fun he => ?_⟩
        exact (List.nodup_cons.mp hrest).1 (he ▸ List.mem_map_of_mem hi)
  refine ⟨?_, hids ▸ h.ids_nodup, fun item hi => ?_, fun item hi => ?_, fun event he => ?_⟩
  · have hle := h.active_le
    rw [hbase, List.countP_append, List.countP_cons, hactive, if_pos rfl] at hle
    rw [hwritten, List.countP_append, List.countP_cons]
    split <;> omega
  · rcases hcases item hi with rfl | ⟨hi, -⟩
    · exact hmove.shaped (h.shaped assignment hin)
    · exact h.shaped item hi
  · rw [hlog, List.filter_append]
    rcases hcases item hi with rfl | ⟨hi, hne⟩
    · rw [hid, h.events assignment hin, hmove.events (h.shaped assignment hin)]
      simp
    · rw [h.events item hi]
      simp [hne.symm]
  · rw [hids]
    rw [hlog] at he
    rcases List.mem_append.mp he with he | he
    · exact h.known event he
    · obtain rfl := List.mem_singleton.mp he
      exact List.mem_map_of_mem hin

theorem ReviewStep.kept {principalId : String} {base written : StoredSession}
    (h : ReviewStep principalId base written) (hk : AssignmentsKept base) :
    AssignmentsKept written := by
  cases h with
  | assigned assignment hnone hnew hfresh hby hwritten hlog =>
    exact hk.assigned hnone hnew hfresh hwritten hlog
  | moved before after assignment moved type hbase hmove hwritten hlog =>
    exact hk.moved hbase hmove hwritten hlog

theorem ReviewStep.moves {principalId : String} {base written : StoredSession}
    (h : ReviewStep principalId base written) : AssignmentsMoved base written := by
  cases h with
  | assigned assignment hnone hnew hfresh hby hwritten hlog =>
    refine .of_moved (fun item hi => ⟨item, by simp [hwritten, hi], .refl⟩) (fun item' hi' => ?_)
      (hlog ▸ List.prefix_append _ _)
    rw [hwritten] at hi'
    rcases List.mem_append.mp hi' with hi' | hi'
    · exact .inl ⟨item', hi', .refl⟩
    · obtain rfl := List.mem_singleton.mp hi'
      exact .inr ⟨item', hfresh, .refl⟩
  | moved before after assignment moved type hbase hmove hwritten hlog =>
    have hsingle : Relation.ReflTransGen Moves assignment moved := .single ⟨_, _, hmove⟩
    refine .of_moved (fun item hi => ?_) (fun item' hi' => ?_) (hlog ▸ List.prefix_append _ _)
    · rw [hbase] at hi
      rcases List.mem_append.mp hi with hi | hi
      · exact ⟨item, by simp [hwritten, hi], .refl⟩
      · rcases List.mem_cons.mp hi with rfl | hi
        · exact ⟨moved, by simp [hwritten], hsingle⟩
        · exact ⟨item, by simp [hwritten, hi], .refl⟩
    · rw [hwritten] at hi'
      rcases List.mem_append.mp hi' with hi' | hi'
      · exact .inl ⟨item', by simp [hbase, hi'], .refl⟩
      · rcases List.mem_cons.mp hi' with rfl | hi'
        · exact .inl ⟨assignment, by simp [hbase], hsingle⟩
        · exact .inl ⟨item', by simp [hbase, hi'], .refl⟩

theorem AssignmentsMoved.of_same {base written : StoredSession}
    (ha : written.reviewAssignments = base.reviewAssignments)
    (hl : written.reviewLog = base.reviewLog) : AssignmentsMoved base written := by
  refine .of_moved (fun item hi => ⟨item, ha ▸ hi, .refl⟩) (fun item' hi' => ?_)
    (hl ▸ List.prefix_refl _)
  exact .inl ⟨item', ha ▸ hi', .refl⟩

end NoraInterviewer
