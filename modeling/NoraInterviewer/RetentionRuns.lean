import NoraInterviewer.Retention

namespace NoraInterviewer

open ObjectRuns

/-- Objects are only taken away. -/
def Erodes (objects objects' : String → Option (List UInt8)) : Prop :=
  ∀ key, objects' key = none ∨ objects' key = objects key

theorem Erodes.refl (objects : String → Option (List UInt8)) : Erodes objects objects :=
  fun _ => .inr rfl

theorem Erodes.trans {a b c : String → Option (List UInt8)} (hab : Erodes a b) (hbc : Erodes b c) :
    Erodes a c := by
  intro key
  rcases hbc key with h | h
  · exact .inl h
  · rw [h]
    exact hab key

theorem Erodes.none {objects objects' : String → Option (List UInt8)} (h : Erodes objects objects')
    {key : String} (hn : objects key = none) : objects' key = none := by
  rcases h key with h | h
  · exact h
  · rw [h, hn]

theorem erodes_update (objects : String → Option (List UInt8)) (key : String) :
    Erodes objects (Function.update objects key none) := by
  intro other
  by_cases h : other = key
  · exact .inl (by rw [h, Function.update_self])
  · exact .inr (Function.update_of_ne h _ _)

/-- What an artifact operation that makes no object leaves of a session and of the objects. -/
structure Eroded {α : Type} (left : Left StoredSession String (List UInt8) StoreFailure)
    (keys : List String)
    (result : Except PyError α × Left StoredSession String (List UInt8) StoreFailure) : Prop where
  id : result.2.cell.id = left.cell.id
  objects : Erodes left.objects result.2.objects
  erased : ∀ a, result.1 = .ok a → ∀ key ∈ keys, result.2.objects key = none

/-- The first loop of a purge stops at an error, or has erased every object when the rest goes on. -/
theorem eraseAll_alone {α : Type} (backend : Backend) {next : ArtifactProg α}
    (items : List ArtifactRecord) (left : Left StoredSession String (List UInt8) StoreFailure)
    {keys : List String}
    (hnext : ∀ mid : Left StoredSession String (List UInt8) StoreFailure, mid.cell = left.cell →
      Erodes left.objects mid.objects →
      (∀ item ∈ items, mid.objects item.storageKey = none) →
      Eroded mid keys (next.alone backend.sessions .conflict objectNotFound mid)) :
    Eroded left keys
      ((ArtifactService.eraseAll items next).alone backend.sessions .conflict objectNotFound left) := by
  induction items generalizing left with
  | nil => exact hnext left rfl (.refl _) fun _ h => by cases h
  | cons item rest ih =>
    simp only [ArtifactService.eraseAll, Prog.alone]
    cases hf : left.fate with
    | raises e done =>
      refine ⟨rfl, ?_, fun _ h => by cases h⟩
      cases done with
      | false => exact .refl _
      | true => exact erodes_update _ _
    | works =>
      simp only [Fate.outcome, Fate.left, Fate.worked, if_true]
      have hrest := ih { left.next with
          objects := Function.update left.objects item.storageKey none } (by
        intro mid hc ho hi
        refine hnext mid hc ((erodes_update _ _).trans ho) ?_
        intro other hother
        rcases List.mem_cons.mp hother with rfl | hother
        · exact ho.none (Function.update_self ..)
        · exact hi other hother)
      exact ⟨hrest.id, (erodes_update _ _).trans hrest.objects, hrest.erased⟩

theorem stored_id (backend : Backend) (session : StoredSession) :
    (session.stored backend).id = session.id := by
  cases backend with
  | memory => rfl
  | json => rfl

/-- A save that is not the last word on the objects. -/
theorem persistArtifacts_alone {α : Type} (backend : Backend) {value : StoredSession} {result : α}
    (left : Left StoredSession String (List UInt8) StoreFailure) (hv : value.id = left.cell.id)
    {keys : List String} (hkeys : ∀ key ∈ keys, left.objects key = none) :
    Eroded left keys ((persistArtifacts value (.done (.ok result))).alone backend.sessions .conflict
      objectNotFound left) := by
  simp only [persistArtifacts, Prog.alone]
  split
  · exact ⟨rfl, .refl _, fun _ h => by cases h⟩
  · have hid : ∀ done : Bool,
        (if done then backend.sessions.stored value else left.cell).id = left.cell.id := by
      intro done
      cases done with
      | false => rfl
      | true => exact (stored_id backend value).trans hv
    cases hf : left.fate with
    | raises e done => exact ⟨hid done, .refl _, fun _ h => by cases h⟩
    | works => exact ⟨hid true, .refl _, fun _ _ => hkeys⟩

/-- What the round of one session leaves, whether or not it succeeds. -/
structure Taken (world world' : RetentionWorld) (id : String) : Prop where
  others : world'.sessions.filter (fun session => session.id ≠ id) =
    world.sessions.filter fun session => session.id ≠ id
  ids : (world'.sessions.map (·.id)).Sublist (world.sessions.map (·.id))
  objects : Erodes world.objects world'.objects
  gone : (∀ session ∈ world'.sessions, session.id ≠ id) → ∀ session ∈ world.sessions,
    session.id = id → ∀ artifact ∈ session.live, world'.objects artifact.storageKey = none

theorem replace_others (world : RetentionWorld) {id : String} {stored : StoredSession}
    (hid : stored.id = id) :
    (world.replace id stored).sessions.filter (fun session => session.id ≠ id) =
      world.sessions.filter fun session => session.id ≠ id := by
  unfold RetentionWorld.replace
  dsimp only
  induction world.sessions with
  | nil => rfl
  | cons session rest ih =>
    by_cases h : session.id = id
    · simp only [List.map_cons, List.filter_cons, h, hid, if_true, ne_eq, not_true_eq_false,
        decide_false, Bool.false_eq_true, if_false]
      exact ih
    · simp only [List.map_cons, List.filter_cons, h, if_false, ne_eq, not_false_eq_true,
        decide_true, if_true]
      exact congrArg _ ih

theorem replace_ids (world : RetentionWorld) {id : String} {stored : StoredSession}
    (hid : stored.id = id) :
    (world.replace id stored).sessions.map (·.id) = world.sessions.map (·.id) := by
  unfold RetentionWorld.replace
  rw [List.map_map]
  refine List.map_congr_left fun session _ => ?_
  simp only [Function.comp_apply]
  split
  next h => rw [hid, h]
  next => rfl

theorem replace_present {world : RetentionWorld} {id : String} {session stored : StoredSession}
    (hm : session ∈ world.sessions) (hi : session.id = id) (hid : stored.id = id) :
    ∃ kept ∈ (world.replace id stored).sessions, kept.id = id :=
  ⟨stored, List.mem_map.mpr ⟨session, hm, if_pos hi⟩, hid⟩

theorem find_session {world : RetentionWorld}
    (hn : (world.sessions.map (·.id)).Nodup) {session : StoredSession}
    (hm : session ∈ world.sessions) : world.find session.id = some session := by
  unfold RetentionWorld.find
  cases hf : world.sessions.find? fun other => other.id = session.id with
  | none => exact absurd (decide_eq_true rfl) (List.find?_eq_none.mp hf session hm)
  | some other =>
    have hid : other.id = session.id := by simpa only [decide_eq_true_eq] using List.find?_some hf
    rw [List.inj_on_of_nodup_map hn (List.mem_of_find?_eq_some hf) hm hid]

/-- The deletion of a session whose artifacts are gone, or its failure. -/
theorem deleteSession_taken {world mid : RetentionWorld} {id : String}
    (others : mid.sessions.filter (fun session => session.id ≠ id) =
      world.sessions.filter fun session => session.id ≠ id)
    (ids : mid.sessions.map (·.id) = world.sessions.map (·.id))
    (objects : Erodes world.objects mid.objects)
    (hgone : ∀ session ∈ world.sessions, session.id = id → ∀ artifact ∈ session.live,
      mid.objects artifact.storageKey = none)
    (hpresent : ∃ kept ∈ mid.sessions, kept.id = id) :
    Taken world (mid.deleteSession id).2 id ∧
      ∀ removed, (mid.deleteSession id).1 = .ok removed →
        removed = true ∧ ∀ session ∈ (mid.deleteSession id).2.sessions, session.id ≠ id := by
  have hfound : (mid.find id).isSome = true := by
    obtain ⟨kept, hk, hid⟩ := hpresent
    exact List.find?_isSome.mpr ⟨kept, hk, decide_eq_true hid⟩
  have hrest : (mid.sessions.filter fun session => session.id ≠ id).filter
      (fun session => session.id ≠ id) = world.sessions.filter fun session => session.id ≠ id := by
    rw [List.filter_filter, ← others]
    simp only [Bool.and_self]
  have hout : ∀ session ∈ mid.sessions.filter (fun session => session.id ≠ id),
      session.id ≠ id := fun _ h => of_decide_eq_true (List.mem_filter.mp h).2
  have hids : ((mid.sessions.filter fun session => session.id ≠ id).map (·.id)).Sublist
      (world.sessions.map (·.id)) := ids ▸ List.filter_sublist.map _
  unfold RetentionWorld.deleteSession
  cases mid.fates.headD .works with
  | works => exact ⟨⟨hrest, hids, objects, fun _ => hgone⟩, fun removed h => ⟨by
      rw [← Except.ok.inj h]
      exact hfound, hout⟩⟩
  | raises e done =>
    cases done with
    | true => exact ⟨⟨hrest, hids, objects, fun _ => hgone⟩, fun _ h => by cases h⟩
    | false => exact ⟨⟨others, ids ▸ .refl _, objects, fun _ => hgone⟩, fun _ h => by cases h⟩

section

variable [CanonicalDigest]

theorem logArtifact_id {call : ArtifactCall} {session session' : StoredSession} {type : EventType}
    {payload : Dict Json} (h : logArtifact call session type payload = .ok session') :
    session'.id = session.id := by
  obtain ⟨logged, hl, rfl⟩ := ExceptRules.map_ok h
  obtain ⟨events, rfl, -⟩ := appendEvent_ok hl
  rfl

theorem logAllDeleted_id {call : ArtifactCall} {deletedBy reason : String}
    {items : List ArtifactRecord} {session session' : StoredSession}
    (h : ArtifactService.logAllDeleted call deletedBy reason items session = .ok session') :
    session'.id = session.id := by
  induction items generalizing session with
  | nil =>
    cases h
    rfl
  | cons item rest ih =>
    obtain ⟨mid, hm, hr⟩ := ExceptRules.bind_ok h
    exact (ih hr).trans (logArtifact_id hm)

/-- A purge that ends well has erased the object of every live artifact. -/
theorem purgeSession_alone (service : ArtifactService) (call : ArtifactCall) (backend : Backend)
    (deletedBy reason : String) (left : Left StoredSession String (List UInt8) StoreFailure) :
    Eroded left (left.cell.live.map (·.storageKey))
      ((service.purgeSession call deletedBy reason).alone backend.sessions .conflict
        objectNotFound left) := by
  simp only [ArtifactService.purgeSession, loadArtifacts, Prog.alone]
  cases left.fate with
  | raises e done => exact ⟨rfl, .refl _, fun _ h => by cases h⟩
  | works =>
    dsimp only
    split
    next hlive =>
      rw [hlive]
      exact ⟨rfl, .refl _, fun _ _ _ h => by cases h⟩
    next =>
      cases service.requireEnabled with
      | error e => exact ⟨rfl, .refl _, fun _ h => by cases h⟩
      | ok =>
        suffices h : Eroded left.next (left.cell.live.map (·.storageKey))
            ((ArtifactService.eraseAll left.cell.live _).alone backend.sessions .conflict
              objectNotFound left.next) from ⟨h.id, h.objects, h.erased⟩
        refine eraseAll_alone backend left.cell.live left.next ?_
        intro mid hc _ hi
        cases hl : ArtifactService.logAllDeleted call deletedBy reason left.cell.live
            (ArtifactService.markAll call deletedBy reason left.cell) with
        | error e => exact ⟨rfl, .refl _, fun _ h => by cases h⟩
        | ok session =>
          refine persistArtifacts_alone backend mid ((logAllDeleted_id hl).trans ?_) ?_
          · rw [hc]
            rfl
          · simpa only [List.mem_map, forall_exists_index, and_imp, forall_apply_eq_imp_iff₂] using hi

/-- Only the session of the round is touched, and it goes only after the objects of its live
artifacts. -/
theorem remove_taken {manager : RetentionManager} {service : ArtifactService}
    (hs : manager.artifactService = some service) (call : ArtifactCall) {world : RetentionWorld}
    (hn : (world.sessions.map (·.id)).Nodup) {session : StoredSession}
    (hm : session ∈ world.sessions) :
    Taken world (manager.remove call session.id world).2 session.id ∧
      ∀ removed, (manager.remove call session.id world).1 = .ok removed → removed = true ∧
        ∀ kept ∈ (manager.remove call session.id world).2.sessions, kept.id ≠ session.id := by
  have herode := purgeSession_alone service call manager.backend "retention" "session_retention"
    { cell := session, objects := world.objects, fates := world.fates }
  simp only [RetentionManager.remove, hs, RetentionWorld.run, find_session hn hm]
  generalize (service.purgeSession call "retention" "session_retention").alone
    manager.backend.sessions .conflict objectNotFound _ = purged at herode
  obtain ⟨result, left⟩ := purged
  have hothers := replace_others world herode.id
  have hids := replace_ids world herode.id
  have hpresent := replace_present hm rfl herode.id
  cases result with
  | error e =>
    refine ⟨⟨hothers, hids ▸ .refl _, herode.objects, fun hgone => ?_⟩, fun _ h => by cases h⟩
    obtain ⟨kept, hk, hid⟩ := hpresent
    exact absurd hid (hgone kept hk)
  | ok count =>
    refine deleteSession_taken hothers hids herode.objects ?_ hpresent
    intro other ho hid artifact ha
    rw [List.inj_on_of_nodup_map hn ho hm hid] at ha
    exact herode.erased count rfl _ (List.mem_map_of_mem ha)

end

end NoraInterviewer
