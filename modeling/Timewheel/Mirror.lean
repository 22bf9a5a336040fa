import Timewheel.Effects
import Timewheel.Overlap

/-!
# The task store

A wheel with a `TaskStore` saves a task when it is added and deletes it when it
is removed, so that a later start can restore what was registered: the store
is to hold exactly the registered IDs (`Mirrored`).

Two of the ways out of the wheel do not tell the store. `ClearAllTasks` empties
the map and leaves the store as it is, and so does the internal `removeTask`
for a task that has run its last time. `mirrored_iff` says that nothing else
goes wrong in serial use.

In serial use there is no execution under way when a call is made, so a store
that is out of step has been left so by one of the two. Both only let the
store keep what it should have deleted: a later start would bring back tasks
that have run their last time or have been cleared. That nothing is missing in
the store is part of the same equivalence.
-/

namespace Timewheel

open TimeWheel Scheduler

variable {cfg : Config} {s s' : Scheduler} {w w' w₁ : TimeWheel} {lists : ℕ → List NodeRef}

/-! ## The mirror -/

/-- **The store holds the registered IDs.** The tasks saved under the IDs are
not compared. -/
def TimeWheel.Mirrored (cfg : Config) (w : TimeWheel) : Prop :=
  ∃ store, w.taskStore = some store ∧ ∀ id, id ∈ store ↔ w.lookup cfg id ≠ none

/-- The calls of the store succeed. A failing store is out of step for reasons
of its own, and the wheel only logs it. -/
def Action.StoreOk : Action → Prop
  | .addTask _ env => env.saveOk = true
  | .removeTask _ deleteOk => deleteOk = true
  | .updateTask _ env =>
    env.deleteOk = true ∧ env.add.saveOk = true ∧ env.rollback.saveOk = true
  | _ => True

/-- **The step tells the store**: it ends no task, and clears nothing. Clearing
a wheel that is empty is harmless. -/
def TellsStore (cfg : Config) (s : Scheduler) : Action → Prop
  | .clearAllTasks _ _ => s.wheel.allIDs cfg = []
  | a => s.endsTask cfg a = false

instance (cfg : Config) (s : Scheduler) (a : Action) : Decidable (TellsStore cfg s a) :=
  match a with
  | .clearAllTasks _ _ => inferInstanceAs (Decidable (s.wheel.allIDs cfg = []))
  | .complete i => inferInstanceAs (Decidable (s.endsTask cfg (.complete i) = false))
  | .addTask _ _ => isTrue rfl
  | .removeTask _ _ => isTrue rfl
  | .updateTask _ _ => isTrue rfl
  | .pauseTask _ => isTrue rfl
  | .resumeTask _ _ => isTrue rfl
  | .tick _ => isTrue rfl
  | .reject _ => isTrue rfl
  | .start _ => isTrue rfl
  | .finish _ _ => isTrue rfl
  | .panic _ => isTrue rfl

/-! ## What the calls do to the two sets of IDs -/

/-- **A change of the two sets of IDs**: none, or the same ID enters or leaves
both. Every call but `ClearAllTasks` makes such changes, `UpdateTask` up to
three of them. -/
inductive MovesID (cfg : Config) (w w' : TimeWheel) : Prop where
  | none (lookup : ∀ id, w'.lookup cfg id = w.lookup cfg id)
      (store : w'.taskStore = w.taskStore)
  | enters {id : String} {n : NodeRef} {task : Task}
      (lookup : ∀ id', w'.lookup cfg id' = if id' = id then some n else w.lookup cfg id')
      (store : w'.taskStore = w.taskStore.map (fun store => store.insert id task))
  | leaves {id : String}
      (lookup : ∀ id', w'.lookup cfg id' = if id' = id then Option.none else w.lookup cfg id')
      (store : w'.taskStore = w.taskStore.map (fun store => store.erase id))

/-- So the two sets stay the same if they were. -/
theorem MovesID.mirrored (h : MovesID cfg w w') (hw : w.Mirrored cfg) : w'.Mirrored cfg := by
  obtain ⟨store, hstore, hids⟩ := hw
  cases h with
  | none lookup hsame => exact ⟨store, hsame.trans hstore, fun id => by rw [lookup, hids]⟩
  | @enters id n task lookup hsame =>
    refine ⟨store.insert id task, by rw [hsame, hstore]; rfl, fun id' => ?_⟩
    rw [AList.mem_insert, lookup, hids]
    by_cases hid : id' = id <;> simp [hid]
  | @leaves id lookup hsame =>
    refine ⟨store.erase id, by rw [hsame, hstore]; rfl, fun id' => ?_⟩
    rw [AList.mem_erase, lookup, hids]
    by_cases hid : id' = id <;> simp [hid]

/-- Preparing a node does not reach the store. It is told when the task is
entered. -/
theorem prepareNode_store (cfg : Config) (w : TimeWheel) (task : Task) (env : AddEnv) :
    (w.prepareNode cfg task env).2.taskStore = w.taskStore := by
  unfold prepareNode poolGet
  cases env.node with
  | none => rfl
  | some n =>
    dsimp only
    split_ifs <;> rfl

/-- `AddTask` inserts into both, or into neither. -/
theorem addTask_movesID (cfg : Config) (w : TimeWheel) (task : Option Task) {env : AddEnv}
    (hsave : env.saveOk = true) : MovesID cfg w (w.addTask cfg task env).2 := by
  unfold addTask
  cases task with
  | none => exact .none (fun _ => rfl) rfl
  | some t =>
    dsimp only
    cases checkTask t with
    | error err => exact .none (fun _ => rfl) rfl
    | ok t' =>
      dsimp only
      split_ifs with hrun
      · exact .none (fun _ => rfl) rfl
      · have hstore := prepareNode_store cfg w t' env
        have hgot := prepareNode_got cfg w t' env
        generalize w.prepareNode cfg t' env = g at hstore hgot ⊢
        obtain ⟨n, w₁⟩ := g
        dsimp only at hstore hgot ⊢
        cases w₁.lookup cfg t'.id with
        | some m => exact .none (lookup_congr hgot.shards) hstore
        | none =>
          obtain ⟨heap, slots, hw⟩ :=
            (relinked_insertOrdered w₁ n t'.priority (w₁.heap n).slotIndex).frame
          refine @MovesID.enters cfg w _ t'.id n t' (fun id' => ?_) ?_
          · rw [← lookup_congr hgot.shards id', ← insertEntry_lookup]
            unfold linkTask
            rw [hw]
            rfl
          · unfold linkTask
            rw [hw, ← hstore]
            show (if env.saveOk = true then w₁.taskStore.map _ else w₁.taskStore) = _
            rw [if_pos hsave]

/-- A call that looks for the node of an ID. If there is none, nothing moves. -/
theorem withEntry_movesID (id : String) {g : NodeRef → Option Err × TimeWheel}
    (hg : ∀ n, MovesID cfg w (g n).2) : MovesID cfg w (withEntry cfg w id g).2 := by
  unfold withEntry
  split_ifs
  · exact .none (fun _ => rfl) rfl
  · cases w.lookup cfg id with
    | none => exact .none (fun _ => rfl) rfl
    | some n => exact hg n

/-- `RemoveTask` deletes from both, -/
theorem removeTask_movesID (cfg : Config) (w : TimeWheel) (id : String) :
    MovesID cfg w (w.removeTask cfg id true).2 := by
  refine withEntry_movesID id (fun n => ?_)
  obtain ⟨heap, slots, hw⟩ := (w.unlink_spec n (w.heap n).slotIndex).1.frame
  dsimp only
  rw [hw]
  refine @MovesID.leaves cfg w _ id (fun id' => ?_) rfl
  rw [← deleteEntry_lookup]
  rfl

/-- `PauseTask` and -/
theorem pauseTask_movesID (cfg : Config) (w : TimeWheel) (id : String) :
    MovesID cfg w (w.pauseTask cfg id).2 :=
  pauseTask_wheel (MovesID cfg w) w id (.none (fun _ => rfl) rfl)
    (fun _ => .none (fun _ => rfl) rfl)

/-- `ResumeTask` from neither. -/
theorem resumeTask_movesID (cfg : Config) (w : TimeWheel) (id : String) (now : Time) :
    MovesID cfg w (w.resumeTask cfg id now).2 :=
  resumeTask_wheel (MovesID cfg w) w id now (.none (fun _ => rfl) rfl)
    (fun _ _ => .none (fun _ => rfl) rfl)

/-- **The calls keep the store in step**, except that clearing does not reach
it. `UpdateTask` is put together from the others. -/
theorem mirrored_call {a : Action} (hcall : a.isCall = true) (hok : a.StoreOk)
    (hclear : ∀ order now, a ≠ .clearAllTasks order now)
    (hstep : step cfg s a = some s') (hw : s.wheel.Mirrored cfg) : s'.wheel.Mirrored cfg := by
  have hcalled := called_of_step hcall hstep
  generalize s'.wheel = w' at hcalled ⊢
  cases hcalled with
  | addTask task env =>
    exact (addTask_movesID cfg s.wheel task hok).mirrored hw
  | removeTask id deleteOk =>
    obtain rfl : deleteOk = true := hok
    exact (removeTask_movesID cfg s.wheel id).mirrored hw
  | updateTask task env =>
    obtain ⟨hdelete, hadd, hback⟩ := hok
    refine updateTask_wheel (fun w => w.Mirrored cfg) s.wheel task env hw (fun id => ?_)
      (fun w t _ => (addTask_movesID cfg w (some t) hadd).mirrored)
      (fun w _ _ t _ _ => (addTask_movesID cfg w (some t) hback).mirrored)
    rw [hdelete]
    exact (removeTask_movesID cfg s.wheel id).mirrored hw
  | pauseTask id =>
    exact (pauseTask_movesID cfg s.wheel id).mirrored hw
  | resumeTask id now =>
    exact (resumeTask_movesID cfg s.wheel id now).mirrored hw
  | clearAllTasks order now => exact absurd rfl (hclear order now)

/-! ## What does not reach the store -/

/-- The locked section does not. Its internal `removeTask` deletes the ID from
the map and from the cache, and not from the store, where `RemoveTask` would. -/
theorem lockedSection_store (w : TimeWheel) (n : NodeRef) (info : TaskInfo)
    (result : AlarmResult) (now : Time) (slot : ℕ) :
    (w.lockedSection cfg n info result now slot).taskStore = w.taskStore := by
  have halert : (w.applyAlert cfg n info result now).taskStore = w.taskStore := rfl
  unfold lockedSection handleTaskSchedulingLocked
  generalize w.applyAlert cfg n info result now = w₁ at halert ⊢
  rw [← halert]
  split_ifs
  · rfl
  · unfold rescheduleTask
    dsimp only
    split_ifs
    · obtain ⟨heap, slots, hw⟩ := ((unlink_spec (w₁.setNode n
        { w₁.heap n with runAt := now.add info.interval }) n slot).1.trans
          (pushFront_spec _ n (slotIndexFor cfg.interval cfg.slotNum now info.interval)).1).frame
      rw [hw]
      rfl
    · rfl
  · obtain ⟨heap, slots, hw⟩ := (w₁.unlink_spec n slot).1.frame
    unfold removeTaskInternal
    rw [hw]
    rfl

/-- Neither does anything else but the calls. Ticks and executions know nothing
of it. -/
theorem background_store {a : Action} (ha : a.isCall = false) (hstep : step cfg s a = some s') :
    s'.wheel.taskStore = s.wheel.taskStore := by
  cases stepped_of_step hstep with
  | call h _ => exact absurd (h.symm.trans ha) Bool.noConfusion
  | tick now => rfl
  | reject _ _ => rfl
  | @start i e _ _ =>
    unfold Scheduler.start
    cases s.wheel.checkTaskState e.node with
    | none => rfl
    | some task =>
      dsimp only
      cases s.wheel.runTaskCheck e.node task.copyTaskInfo with
      | none => rfl
      | some err => rfl
  | @finish i e info _ _ result =>
    unfold Scheduler.finish
    dsimp only
    split_ifs <;> rfl
  | panic _ _ => rfl
  | @complete i e info result _ _ => exact lockedSection_store _ _ _ _ _ _

/-- Clearing an entry does not reach the store, -/
theorem clearTask_store (w : TimeWheel) (id : String) :
    (w.clearTask cfg id).taskStore = w.taskStore := by
  cases hn : w.lookup cfg id with
  | none => rw [clearTask_of_lookup_none hn]
  | some n =>
    obtain ⟨w₁, hrel, hclear⟩ := clearTask_frame hn
    obtain ⟨heap, slots, rfl⟩ := hrel.frame
    rw [hclear]
    rfl

/-- and clearing them all does not. -/
theorem clearAllTasks_store (w : TimeWheel) (order : List String) (now : Time) :
    (w.clearAllTasks cfg order now).2.taskStore = w.taskStore :=
  clearAllTasks_wheel (fun w' => w'.taskStore = w.taskStore) w order now rfl
    (fun w' id h => (clearTask_store w' id).trans h) (fun _ _ h => h)

/-! ## What leaves the wheel unnoticed -/

/-- What is registered is in the map, -/
theorem mem_allIDs (w : TimeWheel) (id : String) (h : w.lookup cfg id ≠ none) :
    id ∈ w.allIDs cfg := by
  refine List.mem_flatMap.mpr ⟨shardOf cfg id, ?_, ?_⟩
  · exact List.mem_range.mpr (Nat.mod_lt _ cfg.shardNum_pos)
  · rw [← AList.mem_keys]
    exact AList.lookup_isSome.mp (Option.isSome_iff_ne_none.mpr h)

/-- In a wheel that is in order the IDs in the map are the registered ones. This
is only so if each ID is in the shard it hashes to. -/
theorem Inv.lookup_of_mem_allIDs (h : Inv cfg w lists) {id : String} (hid : id ∈ w.allIDs cfg) :
    w.lookup cfg id ≠ none := by
  obtain ⟨j, -, hj⟩ := List.mem_flatMap.mp hid
  obtain ⟨n, hn⟩ := Option.isSome_iff_exists.mp (AList.lookup_isSome.mpr (AList.mem_keys.mpr hj))
  rcases h.node n with ⟨i, c, t, hu⟩ | hf
  · obtain ⟨rfl, rfl⟩ := (hu.entry j id).mp hn
    exact ne_of_eq_of_ne hn (Option.some_ne_none n)
  · exact absurd hn (hf.no_entry j id)

/-- Clearing an entry takes one ID out of the map. -/
theorem clearTask_lookup (w : TimeWheel) (id id' : String) :
    (w.clearTask cfg id).lookup cfg id' = if id' = id then none else w.lookup cfg id' := by
  cases hn : w.lookup cfg id with
  | none =>
    rw [clearTask_of_lookup_none hn]
    split_ifs with hid
    · rw [hid, hn]
    · rfl
  | some n => exact (clearTask_released hn).lookup id'

/-- **`ClearAllTasks` leaves nothing registered.** The snapshot of the IDs has
all of them. -/
theorem clearAllTasks_lookup_eq_none (w : TimeWheel) (order : List String) (now : Time)
    (id : String) : (w.clearAllTasks cfg order now).2.lookup cfg id = none := by
  have key : ∀ (ids : List String) (w' : TimeWheel), (w'.lookup cfg id ≠ none → id ∈ ids) →
      (ids.foldl (fun w id => w.clearTask cfg id) w').lookup cfg id = none := by
    intro ids
    induction ids with
    | nil =>
      intro w' h
      by_contra hne
      exact List.not_mem_nil (h hne)
    | cons id' ids ih =>
      intro w' h
      refine ih (w'.clearTask cfg id') (fun hne => ?_)
      rw [clearTask_lookup] at hne
      split_ifs at hne with hid
      · exact absurd rfl hne
      · exact (List.mem_cons.mp (h hne)).resolve_left hid
  exact key _ w (fun hne => List.mem_append_right _ (mem_allIDs w id hne))

/-- Two mirrors of one store have the same IDs. So an ID that leaves the map
while the store stays gets the two out of step. -/
theorem TimeWheel.Mirrored.lookup_iff (h : w.Mirrored cfg) (h' : w'.Mirrored cfg)
    (hstore : w'.taskStore = w.taskStore) (id : String) :
    w.lookup cfg id ≠ none ↔ w'.lookup cfg id ≠ none := by
  obtain ⟨store, hw, hids⟩ := h
  obtain ⟨store', hw', hids'⟩ := h'
  obtain rfl : store = store' := Option.some.inj (hw.symm.trans (hstore.symm.trans hw'))
  exact (hids id).symm.trans (hids' id)

/-! ## Serial runs -/

/-- A step that tells the store keeps it in step. Calls move IDs in both, and
the other steps move none. -/
theorem mirrored_of_tellsStore {a : Action} (hok : a.StoreOk)
    (hw : s.wheel.Mirrored cfg) (htells : TellsStore cfg s a) (hstep : step cfg s a = some s') :
    s'.wheel.Mirrored cfg := by
  by_cases hclear : ∃ order now, a = .clearAllTasks order now
  · -- there is nothing to clear
    obtain ⟨order, now, rfl⟩ := hclear
    obtain rfl := Option.some.inj hstep
    obtain ⟨store, hstore, hids⟩ := hw
    refine ⟨store, (clearAllTasks_store s.wheel order now).trans hstore, fun id => ?_⟩
    have hnone : ¬ s.wheel.lookup cfg id ≠ none := fun hne => by
      have hmem := mem_allIDs s.wheel id hne
      rw [show s.wheel.allIDs cfg = [] from htells] at hmem
      exact List.not_mem_nil hmem
    rw [hids, clearAllTasks_lookup_eq_none]
    exact iff_of_false hnone (fun hne => hne rfl)
  have hclear : ∀ order now, a ≠ .clearAllTasks order now :=
    fun order now ha => hclear ⟨order, now, ha⟩
  cases hcall : a.isCall with
  | true => exact mirrored_call hcall hok hclear hstep hw
  | false =>
    have hends : s.endsTask cfg a = false := by
      cases a with
      | complete i => exact htells
      | clearAllTasks order now => exact absurd rfl (hclear order now)
      | _ => rfl
    have hsame := background_same hcall hstep hends
    exact (MovesID.none (fun id => hsame.lookup id) (background_store hcall hstep)).mirrored hw

/-- **A step that ends a task** takes a registered ID out of the map. In serial
use the snapshot names the ID the node is registered under. -/
theorem SerialSound.of_endsTask {a : Action} (hs : SerialSound cfg s lists)
    (hends : s.endsTask cfg a = true) (hstep : step cfg s a = some s') :
    ∃ id, s.wheel.lookup cfg id ≠ none ∧ s'.wheel.shards = (s.wheel.deleteEntry cfg id).shards := by
  cases stepped_of_step hstep with
  | @complete i e info result he hst =>
    obtain ⟨n, r, now, slot, stage⟩ := e
    obtain rfl : stage = .finished info result := hst
    rw [endsTask_complete he] at hends
    have htask : (s.wheel.heap n).task ≠ none := fun hnone => by
      unfold TimeWheel.endsTask at hends
      have halert : ((s.wheel.applyAlert cfg n info result now).heap n).task = none :=
        (congrArg Prod.fst ((applyAlert_same s.wheel n info result now).held n)).trans hnone
      rw [halert] at hends
      cases hends
    -- the node is in use under the ID of the snapshot
    obtain ⟨k, c, t, -, hu, hinfo⟩ := (hs.tracked _ (List.mem_of_getElem? he)).used htask
    obtain rfl : info = t.copyTaskInfo := hinfo
    exact ⟨t.id, ne_of_eq_of_ne hu.lookup (Option.some_ne_none n),
      (lockedSection_released hends slot).shards⟩
  | call hcall hw =>
    cases a with
    | complete i => exact Bool.noConfusion hcall
    | _ => exact Bool.noConfusion hends
  | _ => exact Bool.noConfusion hends

/-- A step that does not tell the store gets it out of step. Something was
registered that is not any more, and the store has not changed. -/
theorem tellsStore_of_mirrored {a : Action} (hs : SerialSound cfg s lists)
    (hw : s.wheel.Mirrored cfg) (hw' : s'.wheel.Mirrored cfg) (hstep : step cfg s a = some s') :
    TellsStore cfg s a := by
  cases a with
  | clearAllTasks order now =>
    obtain rfl := Option.some.inj hstep
    refine List.eq_nil_iff_forall_not_mem.mpr (fun id hmem => ?_)
    have hne := (hw.lookup_iff hw' (clearAllTasks_store s.wheel order now) id).mp
      (hs.inv.lookup_of_mem_allIDs hmem)
    exact hne (clearAllTasks_lookup_eq_none s.wheel order now id)
  | complete i =>
    have hstore := background_store rfl hstep
    show s.endsTask cfg (.complete i) = false
    by_contra hends
    rw [Bool.not_eq_false] at hends
    obtain ⟨id, hid, hshards⟩ := hs.of_endsTask hends hstep
    refine (hw.lookup_iff hw' hstore id).mp hid ?_
    rw [lookup_congr hshards, deleteEntry_lookup, if_pos rfl]
  | _ => rfl

/-- An empty store mirrors a wheel that has just been started. Nothing is
registered yet. -/
theorem mirrored_of_started (h : Started cfg w) (hstore : w.taskStore = some ∅) :
    w.Mirrored cfg := by
  exact ⟨∅, hstore, fun id => iff_of_false (AList.notMem_empty id)
    (fun hne => hne (lookup_of_started h id))⟩

/-- **Exactly the serial runs in which the store mirrors the wheel.** From a
started wheel with an empty store, whose calls all succeed: the store holds the
registered IDs in every state reached, if and only if no task came to its end
and no `ClearAllTasks` found anything to clear. -/
theorem mirrored_iff (h : Started cfg w) (hstore : w.taskStore = some ∅) {as : List Action}
    (hok : ∀ a ∈ as, a.StoreOk)
    (hserial : Machine.Each (step cfg) (fun s a _ => Serial s a) (ofWheel w) as) :
    Machine.Each (step cfg) (fun _ _ s' => s'.wheel.Mirrored cfg) (ofWheel w) as
      ↔ Machine.Each (step cfg) (fun s a _ => TellsStore cfg s a) (ofWheel w) as := by
  have hinv : ∀ s a s', (a.StoreOk ∧ Serial s a) → (∃ lists, SerialSound cfg s lists) →
      step cfg s a = some s' → ∃ lists', SerialSound cfg s' lists' := by
    rintro s a s' ⟨-, hser⟩ ⟨lists, hs⟩ hstep
    exact hs.of_step hser hstep
  have hmirrored : ∀ s a s', (a.StoreOk ∧ Serial s a) → (∃ lists, SerialSound cfg s lists) →
      s.wheel.Mirrored cfg → step cfg s a = some s' →
      (s'.wheel.Mirrored cfg ↔ TellsStore cfg s a) := by
    rintro s a s' ⟨ha, -⟩ ⟨lists, hs⟩ hw hstep
    exact ⟨fun hw' => tellsStore_of_mirrored hs hw hw' hstep,
      fun htells => mirrored_of_tellsStore ha hw htells hstep⟩
  exact Machine.each_state_iff hinv hmirrored ((Machine.each_of_forall hok).and hserial)
    ⟨_, serialSound_of_started h⟩ (mirrored_of_started h hstore)

/-- The small wheel with a store. Nothing has been saved yet. -/
def storedWheel : TimeWheel := { fourSlotWheel with taskStore := some ∅ }

/-- Having a store does not matter for being started. -/
theorem started_storedWheel : Started fourSlots storedWheel :=
  ⟨false, some ∅, Time.zero, Time.ofMilli 0, start_fourSlots (some ∅)⟩

/-- A repeated task is executed, replaced and removed. -/
theorem mirrored_of_repeated :
    Machine.Each (step fourSlots) (fun _ _ s' => s'.wheel.Mirrored fourSlots)
      (ofWheel storedWheel)
      ([addAt 0 "a" .repeated 10 none] ++ ticksAt [10]
        ++ [.start 0, .finish 0 .zero, .complete 0, .removeTask "a" true,
          .clearAllTasks [] Time.zero, addAt 15 "b" .once 10 (some 0)]) :=
  (mirrored_iff started_storedWheel rfl (by simp [addAt, ticksAt, Action.StoreOk])
    (by decide +kernel)).mpr (by decide +kernel)

/-- A run that leaves an ID in the store alone. The ID is in the store and not
in the map. -/
theorem not_mirrored_of_run {as : List Action} {id : String}
    (hrun : (Machine.run (step cfg) (ofWheel w) as).map (fun s =>
      (s.wheel.taskStore.map (fun store => decide (id ∈ store)), s.wheel.lookup cfg id))
        = some (some true, none)) (hw : w.Mirrored cfg) :
    ¬ Machine.Each (step cfg) (fun _ _ s' => s'.wheel.Mirrored cfg) (ofWheel w) as := by
  intro h
  obtain ⟨t, ht, hids⟩ := Option.map_eq_some_iff.mp hrun
  obtain ⟨store, hstore, hmirror⟩ :=
    Machine.state_of_each (P := fun s => s.wheel.Mirrored cfg) hw h ht
  rw [hstore] at hids
  obtain ⟨hmem, hnone⟩ := Prod.mk.inj hids
  have hid : id ∈ store := by simpa using hmem
  exact (hmirror id).mp hid hnone

/-- **A finished task, and a cleared one, stay in the store.** -/
theorem not_mirrored_of_finished :
    ¬ Machine.Each (step fourSlots) (fun _ _ s' => s'.wheel.Mirrored fourSlots)
        (ofWheel storedWheel)
        ([addAt 0 "a" .once 10 none] ++ ticksAt [10] ++ [.start 0, .finish 0 .zero, .complete 0])
      ∧ ¬ Machine.Each (step fourSlots) (fun _ _ s' => s'.wheel.Mirrored fourSlots)
        (ofWheel storedWheel) [addAt 0 "a" .repeated 10 none, .clearAllTasks [] Time.zero] :=
  ⟨@not_mirrored_of_run _ _ _ "a" (by decide +kernel) (mirrored_of_started started_storedWheel rfl),
    @not_mirrored_of_run _ _ _ "a" (by decide +kernel) (mirrored_of_started started_storedWheel rfl)⟩

end Timewheel
