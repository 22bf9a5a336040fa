import Timewheel.Mirror

/-!
# The task counters

`AddTask` counts the tasks it enters and `RemoveTask` those it takes out, so
that what was added less what was removed is what is there. `GetMetrics`
reports all three numbers.

There are two more ways out of the map, and neither of them counts:
`ClearAllTasks`, and the internal `removeTask` of a task that has run its last
time. Every task that leaves by one of them stays in the balance for good
(`uncounted`), and `conserved_iff` says that the counters are conserved
throughout a serial run exactly if none does.

The two loops of `GetMetrics` are folds, and what they add up is found by
induction (`foldl_addShard_spec`). The distribution over shards and the three
alert states always add up to the number of tasks. Only the balance of the
counters can fail, and `uncounted` measures by how much.
-/

namespace Timewheel

open TimeWheel Scheduler

variable {cfg : Config} {s s' : Scheduler} {w w' : TimeWheel} {lists : ℕ → List NodeRef}
  {n : NodeRef} {id : String}

/-! ## GetMetrics -/

/-- `TaskCacheStats`. The hit rate is a `float64` computed from `hits` and
`misses`; it is left out. -/
structure TaskCacheStats where
  size : ℕ
  hits : ℕ
  misses : ℕ
  expired : ℕ
  deriving DecidableEq, Repr

/-- `TaskCacheStats{}`. -/
def TaskCacheStats.zero : TaskCacheStats := ⟨0, 0, 0, 0⟩

/-- `TaskCache.GetStats`. Reading them changes nothing. -/
def TaskCache.getStats (cache : TaskCache) : TaskCacheStats where
  size := cache.items.keys.length
  hits := cache.hits
  misses := cache.misses
  expired := cache.expired

/-- `Metrics`, without the executions under way and the time they take, which
are not part of the wheel here. All of it is computed in one call. -/
structure Metrics where
  totalTasks : ℕ
  executed : ℕ
  slotNum : ℕ
  shardNum : ℕ
  cacheStats : TaskCacheStats
  pausedTasks : ℕ
  pendingAlerts : ℕ
  firingAlerts : ℕ
  resolvedAlerts : ℕ
  shardDistribution : List ℕ
  totalTasksAdded : ℕ
  totalTasksRemoved : ℕ
  totalTasksFailed : ℕ
  totalTaskPanics : ℕ
  totalCacheHits : ℕ
  totalCacheMisses : ℕ
  totalAlertsFired : ℕ
  deriving DecidableEq, Repr

/-- The variables of the loop of `GetMetrics`. They are written back into the
result at the end. -/
structure Tally where
  totalTasks : ℕ
  pausedTasks : ℕ
  pendingAlerts : ℕ
  firingAlerts : ℕ
  resolvedAlerts : ℕ
  shardDist : List ℕ

namespace Tally

/-- The variables before the loop. -/
def zero : Tally := ⟨0, 0, 0, 0, 0, []⟩

/-- The `switch` over the state of a node. One of the three grows. -/
def addAlert (t : Tally) : AlertState → Tally
  | .pending => { t with pendingAlerts := t.pendingAlerts + 1 }
  | .firing => { t with firingAlerts := t.firingAlerts + 1 }
  | .resolved => { t with resolvedAlerts := t.resolvedAlerts + 1 }

/-- The body of the inner loop: one node. -/
def addNode (t : Tally) (node : TaskSlot) : Tally :=
  let t := if node.paused then { t with pausedTasks := t.pausedTasks + 1 } else t
  t.addAlert node.alertState

/-- The body of the outer loop: one shard, whose nodes are iterated in some
order. -/
def addShard (w : TimeWheel) (t : Tally) (i : ℕ) : Tally :=
  let count := (w.shards i).keys.length
  let t := { t with totalTasks := t.totalTasks + count, shardDist := t.shardDist ++ [count] }
  (w.shards i).entries.foldl (fun t e => t.addNode (w.heap e.2)) t

/-- The three states together. Each task is in one of them. -/
def alerts (t : Tally) : ℕ := t.pendingAlerts + t.firingAlerts + t.resolvedAlerts

end Tally

/-- `GetMetrics`. The loop reads the maps, and the rest comes from the counters. -/
def TimeWheel.getMetrics (cfg : Config) (w : TimeWheel) : Metrics :=
  let t := (List.range cfg.shardNum).foldl (Tally.addShard w) Tally.zero
  { totalTasks := t.totalTasks
    executed := w.counters.totalTasksExecuted
    slotNum := cfg.slotNum
    shardNum := cfg.shardNum
    cacheStats := (w.taskCache.map TaskCache.getStats).getD TaskCacheStats.zero
    pausedTasks := t.pausedTasks
    pendingAlerts := t.pendingAlerts
    firingAlerts := t.firingAlerts
    resolvedAlerts := t.resolvedAlerts
    shardDistribution := t.shardDist
    totalTasksAdded := w.counters.totalTasksAdded
    totalTasksRemoved := w.counters.totalTasksRemoved
    totalTasksFailed := w.counters.totalTasksFailed
    totalTaskPanics := w.counters.totalTaskPanics
    totalCacheHits := w.counters.totalCacheHits
    totalCacheMisses := w.counters.totalCacheMisses
    totalAlertsFired := w.counters.totalAlertsFired }

/-- **The counters are conserved.** The first is the balance; the other two say
that the loop agrees with itself. -/
structure Metrics.Conserved (m : Metrics) : Prop where
  balance : (m.totalTasksAdded : ℤ) - m.totalTasksRemoved = m.totalTasks
  distribution : m.shardDistribution.sum = m.totalTasks
  alerts : m.pendingAlerts + m.firingAlerts + m.resolvedAlerts = m.totalTasks

instance (m : Metrics) : Decidable m.Conserved :=
  decidable_of_iff (((m.totalTasksAdded : ℤ) - m.totalTasksRemoved = m.totalTasks)
      ∧ m.shardDistribution.sum = m.totalTasks
      ∧ m.pendingAlerts + m.firingAlerts + m.resolvedAlerts = m.totalTasks)
    ⟨fun h => ⟨h.1, h.2.1, h.2.2⟩, fun h => ⟨h.balance, h.distribution, h.alerts⟩⟩

/-! ## What the loop adds up -/

namespace Tally

variable {t : Tally}

/-- A state adds one to the three together. -/
theorem alerts_addAlert (t : Tally) (state : AlertState) :
    (t.addAlert state).alerts = t.alerts + 1 := by
  unfold addAlert alerts
  cases state with
  | pending => dsimp only; omega
  | firing => dsimp only; omega
  | resolved => dsimp only; omega

/-- What a node adds: to one of the states, and not to the tasks. -/
theorem addNode_spec (t : Tally) (node : TaskSlot) :
    (t.addNode node).alerts = t.alerts + 1 ∧ (t.addNode node).totalTasks = t.totalTasks
      ∧ (t.addNode node).shardDist = t.shardDist := by
  unfold addNode
  refine ⟨?_, ?_, ?_⟩
  · rw [alerts_addAlert]
    split_ifs <;> rfl
  · cases node.alertState <;> cases node.paused <;> rfl
  · cases node.alertState <;> cases node.paused <;> rfl

/-- The nodes of a shard, by induction on them. -/
theorem foldl_addNode_spec (nodes : List (Sigma fun _ : String => NodeRef)) (t : Tally) :
    let u := nodes.foldl (fun t e => t.addNode (w.heap e.2)) t
    u.alerts = t.alerts + nodes.length ∧ u.totalTasks = t.totalTasks
      ∧ u.shardDist = t.shardDist := by
  induction nodes generalizing t with
  | nil => exact ⟨rfl, rfl, rfl⟩
  | cons e nodes ih =>
    obtain ⟨halerts, htotal, hdist⟩ := ih (t.addNode (w.heap e.2))
    obtain ⟨halerts', htotal', hdist'⟩ := t.addNode_spec (w.heap e.2)
    refine ⟨?_, htotal.trans htotal', hdist.trans hdist'⟩
    rw [List.foldl_cons, halerts, halerts', List.length_cons]
    omega

/-- What a shard adds. The number of its keys is the number of its nodes. -/
theorem addShard_spec (w : TimeWheel) (t : Tally) (i : ℕ) :
    (t.addShard w i).alerts = t.alerts + (w.shards i).keys.length
      ∧ (t.addShard w i).totalTasks = t.totalTasks + (w.shards i).keys.length
      ∧ (t.addShard w i).shardDist = t.shardDist ++ [(w.shards i).keys.length] := by
  have hlen : (w.shards i).entries.length = (w.shards i).keys.length :=
    (List.length_map Sigma.fst).symm
  have hspec := @foldl_addNode_spec w (w.shards i).entries { t with
    totalTasks := t.totalTasks + (w.shards i).keys.length
    shardDist := t.shardDist ++ [(w.shards i).keys.length] }
  rw [hlen] at hspec
  exact hspec

end Tally

/-- The number of tasks in the map. Shards have no keys in common. -/
def TimeWheel.taskCount (cfg : Config) (w : TimeWheel) : ℕ :=
  ∑ j ∈ Finset.range cfg.shardNum, (w.shards j).keys.length

/-- **The loop counts every task once**: as a task, in its shard, and in one
state. By induction on the number of shards. -/
theorem foldl_addShard_spec (w : TimeWheel) (k : ℕ) :
    let t := (List.range k).foldl (Tally.addShard w) Tally.zero
    t.totalTasks = ∑ j ∈ Finset.range k, (w.shards j).keys.length ∧ t.shardDist.sum = t.totalTasks
      ∧ t.alerts = t.totalTasks := by
  induction k with
  | zero => exact ⟨rfl, rfl, rfl⟩
  | succ k ih =>
    obtain ⟨hcount, hdist, halerts⟩ := ih
    rw [List.range_succ, List.foldl_append, Finset.sum_range_succ, ← hcount]
    dsimp only [List.foldl_cons, List.foldl_nil]
    obtain ⟨halerts', htotal', hdist'⟩ :=
      Tally.addShard_spec w ((List.range k).foldl (Tally.addShard w) Tally.zero) k
    refine ⟨htotal', ?_, ?_⟩
    · rw [hdist', htotal', List.sum_append, hdist, List.sum_singleton]
    · rw [halerts', htotal', halerts]

/-- So `GetMetrics` reports the number of tasks in the map. -/
theorem totalTasks_getMetrics (cfg : Config) (w : TimeWheel) :
    (w.getMetrics cfg).totalTasks = w.taskCount cfg :=
  (foldl_addShard_spec w cfg.shardNum).1

/-- The number of tasks less what the counters say it is: the tasks that have
left the map without being counted. In a serial run it never falls. -/
def TimeWheel.uncounted (cfg : Config) (w : TimeWheel) : ℤ :=
  w.counters.totalTasksAdded - w.counters.totalTasksRemoved - w.taskCount cfg

/-- The distribution and the states always add up; the balance is the
point. -/
theorem conserved_getMetrics_iff :
    (w.getMetrics cfg).Conserved ↔ w.uncounted cfg = 0 := by
  obtain ⟨-, hdist, halerts⟩ := foldl_addShard_spec w cfg.shardNum
  have hbalance : ((w.getMetrics cfg).totalTasksAdded : ℤ) - (w.getMetrics cfg).totalTasksRemoved
      = (w.getMetrics cfg).totalTasks ↔ w.uncounted cfg = 0 := by
    rw [totalTasks_getMetrics]
    exact sub_eq_zero.symm
  exact ⟨fun h => hbalance.mp h.balance, fun h => ⟨hbalance.mpr h, hdist, halerts⟩⟩

/-! ## What the operations do to the balance -/

/-- It depends on the map and on two counters. -/
theorem uncounted_congr (hshards : w'.shards = w.shards)
    (hadded : w'.counters.totalTasksAdded = w.counters.totalTasksAdded)
    (hremoved : w'.counters.totalTasksRemoved = w.counters.totalTasksRemoved) :
    w'.uncounted cfg = w.uncounted cfg := by
  unfold uncounted taskCount
  rw [hshards, hadded, hremoved]

/-- Replacing one shard of the map. Written without subtraction. -/
theorem taskCount_of_update {m : TaskMap}
    (hshards : w'.shards = Function.update w.shards (shardOf cfg id) m) :
    w'.taskCount cfg + (w.shards (shardOf cfg id)).keys.length
      = w.taskCount cfg + m.keys.length := by
  have hmem : shardOf cfg id ∈ Finset.range cfg.shardNum :=
    Finset.mem_range.mpr (Nat.mod_lt _ cfg.shardNum_pos)
  have hother : ∀ j ∈ (Finset.range cfg.shardNum).erase (shardOf cfg id),
      (w'.shards j).keys.length = (w.shards j).keys.length := fun j hj => by
    rw [hshards, Function.update_of_ne (Finset.ne_of_mem_erase hj)]
  unfold taskCount
  rw [← Finset.sum_erase_add _ _ hmem, ← Finset.sum_erase_add _ _ hmem,
    Finset.sum_congr rfl hother, hshards, Function.update_self]
  omega

/-- A new entry is one task more, -/
theorem taskCount_insertEntry (hid : w.lookup cfg id = none) (n : NodeRef) :
    (w.insertEntry cfg id n).taskCount cfg = w.taskCount cfg + 1 := by
  have hnew : id ∉ (w.shards (shardOf cfg id)).keys := AList.lookup_eq_none.mp hid
  have hcount := @taskCount_of_update cfg w (w.insertEntry cfg id n) id _ rfl
  rw [AList.keys_insert, List.erase_of_not_mem hnew, List.length_cons] at hcount
  omega

/-- and one that is deleted is one less. -/
theorem taskCount_deleteEntry (hid : w.lookup cfg id ≠ none) :
    (w.deleteEntry cfg id).taskCount cfg + 1 = w.taskCount cfg := by
  have hmem : id ∈ (w.shards (shardOf cfg id)).keys :=
    AList.lookup_isSome.mp (Option.isSome_iff_ne_none.mpr hid)
  have hpos := List.length_pos_of_mem hmem
  have hcount := @taskCount_of_update cfg w (w.deleteEntry cfg id) id _ rfl
  rw [AList.keys_erase, List.length_erase_of_mem hmem] at hcount
  omega

/-- A task that enters the map and is counted. The two changes cancel. -/
theorem uncounted_of_entered (hid : w.lookup cfg id = none)
    (hshards : w'.shards = (w.insertEntry cfg id n).shards)
    (hadded : w'.counters.totalTasksAdded = w.counters.totalTasksAdded + 1)
    (hremoved : w'.counters.totalTasksRemoved = w.counters.totalTasksRemoved) :
    w'.uncounted cfg = w.uncounted cfg := by
  have hcount := taskCount_insertEntry hid n
  have hsame : w'.taskCount cfg = (w.insertEntry cfg id n).taskCount cfg := by
    unfold taskCount
    rw [hshards]
  unfold uncounted
  rw [hsame, hcount, hadded, hremoved]
  omega

/-- A task that leaves the map, counted `k` times. For `k` one this is balanced,
and for `k` zero it is not. -/
theorem uncounted_of_left {k : ℕ} (hid : w.lookup cfg id ≠ none)
    (hshards : w'.shards = (w.deleteEntry cfg id).shards)
    (hadded : w'.counters.totalTasksAdded = w.counters.totalTasksAdded)
    (hremoved : w'.counters.totalTasksRemoved = w.counters.totalTasksRemoved + k) :
    w'.uncounted cfg = w.uncounted cfg + 1 - k := by
  have hcount := taskCount_deleteEntry hid
  have hsame : w'.taskCount cfg = (w.deleteEntry cfg id).taskCount cfg := by
    unfold taskCount
    rw [hshards]
  unfold uncounted
  rw [hsame, ← hcount, hadded, hremoved]
  push_cast
  omega

/-- Preparing a node counts nothing. It is not known yet whether the task will
be entered. -/
theorem prepareNode_counters (w : TimeWheel) (task : Task) (env : AddEnv) :
    (w.prepareNode cfg task env).2.counters = w.counters := by
  unfold prepareNode poolGet
  cases env.node with
  | none => rfl
  | some n =>
    dsimp only
    split_ifs <;> rfl

/-- **`AddTask` counts what it enters.** A rejected task is neither entered nor
counted. -/
theorem addTask_uncounted (w : TimeWheel) (task : Option Task) (env : AddEnv) :
    (w.addTask cfg task env).2.uncounted cfg = w.uncounted cfg := by
  unfold addTask
  cases task with
  | none => rfl
  | some t =>
    dsimp only
    cases checkTask t with
    | error err => rfl
    | ok t' =>
      dsimp only
      split_ifs
      · rfl
      · have hshards := (prepareNode_got cfg w t' env).shards
        have hcounters := @prepareNode_counters cfg w t' env
        generalize w.prepareNode cfg t' env = g at hshards hcounters ⊢
        obtain ⟨n, w₁⟩ := g
        dsimp only at hshards hcounters ⊢
        have hprepared : w₁.uncounted cfg = w.uncounted cfg :=
          uncounted_congr hshards (by rw [hcounters]) (by rw [hcounters])
        rw [← hprepared]
        cases hid : w₁.lookup cfg t'.id with
        | some m => rfl
        | none =>
          obtain ⟨heap, slots, hw⟩ :=
            (relinked_insertOrdered w₁ n t'.priority (w₁.heap n).slotIndex).frame
          have hlinked : (w₁.linkTask cfg n t' env).shards
              = (w₁.insertEntry cfg t'.id n).shards
              ∧ (w₁.linkTask cfg n t' env).counters
                = { w₁.counters with totalTasksAdded := w₁.counters.totalTasksAdded + 1 } := by
            unfold linkTask
            rw [hw]
            exact ⟨rfl, rfl⟩
          obtain ⟨hshards', hcounters'⟩ := hlinked
          exact uncounted_of_entered hid hshards' (by rw [hcounters']) (by rw [hcounters'])

/-- **`RemoveTask` counts what it takes out.** An ID that is not there is not
counted either. -/
theorem removeTask_uncounted (w : TimeWheel) (id : String) (deleteOk : Bool) :
    (w.removeTask cfg id deleteOk).2.uncounted cfg = w.uncounted cfg := by
  unfold removeTask
  by_cases hempty : id = ""
  · rw [if_pos hempty]
  · rw [if_neg hempty]
    cases hid : w.lookup cfg id with
    | none => rfl
    | some n =>
      have hne := ne_of_eq_of_ne hid (Option.some_ne_none n)
      obtain ⟨heap, slots, hw⟩ := (w.unlink_spec n (w.heap n).slotIndex).1.frame
      dsimp only
      rw [hw]
      refine Eq.trans (@uncounted_of_left cfg w _ id 1 hne ?_ ?_ ?_) (add_sub_cancel_right _ _)
      · rfl
      · rfl
      · rfl

/-- The body of the loop of `ClearAllTasks` does not. It takes tasks out all the
same. -/
theorem clearTask_counters (w : TimeWheel) (id : String) :
    (w.clearTask cfg id).counters = w.counters := by
  cases hn : w.lookup cfg id with
  | none => rw [clearTask_of_lookup_none hn]
  | some n =>
    obtain ⟨w₁, hrel, hclear⟩ := clearTask_frame hn
    obtain ⟨heap, slots, rfl⟩ := hrel.frame
    rw [hclear]
    rfl

/-- So `ClearAllTasks` as a whole leaves the counters alone. -/
theorem clearAllTasks_counters (w : TimeWheel) (order : List String) (now : Time) :
    (w.clearAllTasks cfg order now).2.counters = w.counters :=
  clearAllTasks_wheel (fun w' => w'.counters = w.counters) w order now rfl
    (fun w' id h => (clearTask_counters w' id).trans h) (fun _ _ h => h)

/-- **The calls keep the balance**, except that clearing does not count.
`UpdateTask` is a removal and an addition. -/
theorem call_uncounted {a : Action} (hcall : a.isCall = true)
    (hclear : ∀ order now, a ≠ .clearAllTasks order now) (hstep : step cfg s a = some s') :
    s'.wheel.uncounted cfg = s.wheel.uncounted cfg := by
  have hcalled := called_of_step hcall hstep
  generalize s'.wheel = w' at hcalled ⊢
  cases hcalled with
  | addTask task env =>
    exact addTask_uncounted s.wheel task env
  | removeTask id deleteOk =>
    exact removeTask_uncounted s.wheel id deleteOk
  | updateTask task env =>
    exact updateTask_wheel (fun w => w.uncounted cfg = s.wheel.uncounted cfg) s.wheel task env rfl
      (fun id => removeTask_uncounted s.wheel id env.deleteOk)
      (fun w t _ h => (addTask_uncounted w (some t) env.add).trans h)
      (fun w _ _ t _ _ h => (addTask_uncounted w (some t) env.rollback).trans h)
  | pauseTask id =>
    exact pauseTask_wheel (fun w => w.uncounted cfg = s.wheel.uncounted cfg) s.wheel id rfl
      (fun _ => rfl)
  | resumeTask id now =>
    exact resumeTask_wheel (fun w => w.uncounted cfg = s.wheel.uncounted cfg) s.wheel id now rfl
      (fun _ _ => rfl)
  | clearAllTasks order now => exact absurd rfl (hclear order now)

/-! ## The two ways out that do not count -/

/-- The tasks are as many as their IDs. -/
theorem taskCount_eq_length (cfg : Config) (w : TimeWheel) :
    w.taskCount cfg = (w.allIDs cfg).length := by
  unfold allIDs
  rw [List.length_flatMap]
  rfl

/-- **`ClearAllTasks`** leaves every task in the balance. They are gone from the
map. -/
theorem clearAllTasks_uncounted {lists' : ℕ → List NodeRef} {order : List String} {now : Time}
    (h : Inv cfg (w.clearAllTasks cfg order now).2 lists') :
    (w.clearAllTasks cfg order now).2.uncounted cfg
      = w.uncounted cfg + (w.allIDs cfg).length := by
  have hempty : (w.clearAllTasks cfg order now).2.allIDs cfg = [] :=
    List.eq_nil_iff_forall_not_mem.mpr (fun id hmem =>
      h.lookup_of_mem_allIDs hmem (clearAllTasks_lookup_eq_none w order now id))
  unfold uncounted
  rw [clearAllTasks_counters, taskCount_eq_length, taskCount_eq_length, hempty]
  simp

/-- The locked section does not touch the two counters. It counts alerts that
fire. -/
theorem lockedSection_counters (w : TimeWheel) (n : NodeRef) (info : TaskInfo)
    (result : AlarmResult) (now : Time) (slot : ℕ) :
    let w' := w.lockedSection cfg n info result now slot
    w'.counters.totalTasksAdded = w.counters.totalTasksAdded
      ∧ w'.counters.totalTasksRemoved = w.counters.totalTasksRemoved := by
  have halert : (w.applyAlert cfg n info result now).counters.totalTasksAdded
        = w.counters.totalTasksAdded
      ∧ (w.applyAlert cfg n info result now).counters.totalTasksRemoved
        = w.counters.totalTasksRemoved := ⟨rfl, rfl⟩
  unfold lockedSection handleTaskSchedulingLocked
  generalize w.applyAlert cfg n info result now = w₁ at halert ⊢
  dsimp only
  split_ifs
  · exact halert
  · obtain ⟨heap, slots, hw, -⟩ := @rescheduleTask_frame cfg w₁ n info now slot
    rw [hw]
    exact halert
  · obtain ⟨heap, slots, hw, -⟩ := @removeTaskInternal_frame cfg w₁ n info slot
    rw [hw]
    exact halert

/-- Neither do the other steps of executions. They count executions and
failures. -/
theorem background_counters {a : Action} (ha : a.isCall = false)
    (hstep : step cfg s a = some s') :
    s'.wheel.counters.totalTasksAdded = s.wheel.counters.totalTasksAdded
      ∧ s'.wheel.counters.totalTasksRemoved = s.wheel.counters.totalTasksRemoved := by
  cases stepped_of_step hstep with
  | call h _ => exact absurd (h.symm.trans ha) Bool.noConfusion
  | tick now => exact ⟨rfl, rfl⟩
  | reject _ _ => exact ⟨rfl, rfl⟩
  | @start i e _ _ =>
    unfold Scheduler.start
    cases s.wheel.checkTaskState e.node with
    | none => exact ⟨rfl, rfl⟩
    | some task =>
      dsimp only
      cases s.wheel.runTaskCheck e.node task.copyTaskInfo with
      | none => exact ⟨rfl, rfl⟩
      | some err => exact ⟨rfl, rfl⟩
  | @finish i e info _ _ result =>
    unfold Scheduler.finish
    dsimp only
    split_ifs
    · exact ⟨rfl, rfl⟩
    · exact ⟨rfl, rfl⟩
  | panic _ _ => exact ⟨rfl, rfl⟩
  | @complete i e info result _ _ => exact lockedSection_counters _ _ _ _ _ _

/-- **A step keeps the balance exactly if it tells the store**: what does not
count is what the store is not told of. The two omissions are in the same places
in the code: where a task is removed without being counted, the store is not
told either. -/
theorem step_uncounted_iff {a : Action} (hs : SerialSound cfg s lists) (hserial : Serial s a)
    (hstep : step cfg s a = some s') :
    s'.wheel.uncounted cfg = s.wheel.uncounted cfg ↔ TellsStore cfg s a := by
  cases hcall : a.isCall with
  | true =>
    by_cases hclear : ∃ order now, a = .clearAllTasks order now
    -- `ClearAllTasks` counts none of the tasks it takes out
    · obtain ⟨order, now, rfl⟩ := hclear
      obtain ⟨lists', hs'⟩ := hs.of_step hserial hstep
      obtain rfl := Option.some.inj hstep
      rw [show uncounted cfg _ = _ from clearAllTasks_uncounted hs'.inv, add_eq_left,
        Nat.cast_eq_zero, List.length_eq_zero_iff]
      rfl
    · have hkeeps := call_uncounted hcall (fun order now h => hclear ⟨order, now, h⟩) hstep
      have htells : TellsStore cfg s a := by
        cases a with
        | clearAllTasks order now => exact absurd ⟨order, now, rfl⟩ hclear
        | complete i => exact Bool.noConfusion hcall
        | _ => rfl
      exact iff_of_true hkeeps htells
  | false =>
    obtain ⟨hadded, hremoved⟩ := background_counters hcall hstep
    have htells : TellsStore cfg s a ↔ s.endsTask cfg a = false := by
      cases a with
      | clearAllTasks order now => exact Bool.noConfusion hcall
      | _ => exact Iff.rfl
    rw [htells]
    cases hends : s.endsTask cfg a with
    | false =>
      exact iff_of_true (uncounted_congr (background_same hcall hstep hends).shards hadded hremoved)
        rfl
    | true =>
      -- an execution has ended its task: one entry less, and no counter has moved
      obtain ⟨id, hid, hshards⟩ := hs.of_endsTask hends hstep
      have hleft := @uncounted_of_left cfg s.wheel s'.wheel id 0 hid hshards hadded hremoved
      refine iff_of_false (fun hsame => ?_) Bool.noConfusion
      rw [hsame] at hleft
      push_cast at hleft
      omega

/-! ## Batches -/

/-- The body of the loop of `AddTaskBatch`, with the number of successes and the
last error so far. A failure does not end the loop. -/
def TimeWheel.addNext (cfg : Config) (r : (ℕ × Option Err) × TimeWheel)
    (task : Option Task × AddEnv) : (ℕ × Option Err) × TimeWheel :=
  match r.2.addTask cfg task.1 task.2 with
  | (some err, w) => ((r.1.1, some err), w)
  | (none, w) => ((r.1.1 + 1, r.1.2), w)

/-- `AddTaskBatch`. It is a sequence of calls of `AddTask`. -/
def TimeWheel.addTaskBatch (cfg : Config) (w : TimeWheel) (tasks : List (Option Task × AddEnv)) :
    (ℕ × Option Err) × TimeWheel :=
  if w.running = false then ((0, some .wheelNotRunning), w)
  else tasks.foldl (addNext cfg) ((0, none), w)

/-- The body of the loop of `RemoveTaskBatch`. Each ID comes with whether
deleting it from the store succeeds. -/
def TimeWheel.removeNext (cfg : Config) (r : ℕ × TimeWheel) (taskID : String × Bool) :
    ℕ × TimeWheel :=
  match r.2.removeTask cfg taskID.1 taskID.2 with
  | (some _, w) => (r.1, w)
  | (none, w) => (r.1 + 1, w)

/-- `RemoveTaskBatch`: how many tasks were removed. -/
def TimeWheel.removeTaskBatch (cfg : Config) (w : TimeWheel) (taskIDs : List (String × Bool)) :
    ℕ × TimeWheel :=
  taskIDs.foldl (removeNext cfg) (0, w)

/-- One round of the loop is one call of `AddTask`, -/
theorem addNext_wheel (r : (ℕ × Option Err) × TimeWheel) (task : Option Task × AddEnv) :
    (addNext cfg r task).2 = (r.2.addTask cfg task.1 task.2).2 := by
  unfold addNext
  generalize r.2.addTask cfg task.1 task.2 = g
  obtain ⟨err, w⟩ := g
  cases err <;> rfl

/-- and of the other loop one call of `RemoveTask`. -/
theorem removeNext_wheel (r : ℕ × TimeWheel) (taskID : String × Bool) :
    (removeNext cfg r taskID).2 = (r.2.removeTask cfg taskID.1 taskID.2).2 := by
  unfold removeNext
  generalize r.2.removeTask cfg taskID.1 taskID.2 = g
  obtain ⟨err, w⟩ := g
  cases err <;> rfl

/-- What every step of a loop keeps, the loop keeps. -/
theorem foldl_wheel {B R : Type} (P : TimeWheel → Prop) {f : R × TimeWheel → B → R × TimeWheel}
    (hf : ∀ r b, P r.2 → P (f r b).2) (bs : List B) (r : R × TimeWheel) (hr : P r.2) :
    P (bs.foldl f r).2 := by
  induction bs generalizing r with
  | nil => exact hr
  | cons b bs ih => exact ih (f r b) (hf r b hr)

/-- What every addition keeps, a batch of them keeps. -/
theorem addTaskBatch_wheel (P : TimeWheel → Prop) (w : TimeWheel)
    (tasks : List (Option Task × AddEnv)) (hw : P w)
    (hadd : ∀ w' task env, P w' → P (w'.addTask cfg task env).2) :
    P (w.addTaskBatch cfg tasks).2 := by
  unfold addTaskBatch
  split_ifs
  · exact hw
  · refine foldl_wheel P (fun r task hr => ?_) tasks _ hw
    rw [addNext_wheel]
    exact hadd r.2 task.1 task.2 hr

/-- What every removal keeps, a batch of them keeps. -/
theorem removeTaskBatch_wheel (P : TimeWheel → Prop) (w : TimeWheel)
    (taskIDs : List (String × Bool)) (hw : P w)
    (hremove : ∀ w' id deleteOk, P w' → P (w'.removeTask cfg id deleteOk).2) :
    P (w.removeTaskBatch cfg taskIDs).2 := by
  refine foldl_wheel P (fun r taskID hr => ?_) taskIDs _ hw
  rw [removeNext_wheel]
  exact hremove r.2 taskID.1 taskID.2 hr

/-! ## Serial runs -/

/-- A step, or a call for a batch. -/
inductive WheelOperation where
  | act (a : Action)
  | addTaskBatch (tasks : List (Option Task × AddEnv))
  | removeTaskBatch (taskIDs : List (String × Bool))

/-- **The step function.** -/
def operate (cfg : Config) (s : Scheduler) : WheelOperation → Option Scheduler
  | .act a => step cfg s a
  | .addTaskBatch tasks => some { s with wheel := (s.wheel.addTaskBatch cfg tasks).2 }
  | .removeTaskBatch taskIDs => some { s with wheel := (s.wheel.removeTaskBatch cfg taskIDs).2 }

/-- A serial step: a call or a tick finds no execution under way. -/
def SerialOperation (s : Scheduler) : WheelOperation → Prop
  | .act a => Serial s a
  | .addTaskBatch _ => s.execs = []
  | .removeTaskBatch _ => s.execs = []

instance (s : Scheduler) (o : WheelOperation) : Decidable (SerialOperation s o) :=
  match o with
  | .act a => inferInstanceAs (Decidable (Serial s a))
  | .addTaskBatch _ => inferInstanceAs (Decidable (s.execs = []))
  | .removeTaskBatch _ => inferInstanceAs (Decidable (s.execs = []))

/-- **No task leaves uncounted**: the step ends no task, and clears nothing. -/
def CountsAll (cfg : Config) (s : Scheduler) : WheelOperation → Prop
  | .act a => TellsStore cfg s a
  | .addTaskBatch _ => True
  | .removeTaskBatch _ => True

instance (cfg : Config) (s : Scheduler) (o : WheelOperation) : Decidable (CountsAll cfg s o) :=
  match o with
  | .act a => inferInstanceAs (Decidable (TellsStore cfg s a))
  | .addTaskBatch _ => isTrue trivial
  | .removeTaskBatch _ => isTrue trivial

/-- A serial operation keeps the invariant. -/
theorem SerialSound.of_operate {o : WheelOperation} (hs : SerialSound cfg s lists)
    (hserial : SerialOperation s o) (hstep : operate cfg s o = some s') :
    ∃ lists', SerialSound cfg s' lists' := by
  cases o with
  | act a => exact hs.of_step hserial hstep
  | addTaskBatch tasks =>
    obtain rfl := Option.some.inj hstep
    obtain ⟨lists', hinv⟩ := addTaskBatch_wheel (fun w => ∃ lists, Inv cfg w lists) s.wheel tasks
      ⟨lists, hs.inv⟩
      (fun w task env ⟨_, h⟩ => (addTask_evolves h task env).imp fun _ hev => hev.inv)
    exact ⟨lists', serialSound_of_idle hserial hinv⟩
  | removeTaskBatch taskIDs =>
    obtain rfl := Option.some.inj hstep
    obtain ⟨lists', hinv⟩ := removeTaskBatch_wheel (fun w => ∃ lists, Inv cfg w lists) s.wheel
      taskIDs ⟨lists, hs.inv⟩
      (fun w id deleteOk ⟨_, h⟩ => (removeTask_evolves h id deleteOk).imp fun _ hev => hev.inv)
    exact ⟨lists', serialSound_of_idle hserial hinv⟩

/-- **An operation keeps the balance exactly if it counts all that leaves.** -/
theorem operate_uncounted_iff {o : WheelOperation} (hs : SerialSound cfg s lists)
    (hserial : SerialOperation s o) (hstep : operate cfg s o = some s') :
    s'.wheel.uncounted cfg = s.wheel.uncounted cfg ↔ CountsAll cfg s o := by
  cases o with
  | act a => exact step_uncounted_iff hs hserial hstep
  | addTaskBatch tasks =>
    obtain rfl := Option.some.inj hstep
    exact iff_of_true (addTaskBatch_wheel (fun w => w.uncounted cfg = s.wheel.uncounted cfg)
      s.wheel tasks rfl (fun w task env h => (addTask_uncounted w task env).trans h)) trivial
  | removeTaskBatch taskIDs =>
    obtain rfl := Option.some.inj hstep
    exact iff_of_true (removeTaskBatch_wheel (fun w => w.uncounted cfg = s.wheel.uncounted cfg)
      s.wheel taskIDs rfl (fun w id deleteOk h => (removeTask_uncounted w id deleteOk).trans h))
      trivial

/-- A wheel that has just been started has counted nothing. -/
theorem uncounted_of_started (h : Started cfg w) : w.uncounted cfg = 0 := by
  obtain ⟨cacheEnabled, store, now₀, slot, rfl⟩ := h.eq_new
  unfold uncounted taskCount
  simp [TimeWheel.new]

/-- **Exactly the serial runs in which the counters are conserved.** -/
theorem conserved_iff (h : Started cfg w) {os : List WheelOperation}
    (hserial : Machine.Each (operate cfg) (fun s o _ => SerialOperation s o) (ofWheel w) os) :
    Machine.Each (operate cfg) (fun _ _ s' => (s'.wheel.getMetrics cfg).Conserved) (ofWheel w) os
      ↔ Machine.Each (operate cfg) (fun s o _ => CountsAll cfg s o) (ofWheel w) os := by
  have hinv : ∀ s o s', SerialOperation s o → (∃ lists, SerialSound cfg s lists) →
      operate cfg s o = some s' → ∃ lists', SerialSound cfg s' lists' := by
    rintro s o s' hser ⟨lists, hs⟩ hstep
    exact hs.of_operate hser hstep
  have hcounts : ∀ s o s', SerialOperation s o → (∃ lists, SerialSound cfg s lists) →
      (s.wheel.getMetrics cfg).Conserved → operate cfg s o = some s' →
      ((s'.wheel.getMetrics cfg).Conserved ↔ CountsAll cfg s o) := by
    rintro s o s' hser ⟨lists, hs⟩ hconserved hstep
    rw [← operate_uncounted_iff hs hser hstep, conserved_getMetrics_iff,
      conserved_getMetrics_iff.mp hconserved]
  exact Machine.each_state_iff hinv hcounts hserial ⟨_, serialSound_of_started h⟩
    (conserved_getMetrics_iff.mpr (uncounted_of_started h))

/-- A task for a batch that is added at time 0. -/
def taskInBatch (id : String) (mode : TaskMode) : Option Task × AddEnv :=
  (some (Task.plain id mode (Duration.ofMilli 10)),
    ⟨Time.ofMilli 0, none, ⟨Time.zero, [], []⟩, true⟩)

/-- A batch is added, with an ID in it twice; one task panics, the repeated one is
executed, and the batch is removed again. -/
def batchRun : List WheelOperation :=
  .addTaskBatch [taskInBatch "a" .repeated, taskInBatch "b" .once, taskInBatch "a" .once]
    :: (ticksAt [10]).map .act
    ++ ([.act (.start 0), .act (.panic 0), .act (.start 0), .act (.finish 0 .zero),
      .act (.complete 0), .removeTaskBatch [("a", true), ("c", true), ("b", true)],
      .act (.clearAllTasks [] Time.zero)] : List WheelOperation)

/-- The batch succeeds in part, and the counters are right all the same. -/
theorem conserved_of_batch :
    Machine.Each (operate fourSlots) (fun _ _ s' => (s'.wheel.getMetrics fourSlots).Conserved)
      (ofWheel fourSlotWheel) batchRun :=
  (conserved_iff started_fourSlotWheel (by decide +kernel)).mpr (by decide +kernel)

/-- A task that is run once. -/
def finishedRun : List WheelOperation :=
  .act (addAt 0 "a" .once 10 none) :: (ticksAt [10]).map .act
    ++ ([.act (.start 0), .act (.finish 0 .zero), .act (.complete 0)] : List WheelOperation)

/-- A task that is cleared away. -/
def clearedRun : List WheelOperation :=
  [.act (addAt 0 "a" .repeated 10 none), .act (.clearAllTasks [] Time.zero)]

/-- What these runs show: the run is serial, and in some state of it the numbers
do not add up. -/
def LosesTasks (os : List WheelOperation) : Prop :=
  Machine.Each (operate fourSlots) (fun s o _ => SerialOperation s o) (ofWheel fourSlotWheel) os
    ∧ ¬ Machine.Each (operate fourSlots)
      (fun _ _ s' => (s'.wheel.getMetrics fourSlots).Conserved) (ofWheel fourSlotWheel) os

instance (os : List WheelOperation) : Decidable (LosesTasks os) :=
  inferInstanceAs (Decidable (_ ∧ _))

/-- **A finished task, and a cleared one, are counted as there for good.** -/
theorem not_conserved_of_finished : LosesTasks finishedRun ∧ LosesTasks clearedRun := by
  decide +kernel

end Timewheel
