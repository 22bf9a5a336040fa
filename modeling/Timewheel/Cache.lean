import Timewheel.Effects
import Timewheel.Isolation
import Timewheel.MultiLevel

/-!
# The task cache

With the cache enabled `GetTask` looks for a node in the cache first, and in
the map of the shard only if it is not there. `AddTask` sets the cache after
the map, and both removals delete from both. `Set` may evict anything: what is
evicted is found in the map.

So all that matters is that the cache holds nothing but entries of the map
(`Mirrors`). `ClearAllTasks` leaves the cache alone while it clears the map,
and replaces it at the end.

There are many ways for an item to leave the cache – the size, the ratio, the
timer, a deletion – and none of them can do harm, since a miss goes on to the
map. What could do harm is an item that stays while its entry goes. The proofs
below are therefore arranged by the two things that happen to the map: an
entry is inserted, or deleted.
-/

namespace Timewheel

open TimeWheel

variable {cfg : Config} {w w' w₁ : TimeWheel} {n m : NodeRef} {id : String}
  {cache : TaskCache}

/-! ## Evictions -/

/-- Every item of `cache'` is one of `cache`. Its size does not grow. -/
structure Evicted (cache cache' : TaskCache) : Prop where
  lookup : ∀ id n, cache'.items.lookup id = some n → cache.items.lookup id = some n
  length : cache'.items.keys.length ≤ cache.items.keys.length
  maxSize : cache'.maxSize = cache.maxSize

/-- No item has been evicted, -/
theorem Evicted.refl (cache : TaskCache) : Evicted cache cache := ⟨fun _ _ h => h, le_refl _, rfl⟩

/-- or some, and then some more. -/
theorem Evicted.trans {cache' cache'' : TaskCache} (h : Evicted cache cache')
    (h' : Evicted cache' cache'') : Evicted cache cache'' :=
  ⟨fun id n hn => h.lookup id n (h'.lookup id n hn), h'.length.trans h.length,
    h'.maxSize.trans h.maxSize⟩

/-- An item that is left after a deletion was there before, -/
theorem lookup_of_erase {items : TaskMap} {k : String} (h : (items.erase k).lookup id = some n) :
    items.lookup id = some n := by
  by_cases hk : id = k
  · subst hk
    rw [AList.lookup_erase] at h
    cases h
  · rwa [AList.lookup_erase_ne hk] at h

/-- and there are no more of them. -/
theorem length_erase_le (items : TaskMap) (k : String) :
    (items.erase k).keys.length ≤ items.keys.length := by
  rw [AList.keys_erase]
  exact List.length_erase_le

/-- Erasing some keys. Whatever their order. -/
theorem foldl_erase (ks : List String) (items : TaskMap) :
    (∀ id n, (ks.foldl (fun items k => items.erase k) items).lookup id = some n →
        items.lookup id = some n)
      ∧ (ks.foldl (fun items k => items.erase k) items).keys.length ≤ items.keys.length := by
  induction ks generalizing items with
  | nil => exact ⟨fun _ _ h => h, le_refl _⟩
  | cons k ks ih =>
    obtain ⟨hlookup, hlength⟩ := ih (items.erase k)
    exact ⟨fun id n h => lookup_of_erase (hlookup id n h), hlength.trans (length_erase_le items k)⟩

/-- Evicting items, -/
theorem evictItems_evicted (cache : TaskCache) (count : ℕ) (order : List String) :
    Evicted cache (evictItems cache count order) := by
  unfold evictItems
  split_ifs
  · exact ⟨fun id n h => (nomatch h), Nat.zero_le _, rfl⟩
  · obtain ⟨hlookup, hlength⟩ := foldl_erase
      (((order ++ cache.items.keys).filter (fun k => k ∈ cache.items.keys)).take count) cache.items
    exact ⟨hlookup, hlength, rfl⟩

/-- **An eviction makes room**: of a cache that has an item it takes one at
least. -/
theorem evictItems_length {count : ℕ} (hcount : 0 < count) (hitems : cache.items.keys ≠ [])
    (order : List String) :
    (evictItems cache count order).items.keys.length < cache.items.keys.length := by
  have hpos := List.length_pos_iff.mpr hitems
  unfold evictItems
  split_ifs
  · exact hpos
  · have hfirst : ∃ k ks, (order ++ cache.items.keys).filter (fun k => k ∈ cache.items.keys) = k :: ks
        ∧ k ∈ cache.items.keys := by
      obtain ⟨k, hk⟩ := List.exists_mem_of_ne_nil _ hitems
      have hne : (order ++ cache.items.keys).filter (fun k => k ∈ cache.items.keys) ≠ [] :=
        List.ne_nil_of_mem (List.mem_filter.mpr
          ⟨List.mem_append_right order hk, decide_eq_true hk⟩)
      obtain ⟨k', ks, hks⟩ := List.exists_cons_of_ne_nil hne
      have hmem : k' ∈ (order ++ cache.items.keys).filter (fun k => k ∈ cache.items.keys) :=
        hks ▸ List.mem_cons_self
      exact ⟨k', ks, hks, of_decide_eq_true (List.mem_filter.mp hmem).2⟩
    obtain ⟨k, ks, hvisited, hk⟩ := hfirst
    obtain ⟨c, rfl⟩ := Nat.exists_eq_succ_of_ne_zero hcount.ne'
    dsimp only
    rw [hvisited, List.take_succ_cons, List.foldl_cons]
    calc (((ks.take c).foldl (fun items k => items.erase k) (cache.items.erase k)).keys).length
        ≤ (cache.items.erase k).keys.length := (foldl_erase _ _).2
      _ < cache.items.keys.length := by
          rw [AList.keys_erase, List.length_erase_of_mem hk]
          exact Nat.sub_lt hpos Nat.one_pos

/-- and the cleanup that a timer triggers, only evict. -/
theorem checkAndCleanup_evicted (cache : TaskCache) (now : Time) (order : List String) :
    Evicted cache (checkAndCleanup cache now order) := by
  unfold checkAndCleanup
  split_ifs
  · have h := evictItems_evicted cache 50 order
    exact ⟨h.lookup, h.length, h.maxSize⟩
  · exact .refl cache

/-- **`Set`**: every item afterwards is the one that was set or one from before,
and the cache is not larger than it may be. The order in which items are evicted
is that of a Go map, and none of this depends on it. -/
theorem cacheSet_spec {key : String} (env : CacheEnv) (hmax : 0 < cache.maxSize)
    (hsize : cache.items.keys.length ≤ cache.maxSize) :
    (∀ id m, (cacheSet cache key n env).items.lookup id = some m →
        (id = key ∧ m = n) ∨ (id ≠ key ∧ cache.items.lookup id = some m))
      ∧ (cacheSet cache key n env).maxSize = cache.maxSize
      ∧ (cacheSet cache key n env).items.keys.length ≤ cache.maxSize := by
  have hcleaned := checkAndCleanup_evicted cache env.now env.order₁
  -- the cache the item is inserted into
  have hroom : ∃ c, Evicted cache c ∧ c.items.keys.length < cache.maxSize
      ∧ (cacheSet cache key n env).items = c.items.insert key n
      ∧ (cacheSet cache key n env).maxSize = c.maxSize := by
    unfold cacheSet
    dsimp only
    generalize checkAndCleanup cache env.now env.order₁ = c at hcleaned ⊢
    split_ifs with hfull
    · have hne : c.items.keys ≠ [] := by
        rintro hnil
        rw [hnil, hcleaned.maxSize] at hfull
        exact absurd hmax (not_lt.mpr hfull)
      have hevicted := evictItems_evicted c 10 env.order₂
      have hless := evictItems_length (by decide : 0 < 10) hne env.order₂
      exact ⟨evictItems c 10 env.order₂, hcleaned.trans hevicted,
        lt_of_lt_of_le hless (hcleaned.length.trans hsize), rfl, rfl⟩
    · exact ⟨c, hcleaned, hcleaned.maxSize ▸ not_le.mp hfull, rfl, rfl⟩
  obtain ⟨c, hc, hlt, hitems, hmaxSize⟩ := hroom
  refine ⟨fun id m h => ?_, hmaxSize.trans hc.maxSize, ?_⟩
  · rw [hitems] at h
    by_cases hid : id = key
    · subst hid
      rw [AList.lookup_insert] at h
      exact Or.inl ⟨rfl, (Option.some.inj h).symm⟩
    · rw [AList.lookup_insert_ne hid] at h
      exact Or.inr ⟨hid, hc.lookup id m h⟩
  · rw [hitems, AList.keys_insert, List.length_cons]
    exact (Nat.succ_le_succ List.length_erase_le).trans hlt

/-! ## The cache and the map -/

/-- **Every item of the cache is an entry of the map**, and the cache is not
larger than it may be. The size is that of the constructor, which is positive. -/
structure Mirrors (cfg : Config) (w : TimeWheel) (cache : TaskCache) : Prop where
  lookup : ∀ id n, cache.items.lookup id = some n → w.lookup cfg id = some n
  maxSize_pos : 0 < cache.maxSize
  length_le : cache.items.keys.length ≤ cache.maxSize

/-- The wheel has a cache, which mirrors its map. It is the invariant of the
runs below. -/
def CacheMirrors (cfg : Config) (w : TimeWheel) : Prop :=
  ∃ cache, w.taskCache = some cache ∧ Mirrors cfg w cache

/-- `w'` has the map and the cache of `w`. Steps that touch neither keep one a
mirror of the other. -/
structure SameIndex (w w' : TimeWheel) : Prop where
  shards : w'.shards = w.shards
  taskCache : w'.taskCache = w.taskCache

/-- Neither has changed, -/
theorem SameIndex.refl (w : TimeWheel) : SameIndex w w := ⟨rfl, rfl⟩

/-- in one step or in two. -/
theorem SameIndex.trans {w'' : TimeWheel} (h : SameIndex w w') (h' : SameIndex w' w'') :
    SameIndex w w'' :=
  ⟨h'.shards.trans h.shards, h'.taskCache.trans h.taskCache⟩

/-- Pointers are in neither. -/
theorem TimeWheel.Relinked.sameIndex (h : Relinked w w') : SameIndex w w' := by
  obtain ⟨heap, slots, rfl⟩ := h.frame
  exact ⟨rfl, rfl⟩

/-- Only the items, the size and the map matter. The counters of hits and misses
do not. -/
theorem Mirrors.congr {cache' : TaskCache} (h : Mirrors cfg w cache)
    (hshards : w'.shards = w.shards) (hitems : cache'.items = cache.items)
    (hmaxSize : cache'.maxSize = cache.maxSize) : Mirrors cfg w' cache' := by
  refine ⟨fun id n hn => ?_, hmaxSize ▸ h.maxSize_pos, ?_⟩
  · rw [lookup_congr hshards]
    exact h.lookup id n (hitems ▸ hn)
  · rw [hitems, hmaxSize]
    exact h.length_le

/-- So such a step keeps the mirror. -/
theorem CacheMirrors.of_same (h : CacheMirrors cfg w) (hsame : SameIndex w w') :
    CacheMirrors cfg w' := by
  obtain ⟨cache, hcache, hmirrors⟩ := h
  exact ⟨cache, hsame.taskCache.trans hcache, hmirrors.congr hsame.shards rfl rfl⟩

/-- A new cache has no items. Its size is the one that was asked for, or the
default. -/
theorem cacheMirrors_new {maxSize : ℤ} {now : Time}
    (h : w.taskCache = some (newTaskCache maxSize now)) : CacheMirrors cfg w := by
  have hpos : 0 < (newTaskCache maxSize now).maxSize := by
    unfold newTaskCache
    dsimp only
    split_ifs with hle
    · decide
    · omega
  exact ⟨_, h, ⟨fun id n hn => (nomatch hn), hpos, Nat.zero_le _⟩⟩

/-- **Entering a node**, in the map and in the cache. The new item is the new
entry, and what is left of the others is as before. -/
theorem CacheMirrors.insert (h : CacheMirrors cfg w) {env : CacheEnv}
    (hshards : w'.shards = (w.insertEntry cfg id n).shards)
    (hcache : w'.taskCache = w.taskCache.map (fun cache => cacheSet cache id n env)) :
    CacheMirrors cfg w' := by
  obtain ⟨cache, hsome, hmirrors⟩ := h
  obtain ⟨hitems, hmaxSize, hlength⟩ := @cacheSet_spec n cache id env hmirrors.maxSize_pos
    hmirrors.length_le
  refine ⟨cacheSet cache id n env, ?_, ⟨fun id' m hm => ?_, ?_, ?_⟩⟩
  · rw [hcache, hsome]
    rfl
  · rw [lookup_congr hshards, insertEntry_lookup]
    rcases hitems id' m hm with ⟨rfl, rfl⟩ | ⟨hne, hm⟩
    · exact if_pos rfl
    · rw [if_neg hne]
      exact hmirrors.lookup id' m hm
  · rw [hmaxSize]
    exact hmirrors.maxSize_pos
  · rw [hmaxSize]
    exact hlength

/-- **Deleting an entry**, from the map and from the cache. The item goes with
the entry, if it was there. -/
theorem CacheMirrors.delete (h : CacheMirrors cfg w)
    (hshards : w'.shards = (w.deleteEntry cfg id).shards)
    (hcache : w'.taskCache = w.taskCache.map (fun cache => cacheDelete cache id)) :
    CacheMirrors cfg w' := by
  obtain ⟨cache, hsome, hmirrors⟩ := h
  refine ⟨cacheDelete cache id, ?_, ⟨fun id' m hm => ?_, hmirrors.maxSize_pos, ?_⟩⟩
  · rw [hcache, hsome]
    rfl
  · rw [lookup_congr hshards, deleteEntry_lookup]
    by_cases hid : id' = id
    · subst hid
      exact absurd (AList.lookup_erase id' cache.items ▸ hm : none = some m) (by simp)
    · rw [if_neg hid]
      exact hmirrors.lookup id' m (lookup_of_erase hm)
  · exact (length_erase_le cache.items id).trans hmirrors.length_le

/-! ## The operations -/

/-- Preparing a node touches neither. -/
theorem prepareNode_sameIndex (cfg : Config) (w : TimeWheel) (t : Task) (env : AddEnv) :
    SameIndex w (w.prepareNode cfg t env).2 := by
  have hdrawn : SameIndex w (w.poolGet env.node).2 := by
    unfold poolGet
    cases env.node with
    | none => exact ⟨rfl, rfl⟩
    | some n =>
      dsimp only
      split_ifs
      · exact ⟨rfl, rfl⟩
      · exact ⟨rfl, rfl⟩
  unfold prepareNode
  generalize w.poolGet env.node = g at hdrawn ⊢
  obtain ⟨n, w₁⟩ := g
  exact ⟨hdrawn.shards, hdrawn.taskCache⟩

/-- `AddTask` inserts into both, -/
theorem addTask_cacheMirrors (h : CacheMirrors cfg w) (task : Option Task) (env : AddEnv) :
    CacheMirrors cfg (w.addTask cfg task env).2 := by
  unfold addTask
  cases task with
  | none => exact h
  | some t =>
    dsimp only
    cases checkTask t with
    | error err => exact h
    | ok t' =>
      dsimp only
      split_ifs
      · exact h
      · have hprepared := h.of_same (prepareNode_sameIndex cfg w t' env)
        generalize w.prepareNode cfg t' env = g at hprepared ⊢
        obtain ⟨n, w₁⟩ := g
        dsimp only at hprepared ⊢
        cases w₁.lookup cfg t'.id with
        | some m => exact hprepared.of_same ⟨rfl, rfl⟩
        | none =>
          have hlinked := hprepared.of_same
            (relinked_insertOrdered w₁ n t'.priority (w₁.heap n).slotIndex).sameIndex
          exact hlinked.insert rfl rfl

/-- and `RemoveTask` deletes from both. -/
theorem removeTask_cacheMirrors (h : CacheMirrors cfg w) (id : String) (deleteOk : Bool) :
    CacheMirrors cfg (w.removeTask cfg id deleteOk).2 := by
  unfold removeTask
  by_cases hid : id = ""
  · rw [if_pos hid]
    exact h
  · rw [if_neg hid]
    cases w.lookup cfg id with
    | none => exact h
    | some n => exact (h.of_same (w.unlink_spec n (w.heap n).slotIndex).1.sameIndex).delete rfl rfl

/-- Clearing one entry does not reach the cache, -/
theorem clearTask_taskCache (cfg : Config) (w : TimeWheel) (id : String) :
    (w.clearTask cfg id).taskCache = w.taskCache := by
  cases hn : w.lookup cfg id with
  | none => rw [clearTask_of_lookup_none hn]
  | some n =>
    obtain ⟨w₁, hrel, hclear⟩ := clearTask_frame hn
    rw [hclear]
    exact hrel.sameIndex.taskCache

/-- `ClearAllTasks` leaves a new cache. While it clears the map the old one does
not mirror it. What others see in between is not part of a step. -/
theorem clearAllTasks_cacheMirrors (h : CacheMirrors cfg w) (order : List String) (now : Time) :
    CacheMirrors cfg (w.clearAllTasks cfg order now).2 := by
  obtain ⟨cache, hcache, -⟩ := h
  have hsome : ∃ c, (w.clearAllTasks cfg order now).2.taskCache = some c :=
    clearAllTasks_wheel (fun w' => ∃ c, w'.taskCache = some c) w order now ⟨cache, hcache⟩
      (fun w' id ⟨c, hc⟩ => ⟨c, (clearTask_taskCache cfg w' id).trans hc⟩)
      (fun w' f ⟨c, hc⟩ => ⟨f c, congrArg (Option.map f) hc⟩)
  obtain ⟨c, hc⟩ := hsome
  obtain ⟨_, -, hnew⟩ := Option.map_eq_some_iff.mp hc
  exact cacheMirrors_new (hc.trans (congrArg some hnew.symm))

/-- Evaluating an alert touches neither. -/
theorem applyAlert_sameIndex (w : TimeWheel) (n : NodeRef) (info : TaskInfo)
    (result : AlarmResult) (now : Time) : SameIndex w (w.applyAlert cfg n info result now) :=
  ⟨rfl, rfl⟩

/-- The locked section of an execution keeps the map and the cache, or deletes
one ID from both. Both when the task is removed. -/
theorem lockedSection_cacheMirrors (h : CacheMirrors cfg w) (n : NodeRef) (info : TaskInfo)
    (result : AlarmResult) (now : Time) (slot : ℕ) :
    CacheMirrors cfg (w.lockedSection cfg n info result now slot) := by
  have halert := h.of_same (@applyAlert_sameIndex cfg w n info result now)
  unfold lockedSection handleTaskSchedulingLocked
  generalize w.applyAlert cfg n info result now = w₁ at halert ⊢
  split_ifs
  · exact halert
  · obtain ⟨heap, slots, hw, -⟩ := @rescheduleTask_frame cfg w₁ n info now slot
    rw [hw]
    exact halert.of_same ⟨rfl, rfl⟩
  · exact (halert.of_same (w₁.unlink_spec n slot).1.sameIndex).delete rfl rfl

/-- **A call keeps the cache a mirror.** `UpdateTask` is a removal and one or
two additions. -/
theorem call_cacheMirrors {s s' : Scheduler} {a : Action} (h : CacheMirrors cfg s.wheel)
    (hcall : a.isCall = true) (hstep : Scheduler.step cfg s a = some s') :
    CacheMirrors cfg s'.wheel := by
  have hcalled := called_of_step hcall hstep
  generalize s'.wheel = w' at hcalled ⊢
  cases hcalled with
  | addTask task env => exact addTask_cacheMirrors h task env
  | removeTask taskID deleteOk =>
    exact removeTask_cacheMirrors h taskID deleteOk
  | updateTask task env =>
    exact updateTask_wheel (CacheMirrors cfg) s.wheel task env h
      (fun id => removeTask_cacheMirrors h id env.deleteOk)
      (fun w' t _ h' => addTask_cacheMirrors h' (some t) env.add)
      (fun w' _ _ t _ _ h' => addTask_cacheMirrors h' (some t) env.rollback)
  | pauseTask taskID =>
    exact pauseTask_wheel (CacheMirrors cfg) s.wheel taskID h (fun _ => h.of_same ⟨rfl, rfl⟩)
  | resumeTask taskID now =>
    exact resumeTask_wheel (CacheMirrors cfg) s.wheel taskID now h
      (fun _ _ => h.of_same ⟨rfl, rfl⟩)
  | clearAllTasks order now =>
    exact clearAllTasks_cacheMirrors h order now

/-- **Any step keeps the cache a mirror.** Ticks and executions only touch the
two when they remove a task. -/
theorem step_cacheMirrors {s s' : Scheduler} {a : Action} (h : CacheMirrors cfg s.wheel)
    (hstep : Scheduler.step cfg s a = some s') : CacheMirrors cfg s'.wheel := by
  have hstepped := stepped_of_step hstep
  cases hstepped with
  | call hcall _ => exact call_cacheMirrors h hcall hstep
  | tick now => exact h.of_same ⟨rfl, rfl⟩
  | reject _ _ => exact h
  | @start i e _ _ =>
    unfold Scheduler.start
    cases s.wheel.checkTaskState e.node with
    | none => exact h
    | some task =>
      dsimp only
      cases s.wheel.runTaskCheck e.node task.copyTaskInfo with
      | none => exact h
      | some err => exact h.of_same ⟨rfl, rfl⟩
  | @finish i e info _ _ result =>
    unfold Scheduler.finish
    dsimp only
    split_ifs
    · exact h.of_same ⟨rfl, rfl⟩
    · exact h.of_same ⟨rfl, rfl⟩
  | panic _ _ => exact h
  | @complete i e info result _ _ =>
    exact lockedSection_cacheMirrors h e.node info result e.now e.currentSlot

/-! ## GetTask -/

/-- A step of the scheduler, or a lookup. A lookup is a step as it counts. -/
inductive CacheAction where
  | step (a : Action)
  | getTask (id : String)

/-- **The step function** with lookups, which count hits and misses. Anybody may
look at any time. -/
def cacheStep (cfg : Config) (s : Scheduler) : CacheAction → Option Scheduler
  | .step a => Scheduler.step cfg s a
  | .getTask id => some { s with wheel := (s.wheel.getTask cfg id).2 }

/-- **A lookup** finds what the map holds, and changes neither the map nor the
items. A hit is an entry of the map by the invariant, and a miss asks the map. -/
theorem getTask_spec (h : CacheMirrors cfg w) (id : String) :
    (w.getTask cfg id).1 = w.lookup cfg id ∧ CacheMirrors cfg (w.getTask cfg id).2 := by
  obtain ⟨cache, hcache, hmirrors⟩ := h
  unfold getTask
  rw [hcache]
  dsimp only
  cases hn : cache.items.lookup id with
  | some n => exact ⟨(hmirrors.lookup id n hn).symm, _, rfl, hmirrors.congr rfl rfl rfl⟩
  | none => exact ⟨rfl, _, rfl, hmirrors.congr rfl rfl rfl⟩

/-- **The cached lookup is the plain lookup**, after any calls, ticks,
executions and lookups, from any wheel with a new cache of any size; and the
cache is never larger than it may be. For every size of the cache, every choice
of the items that are evicted, and every time at which the cleanup comes. -/
theorem getTask_eq_lookup (cfg : Config) {s s' : Scheduler} {maxSize : ℤ} {now : Time}
    (hcache : s.wheel.taskCache = some (newTaskCache maxSize now)) {as : List CacheAction}
    (hrun : Machine.run (cacheStep cfg) s as = some s') :
    (∀ id, (s'.wheel.getTask cfg id).1 = s'.wheel.lookup cfg id)
      ∧ ∃ cache, s'.wheel.taskCache = some cache
        ∧ cache.items.keys.length ≤ cache.maxSize := by
  have hstep : ∀ (s : Scheduler) a s', CacheMirrors cfg s.wheel → True →
      cacheStep cfg s a = some s' → CacheMirrors cfg s'.wheel := by
    intro s a s' h _ hstep
    cases a with
    | step a => exact step_cacheMirrors h hstep
    | getTask id => exact Option.some.inj hstep ▸ (getTask_spec h id).2
  have h := Machine.inv_of_run hstep (cacheMirrors_new hcache)
    (Machine.each_of_forall (fun _ _ => trivial)) hrun
  refine ⟨fun id => (getTask_spec h id).1, ?_⟩
  obtain ⟨cache, hsome, hmirrors⟩ := h
  exact ⟨cache, hsome, hmirrors.length_le⟩

/-- Two tasks and a cache for one: the first is evicted, and found. -/
theorem getTask_eq_lookup_of_evicted :
    ∃ s' n, Machine.run (cacheStep fourSlots)
        (.ofWheel { fourSlotWheel with taskCache := some (newTaskCache 1 0) })
        [.step (.addTask (some (Task.plain "a" .repeated (Duration.ofMilli 10))) newNodeEnv),
          .step (.addTask (some (Task.plain "b" .repeated (Duration.ofMilli 10))) newNodeEnv)]
        = some s'
      ∧ s'.wheel.taskCache.map (fun cache => cache.items.keys) = some ["b"]
      ∧ (s'.wheel.getTask fourSlots "a").1 = some n := by
  have hrun : (Machine.run (cacheStep fourSlots)
      (.ofWheel { fourSlotWheel with taskCache := some (newTaskCache 1 0) })
      [.step (.addTask (some (Task.plain "a" .repeated (Duration.ofMilli 10))) newNodeEnv),
        .step (.addTask (some (Task.plain "b" .repeated (Duration.ofMilli 10))) newNodeEnv)]).map
      (fun s => (s.wheel.taskCache.map (fun cache => cache.items.keys), s.wheel.lookup fourSlots "a"))
      = some (some ["b"], some 0) := by decide +kernel
  obtain ⟨s', hs', hvalues⟩ := Option.map_eq_some_iff.mp hrun
  obtain ⟨hkeys, hentry⟩ := Prod.mk.inj hvalues
  exact ⟨s', 0, hs', hkeys, ((getTask_eq_lookup fourSlots rfl hs').1 "a").trans hentry⟩

end Timewheel
