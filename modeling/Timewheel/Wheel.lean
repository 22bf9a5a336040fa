import Timewheel.Alert
import Timewheel.Dispatch
import Timewheel.Lib.DList
import Mathlib.Data.List.AList

/-!
# The time wheel

The state of one `TimeWheel` and its operations. Nodes live in a heap; a slot
holds the pointer to the first node of a doubly linked list, a shard of the
task map holds the node of each task by its ID, and a node that carries no
task any more waits in the pool to be handed out again.

What the program leaves open is an argument: the clock readings, which node
the pool hands out, in which order a map is iterated and whether a call to
the task store succeeds. Locks are not modelled here – each operation below
runs under the locks that make it one atomic step – and neither are log lines
and the time an execution takes, which nothing reads back. The string pool
replaces strings by equal strings and is left out.
-/

namespace Timewheel

/-! ## Configuration and state -/

/-- What `New` fixes: the sizes it accepts, and the sinks. -/
structure Config where
  slotNum : ℕ
  interval : Duration
  shardNum : ℕ
  sinks : AlertSinks
  /-- `ErrSlotsTooFew`. -/
  slotNum_pos : 0 < slotNum
  /-- `ErrIntervalTooSmall`. -/
  interval_pos : 0 < interval
  /-- `DefaultShardNum` is positive. -/
  shardNum_pos : 0 < shardNum

/-- A context: its parent, and whether its own cancel function was called. -/
structure Ctx where
  parent : Option CtxRef
  cancelled : Bool
  deriving DecidableEq, Repr

/-- A shard of the task map. -/
abbrev TaskMap := AList (fun _ : String => NodeRef)

/-- `TaskCache`. -/
structure TaskCache where
  items : TaskMap
  hits : ℕ
  misses : ℕ
  expired : ℕ
  maxSize : ℕ
  lastCleanup : Time

/-- The counters behind `GetMetrics`. -/
structure Counters where
  totalTasksAdded : ℕ
  totalTasksRemoved : ℕ
  totalTasksExecuted : ℕ
  totalTasksFailed : ℕ
  totalTaskPanics : ℕ
  totalCacheHits : ℕ
  totalCacheMisses : ℕ
  totalAlertsFired : ℕ
  deriving DecidableEq, Repr

/-- `TimeWheel`, and the heap its pointers point into. -/
structure TimeWheel where
  shards : ℕ → TaskMap
  slots : ℕ → Option NodeRef
  heap : NodeRef → TaskSlot
  /-- Nodes below this one have been allocated. -/
  nextNode : NodeRef
  taskPool : List NodeRef
  currentSlot : ℕ
  running : Bool
  /-- The wheel's own context. -/
  ctx : CtxRef
  ctxs : CtxRef → Ctx
  /-- Contexts below this one have been created. -/
  nextCtx : CtxRef
  taskCache : Option TaskCache
  /-- The tasks the `TaskStore` holds, when one is configured. -/
  taskStore : Option (AList (fun _ : String => Task))
  /-- The calls made to the alert sinks. -/
  alertEvents : List AlertEvent
  counters : Counters

/-! ## Shards -/

/-- `fnv64`. -/
def fnv64 (key : String) : UInt64 :=
  key.toUTF8.data.foldl (fun hash b => (hash ^^^ b.toUInt64) * 16777619) 2166136261

namespace TimeWheel

/-- The shard `getShard` returns. -/
def shardOf (cfg : Config) (taskID : String) : ℕ := (fnv64 taskID).toNat % cfg.shardNum

/-- `shard.tasks[id]` in the shard of `id`. -/
def lookup (cfg : Config) (w : TimeWheel) (id : String) : Option NodeRef :=
  (w.shards (shardOf cfg id)).lookup id

/-- `shard.tasks[id] = node`. -/
def insertEntry (cfg : Config) (w : TimeWheel) (id : String) (n : NodeRef) : TimeWheel :=
  { w with
    shards := Function.update w.shards (shardOf cfg id)
      ((w.shards (shardOf cfg id)).insert id n) }

/-- `delete(shard.tasks, id)`. -/
def deleteEntry (cfg : Config) (w : TimeWheel) (id : String) : TimeWheel :=
  { w with
    shards := Function.update w.shards (shardOf cfg id)
      ((w.shards (shardOf cfg id)).erase id) }

/-- The IDs in the map, shard by shard. -/
def allIDs (cfg : Config) (w : TimeWheel) : List String :=
  (List.range cfg.shardNum).flatMap (fun j => (w.shards j).keys)

/-! ## Pointers -/

/-- The `next` pointers. -/
def next (w : TimeWheel) : NodeRef → Option NodeRef := fun n => (w.heap n).next

/-- The `prev` pointers. -/
def prev (w : TimeWheel) : NodeRef → Option NodeRef := fun n => (w.heap n).prev

/-- Overwrite a node. -/
def setNode (w : TimeWheel) (n : NodeRef) (node : TaskSlot) : TimeWheel :=
  { w with heap := Function.update w.heap n node }

/-- `node.next = v`. -/
def setNext (w : TimeWheel) (n : NodeRef) (v : Option NodeRef) : TimeWheel :=
  w.setNode n { w.heap n with next := v }

/-- `node.prev = v`. -/
def setPrev (w : TimeWheel) (n : NodeRef) (v : Option NodeRef) : TimeWheel :=
  w.setNode n { w.heap n with prev := v }

/-- `tw.slots[i] = v`. -/
def setSlot (w : TimeWheel) (i : ℕ) (v : Option NodeRef) : TimeWheel :=
  { w with slots := Function.update w.slots i v }

/-- The unlinking every removal does: the node's neighbours are joined, and a
node without predecessor is taken to head the list of `slot`. -/
def unlink (w : TimeWheel) (n : NodeRef) (slot : ℕ) : TimeWheel :=
  let w₁ := match (w.heap n).prev with
    | some p => w.setNext p (w.heap n).next
    | none => w.setSlot slot (w.heap n).next
  match (w₁.heap n).next with
  | some m => w₁.setPrev m (w₁.heap n).prev
  | none => w₁

/-- The linking `rescheduleTask` does: the node goes to the front of the
slot. -/
def pushFront (w : TimeWheel) (n : NodeRef) (slot : ℕ) : TimeWheel :=
  let w₁ := w.setNext n (w.slots slot)
  let w₂ := match w₁.slots slot with
    | some m => w₁.setPrev m (some n)
    | none => w₁
  (w₂.setSlot slot (some n)).setPrev n none

/-- The loop of `AddTask` that looks for the last node whose priority value is
smaller. -/
def findPrev (w : TimeWheel) (priority : TaskPriority) :
    ℕ → Option NodeRef → Option NodeRef → Option NodeRef
  | 0, prev, _ => prev
  | _ + 1, prev, none => prev
  | fuel + 1, prev, some current =>
    match (w.heap current).task with
    | none => prev
    | some task =>
      if task.priority < priority then
        findPrev w priority fuel (some current) (w.heap current).next
      else prev

/-- The linking `AddTask` does: behind the tasks of smaller priority value. -/
def insertOrdered (w : TimeWheel) (n : NodeRef) (priority : TaskPriority) (slot : ℕ) :
    TimeWheel :=
  match w.slots slot with
  | none => w.setSlot slot (some n)
  | some head =>
    match w.findPrev priority w.nextNode none (some head) with
    | none => ((w.setNext n (some head)).setPrev head (some n)).setSlot slot (some n)
    | some q =>
      let w₁ := w.setNext n (w.heap q).next
      let w₂ := match (w₁.heap q).next with
        | some m => w₁.setPrev m (some n)
        | none => w₁
      (w₂.setNext q (some n)).setPrev n (some q)

/-- The nodes met by following `next` from the head of a slot. A list that
does not run in a circle has at most as many nodes as were allocated. -/
def slotNodes (w : TimeWheel) (i : ℕ) : List NodeRef :=
  DList.walk w.next w.nextNode (w.slots i)

/-! ## Contexts -/

/-- `context.WithCancel(tw.ctx)`: the new context. -/
def withCancel (w : TimeWheel) : CtxRef × TimeWheel :=
  (w.nextCtx, { w with
    ctxs := Function.update w.ctxs w.nextCtx ⟨some w.ctx, false⟩
    nextCtx := w.nextCtx + 1 })

/-- `node.cancel()`, when it is set. -/
def cancelCtx (w : TimeWheel) (cancel : Option CtxRef) : TimeWheel :=
  { w with
    ctxs := match cancel with
      | some c => Function.update w.ctxs c { w.ctxs c with cancelled := true }
      | none => w.ctxs }

/-- Whether a context made by `withCancel` is done: it was cancelled, or the
wheel's context it was made from was. -/
def ctxDone (w : TimeWheel) (c : CtxRef) : Bool :=
  (w.ctxs c).cancelled || (w.ctxs c).parent.any (fun p => (w.ctxs p).cancelled)

/-! ## The node pool -/

/-- `tw.taskPool.Get()`: a node that was put back, or a new one. -/
def poolGet (w : TimeWheel) (choice : Option NodeRef) : NodeRef × TimeWheel :=
  match choice with
  | some n =>
    if n ∈ w.taskPool then (n, { w with taskPool := w.taskPool.erase n })
    else (w.nextNode, { w.setNode w.nextNode TaskSlot.zero with nextNode := w.nextNode + 1 })
  | none =>
    (w.nextNode, { w.setNode w.nextNode TaskSlot.zero with nextNode := w.nextNode + 1 })

/-- `tw.taskPool.Put(node)`. -/
def poolPut (w : TimeWheel) (n : NodeRef) : TimeWheel :=
  { w with taskPool := n :: w.taskPool }

/-! ## The cache and the store -/

/-- What the cache leaves open in one `Set`: the clock, and the order in which
its map is iterated by the two evictions. -/
structure CacheEnv where
  now : Time
  order₁ : List String
  order₂ : List String

/-- `NewTaskCache`. -/
def newTaskCache (maxSize : ℤ) (now : Time) : TaskCache where
  items := ∅
  hits := 0
  misses := 0
  expired := 0
  maxSize := if maxSize ≤ 0 then 100000 else maxSize.toNat
  lastCleanup := now

/-- `evictItems`. `order` is the order in which the map is iterated; the keys it
leaves out come last. -/
def evictItems (cache : TaskCache) (count : ℕ) (order : List String) : TaskCache :=
  if cache.items.keys.length ≤ count then { cache with items := ∅ }
  else
    let visited := (order ++ cache.items.keys).filter (fun k => k ∈ cache.items.keys)
    { cache with
      items := (visited.take count).foldl (fun items k => items.erase k) cache.items }

/-- `checkAndCleanup`. -/
def checkAndCleanup (cache : TaskCache) (now : Time) (order : List String) : TaskCache :=
  if now.sub cache.lastCleanup ≥ 300000 * Duration.millisecond then
    { evictItems cache 50 order with lastCleanup := now }
  else cache

/-- `TaskCache.Set`. -/
def cacheSet (cache : TaskCache) (key : String) (n : NodeRef) (env : CacheEnv) : TaskCache :=
  let cache := checkAndCleanup cache env.now env.order₁
  let cache := if cache.items.keys.length ≥ cache.maxSize then
      { evictItems cache 10 env.order₂ with expired := cache.expired + 1 }
    else cache
  { cache with items := cache.items.insert key n }

/-- `TaskCache.Delete`. -/
def cacheDelete (cache : TaskCache) (key : String) : TaskCache :=
  { cache with items := cache.items.erase key }

/-! ## Operations -/

/-- What one `AddTask` leaves open. -/
structure AddEnv where
  now : Time
  /-- The node the pool hands out; `none` is a new one. -/
  node : Option NodeRef
  cache : CacheEnv
  /-- Whether saving to the store succeeds. -/
  saveOk : Bool

/-- `GetTask`. -/
def getTask (cfg : Config) (w : TimeWheel) (id : String) : Option NodeRef × TimeWheel :=
  match w.taskCache with
  | none => (w.lookup cfg id, w)
  | some cache =>
    match cache.items.lookup id with
    | some n =>
      (some n, { w with
        taskCache := some { cache with hits := cache.hits + 1 }
        counters := { w.counters with totalCacheHits := w.counters.totalCacheHits + 1 } })
    | none =>
      (w.lookup cfg id, { w with
        taskCache := some { cache with misses := cache.misses + 1 }
        counters := { w.counters with totalCacheMisses := w.counters.totalCacheMisses + 1 } })

/-- The checks of `AddTask` on a task that is not nil, with the defaults it
writes back: an interval of a millisecond for a task run once, and the
repeated mode for an unknown one. -/
def checkTask (task : Task) : Except Err Task :=
  if task.id = "" then .error .invalidParam
  else if task.run = none then .error .invalidParam
  else
    match task.mode with
    | .repeated =>
      if task.interval ≤ 0 then .error (.wrap ("task " ++ task.id) .taskIntervalInvalid)
      else .ok task
    | .once =>
      .ok (if task.interval ≤ 0 then { task with interval := Duration.millisecond } else task)
    | .fixedTimes =>
      if task.times ≤ 0 then .error (.wrap ("task " ++ task.id) .taskTimesInvalid)
      else if task.interval ≤ 0 then
        .error (.wrap ("task " ++ task.id) .taskIntervalInvalid)
      else .ok task
    | .other _ =>
      if task.interval ≤ 0 then .error (.wrap ("task " ++ task.id) .taskIntervalInvalid)
      else .ok { task with mode := .repeated }

/-- The node `AddTask` prepares. The paused flag is not written. -/
def initNode (node : TaskSlot) (task : Task) (ctx : CtxRef) (slotIndex : ℕ) (now : Time) :
    TaskSlot :=
  { node with
    task := some task
    ctx := some ctx
    cancel := some ctx
    slotIndex := slotIndex
    addedAt := now
    runAt := now.add task.interval
    executed := 0
    next := none
    prev := none
    alertState := .pending
    pendingSince := Time.zero
    lastFiredAt := Time.zero
    lastResult := AlarmResult.zero }

/-- `AddTask` up to the lock: the node from the pool, prepared for the
task. -/
def prepareNode (cfg : Config) (w : TimeWheel) (task : Task) (env : AddEnv) :
    NodeRef × TimeWheel :=
  let slotIndex := slotIndexFor cfg.interval cfg.slotNum env.now task.interval
  let (n, w) := w.poolGet env.node
  let (c, w) := w.withCancel
  (n, w.setNode n (initNode (w.heap n) task c slotIndex env.now))

/-- `AddTask` under the shard lock, for a task that is not in the map: the
node is linked and entered. -/
def linkTask (cfg : Config) (w : TimeWheel) (n : NodeRef) (task : Task) (env : AddEnv) :
    TimeWheel :=
  let w := w.insertOrdered n task.priority (w.heap n).slotIndex
  let w := w.insertEntry cfg task.id n
  { w with
    taskCache := w.taskCache.map (fun cache => cacheSet cache task.id n env.cache)
    taskStore :=
      if env.saveOk then w.taskStore.map (fun store => store.insert task.id task)
      else w.taskStore
    counters := { w.counters with totalTasksAdded := w.counters.totalTasksAdded + 1 } }

/-- `AddTask`; a nil task is `none`, and so is a nil error. -/
def addTask (cfg : Config) (w : TimeWheel) (task : Option Task) (env : AddEnv) :
    Option Err × TimeWheel :=
  match task with
  | none => (some .invalidParam, w)
  | some task =>
    match checkTask task with
    | .error err => (some err, w)
    | .ok task =>
      if w.running = false then (some .wheelNotRunning, w)
      else
        let (n, w) := w.prepareNode cfg task env
        match w.lookup cfg task.id with
        | some _ =>
          -- the prepared node goes back with its task still in it
          (some .taskAlreadyExists, w.poolPut n)
        | none => (none, w.linkTask cfg n task env)

/-- The fields every removal clears before the node goes back to the pool. -/
def clearNode (node : TaskSlot) : TaskSlot :=
  { node with task := none, ctx := none, cancel := none, next := none, prev := none }

/-- The further fields `ClearAllTasks` and the internal `removeTask` clear. -/
def clearAlert (node : TaskSlot) : TaskSlot :=
  { node with
    alertState := .pending
    pendingSince := Time.zero
    lastFiredAt := Time.zero
    lastResult := AlarmResult.zero }

/-- `RemoveTask`. -/
def removeTask (cfg : Config) (w : TimeWheel) (taskID : String) (deleteOk : Bool) :
    Option Err × TimeWheel :=
  if taskID = "" then (some .invalidParam, w)
  else
    match w.lookup cfg taskID with
    | none => (some .taskNotFound, w)
    | some n =>
      let w := w.unlink n (w.heap n).slotIndex
      let w := w.deleteEntry cfg taskID
      let w := w.cancelCtx (w.heap n).cancel
      let w := (w.setNode n (clearNode (w.heap n))).poolPut n
      (none, { w with
        taskCache := w.taskCache.map (fun cache => cacheDelete cache taskID)
        taskStore :=
          if deleteOk then w.taskStore.map (fun store => store.erase taskID) else w.taskStore
        counters := { w.counters with totalTasksRemoved := w.counters.totalTasksRemoved + 1 } })

/-- What one `UpdateTask` leaves open: its removal, the addition of the new
task, and the addition that puts the old one back. -/
structure UpdateEnv where
  deleteOk : Bool
  add : AddEnv
  rollback : AddEnv

/-- `UpdateTask`. -/
def updateTask (cfg : Config) (w : TimeWheel) (task : Option Task) (env : UpdateEnv) :
    Option Err × TimeWheel :=
  match task with
  | none => (some .invalidParam, w)
  | some task =>
    if task.id = "" then (some .invalidParam, w)
    else if task.run = none then (some .invalidParam, w)
    else if w.running = false then (some .wheelNotRunning, w)
    else
      match w.lookup cfg task.id with
      | none => (some .taskNotFound, w)
      | some n =>
        let oldTaskCopy := (w.heap n).task
        match w.removeTask cfg task.id env.deleteOk with
        | (some err, w) => (some err, w)
        | (none, w) =>
          match w.addTask cfg (some task) env.add with
          | (none, w) => (none, w)
          | (some err, w) =>
            match oldTaskCopy with
            | none => (some (.wrap ("add new task failed for task " ++ task.id) err), w)
            | some old =>
              match w.addTask cfg (some old) env.rollback with
              | (some _, w) =>
                (some (.wrap
                  ("update failed and rollback also failed for task " ++ task.id) err), w)
              | (none, w) =>
                (some (.wrap ("add new task failed for task " ++ task.id) err), w)

/-- `PauseTask`. -/
def pauseTask (cfg : Config) (w : TimeWheel) (taskID : String) : Option Err × TimeWheel :=
  if taskID = "" then (some .invalidParam, w)
  else
    match w.lookup cfg taskID with
    | none => (some .taskNotFound, w)
    | some n =>
      if (w.heap n).paused then (none, w)
      else (none, w.setNode n { w.heap n with paused := true })

/-- `ResumeTask`: the next run is counted from now, in the slot the node is
in. -/
def resumeTask (cfg : Config) (w : TimeWheel) (taskID : String) (now : Time) :
    Option Err × TimeWheel :=
  if taskID = "" then (some .invalidParam, w)
  else
    match w.lookup cfg taskID with
    | none => (some .taskNotFound, w)
    | some n =>
      if (w.heap n).paused = false then (none, w)
      else
        let delay := match (w.heap n).task with
          | some task => if task.interval > 0 then task.interval else Duration.millisecond
          | none => Duration.millisecond
        (none, w.setNode n { w.heap n with paused := false, runAt := now.add delay })

/-- The body of the loop of `ClearAllTasks` for one entry of the map. A node
that heads its list is only unlinked when its slot exists. -/
def clearTask (cfg : Config) (w : TimeWheel) (taskID : String) : TimeWheel :=
  match w.lookup cfg taskID with
  | none => w
  | some n =>
    let w := if (w.heap n).prev = none ∧ cfg.slotNum ≤ (w.heap n).slotIndex then
        match (w.heap n).next with
        | some m => w.setPrev m none
        | none => w
      else w.unlink n (w.heap n).slotIndex
    let w := w.cancelCtx (w.heap n).cancel
    let w := (w.setNode n (clearAlert (clearNode (w.heap n)))).poolPut n
    w.deleteEntry cfg taskID

/-- `ClearAllTasks`: the number of tasks cleared. `order` is the order in
which the maps are iterated; the IDs it leaves out come last. -/
def clearAllTasks (cfg : Config) (w : TimeWheel) (order : List String) (now : Time) :
    ℕ × TimeWheel :=
  let w' := (order ++ w.allIDs cfg).foldl (fun w id => w.clearTask cfg id) w
  ((w.allIDs cfg).length, { w' with
    taskCache := w'.taskCache.map (fun _ => newTaskCache 100000 now) })

/-! ## Executions -/

/-- `shouldRescheduleTask`. -/
def shouldRescheduleTask (node : TaskSlot) (taskInfo : TaskInfo) : Bool :=
  match taskInfo.mode with
  | .once => false
  | .fixedTimes => decide ((node.executed : ℤ) < taskInfo.times)
  | .repeated => true
  | .other _ => true

/-- `rescheduleTask`. -/
def rescheduleTask (cfg : Config) (w : TimeWheel) (n : NodeRef) (taskInfo : TaskInfo)
    (now : Time) (currentSlot : ℕ) : TimeWheel :=
  let newSlotIndex := slotIndexFor cfg.interval cfg.slotNum now taskInfo.interval
  let w := w.setNode n { w.heap n with runAt := now.add taskInfo.interval }
  if (w.heap n).slotIndex ≠ newSlotIndex then
    let w := (w.unlink n currentSlot).pushFront n newSlotIndex
    w.setNode n { w.heap n with slotIndex := newSlotIndex }
  else w

/-- The internal `removeTask`. -/
def removeTaskInternal (cfg : Config) (w : TimeWheel) (n : NodeRef) (taskInfo : TaskInfo)
    (currentSlot : ℕ) : TimeWheel :=
  let w := w.unlink n currentSlot
  let w := w.deleteEntry cfg taskInfo.id
  let w := w.cancelCtx (w.heap n).cancel
  let w := (w.setNode n (clearAlert (clearNode (w.heap n)))).poolPut n
  { w with taskCache := w.taskCache.map (fun cache => cacheDelete cache taskInfo.id) }

/-- `handleTaskSchedulingLocked`. -/
def handleTaskSchedulingLocked (cfg : Config) (w : TimeWheel) (n : NodeRef)
    (taskInfo : TaskInfo) (now : Time) (currentSlot : ℕ) : TimeWheel :=
  if (w.heap n).task = none then w
  else if shouldRescheduleTask (w.heap n) taskInfo then
    w.rescheduleTask cfg n taskInfo now currentSlot
  else w.removeTaskInternal cfg n taskInfo currentSlot

/-- `handleAlertStateLocked` on a node of the wheel. -/
def applyAlert (cfg : Config) (w : TimeWheel) (n : NodeRef) (taskInfo : TaskInfo)
    (result : AlarmResult) (now : Time) : TimeWheel :=
  let outcome := handleAlertStateLocked cfg.sinks (w.heap n) taskInfo result now
  { w.setNode n outcome.node with
    alertEvents := w.alertEvents ++ outcome.events
    counters :=
      { w.counters with totalAlertsFired := w.counters.totalAlertsFired + outcome.fired } }

/-- The section of `executeTask` under the shard lock. -/
def lockedSection (cfg : Config) (w : TimeWheel) (n : NodeRef) (taskInfo : TaskInfo)
    (result : AlarmResult) (now : Time) (currentSlot : ℕ) : TimeWheel :=
  (w.applyAlert cfg n taskInfo result now).handleTaskSchedulingLocked cfg n taskInfo now
    currentSlot

/-- `checkTaskState`: the task to execute, unless the node carries none or is
paused. -/
def checkTaskState (w : TimeWheel) (n : NodeRef) : Option Task :=
  if (w.heap n).paused then none else (w.heap n).task

/-- The checks of `runTask` before it invokes the function: the error it
returns without invoking it. Without a timeout a cancelled context is not
looked at. -/
def runTaskCheck (w : TimeWheel) (n : NodeRef) (taskInfo : TaskInfo) : Option Err :=
  match (w.heap n).ctx with
  | none => some (.wrap ("task " ++ taskInfo.id) .contextNil)
  | some c =>
    if taskInfo.timeout > 0 ∧ w.ctxDone c then
      some (.wrap ("task " ++ taskInfo.id) .contextCanceled)
    else none

/-- `updateTaskResult`, as `executeTask` calls it: the panic value it passes
is always nil, since a panic unwinds past the call. -/
def updateTaskResult (w : TimeWheel) (n : NodeRef) (result : AlarmResult) (err : Option Err) :
    TimeWheel :=
  let w := w.setNode n
    { w.heap n with executed := (w.heap n).executed + 1, lastResult := result }
  { w with
    counters :=
      { w.counters with
        totalTasksExecuted := w.counters.totalTasksExecuted + 1
        totalTasksFailed := w.counters.totalTasksFailed + (if err.isSome then 1 else 0) } }

/-- The comparison `tick` sorts the collected nodes by. -/
def runsBefore (w : TimeWheel) (a b : NodeRef) : Bool :=
  match (w.heap a).task, (w.heap b).task with
  | none, _ => false
  | some _, none => true
  | some s, some t => decide (s.priority < t.priority)

/-- `tick` up to the submission: the slot it handles, the due nodes it
collects, in priority order, and the wheel with its cursor moved on. -/
def tick (cfg : Config) (w : TimeWheel) (now : Time) : ℕ × List NodeRef × TimeWheel :=
  let current := tickSlot cfg.slotNum w.currentSlot
  let due := (w.slotNodes current).filter (fun n => isDue now (w.heap n).runAt)
  (current, due.insertionSort (fun a b => w.runsBefore b a = false),
    { w with currentSlot := w.currentSlot + 1 })

/-! ## Construction -/

/-- `New`, with the cache enabled or not and with the content of the store
that is configured. -/
def new (cacheEnabled : Bool) (store : Option (AList (fun _ : String => Task)))
    (now : Time) : TimeWheel where
  shards := fun _ => ∅
  slots := fun _ => none
  heap := fun _ => TaskSlot.zero
  nextNode := 0
  taskPool := []
  currentSlot := 0
  running := false
  ctx := 0
  ctxs := fun _ => ⟨none, false⟩
  nextCtx := 1
  taskCache := if cacheEnabled then some (newTaskCache 100000 now) else none
  taskStore := store
  alertEvents := []
  counters := ⟨0, 0, 0, 0, 0, 0, 0, 0⟩

/-- `Start` of a wheel that is not running. It panics when the interval is
below a millisecond. -/
def start (cfg : Config) (w : TimeWheel) (now : Time) : Option TimeWheel :=
  if w.running then some w
  else
    (initialSlot cfg.interval cfg.slotNum now).map
      (fun slot => { w with running := true, currentSlot := slot })

end TimeWheel

end Timewheel
