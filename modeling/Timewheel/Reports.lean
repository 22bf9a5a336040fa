import Timewheel.Counters
import Timewheel.Repair
import Timewheel.Traces

/-!
# The reports agree

`GetAllTasks`, `GetTasksByState`, `GetMetrics`, `Stats`, `Health` and the status
report each go over the wheel by themselves: most of them over the shards of the
map, the status report also along the lists of the slots. In a wheel that is in
order they see the same tasks (`reports_agree`) – those that are registered, each
of them once.

`GetTasksByState` leaves out the tasks that are paused, and `GetMetrics` does not,
so their counts for one state differ by the paused tasks.

None of them is simple to trust by looking at it. The loops run over the
shards with their own counters, skip what is nil, and treat modes and states
in `switch` statements; the status report walks the linked lists. Each is
written here as the loop it is, and then shown to be a count over one list,
the nodes in the map (`mapNodes`). What they have in common is then the
invariant: these nodes are the nodes in use, and the lists of the slots are a
permutation of them.
-/

namespace Timewheel

open DList TimeWheel Scheduler Simulation

/-! ## The code -/

/-- `Health`, without the times. The components are fixed in the code. -/
structure HealthStatus where
  status : String
  running : Bool
  taskCount : ℕ
  components : List (String × String)
  deriving DecidableEq, Repr

/-- What `printStatus` counts, without the time the wheel has been running. The
log line prints them. -/
structure StatusReport where
  slotNum : ℕ
  currentSlot : ℕ
  totalTasks : ℕ
  executedTasks : ℕ
  activeSlots : ℕ
  totalInSlots : ℕ
  /-- `modeCounts`, with 0 for the modes that are missing. -/
  once : ℕ
  fixedTimes : ℕ
  repeated : ℕ
  unknown : ℕ
  deriving DecidableEq, Repr

namespace TimeWheel

variable (cfg : Config) (w : TimeWheel)

/-- The nodes in the map, in the order in which the loops meet them. The order
within a shard is that of a Go map, and nothing below depends on it. -/
def mapNodes : List NodeRef :=
  (List.range cfg.shardNum).flatMap (fun j => (w.shards j).entries.map Sigma.snd)

/-- `GetTasksByState`. A node in the map has its task. So a nil task is not
looked at. -/
def getTasksByState (state : AlertState) : List Task :=
  (List.range cfg.shardNum).flatMap (fun j => (w.shards j).entries.filterMap (fun entry =>
    if (w.heap entry.2).alertState = state ∧ (w.heap entry.2).paused = false then
      (w.heap entry.2).task
    else none))

/-- `Stats`: the tasks in all shards, and how often tasks have been executed. -/
def stats : ℕ × ℕ :=
  ((List.range cfg.shardNum).foldl (fun totalTasks j => totalTasks + (w.shards j).keys.length) 0,
    w.counters.totalTasksExecuted)

/-- `Health`: the wheel is healthy if it is running. -/
def health : HealthStatus where
  status := if w.running then "healthy" else "unhealthy"
  running := w.running
  taskCount := (w.stats cfg).1
  components := [("pool", "healthy"), ("cache", "healthy"), ("storage", "healthy")]

/-- How many nodes in the map have a task of such a mode. This is one of the
counters of the loop in `printStatus`. -/
def modeCount (p : TaskMode → Bool) : ℕ :=
  (List.range cfg.shardNum).foldl (fun count j => (w.shards j).entries.foldl (fun count entry =>
    if (w.heap entry.2).task.any (fun task => p task.mode) then count + 1 else count) count) 0

/-- `printStatus`: what it counts over the shards, and over the slots that have
a list. -/
def printStatus : StatusReport where
  slotNum := cfg.slotNum
  currentSlot := w.currentSlot
  totalTasks :=
    (List.range cfg.shardNum).foldl (fun totalTasks j => totalTasks + (w.shards j).keys.length) 0
  executedTasks := w.counters.totalTasksExecuted
  activeSlots := (List.range cfg.slotNum).foldl (fun activeSlots i =>
    if (w.slots i).isSome then activeSlots + 1 else activeSlots) 0
  totalInSlots := (List.range cfg.slotNum).foldl (fun totalInSlots i =>
    if (w.slots i).isSome then totalInSlots + (w.slotNodes i).length else totalInSlots) 0
  once := w.modeCount cfg (fun mode => decide (mode = .once))
  fixedTimes := w.modeCount cfg (fun mode => decide (mode = .fixedTimes))
  repeated := w.modeCount cfg (fun mode => decide (mode = .repeated))
  unknown := w.modeCount cfg (fun mode =>
    decide (mode ≠ .once ∧ mode ≠ .fixedTimes ∧ mode ≠ .repeated))

end TimeWheel

/-! ## The nodes in the map -/

section MapNodes

variable {cfg : Config} {w : TimeWheel} {lists : ℕ → List NodeRef} {n : NodeRef}

/-- The loops over the entries of the shards are loops over their nodes. So a
report over the shards can be read as one over a list. -/
theorem filterMap_mapNodes {β : Type*} (cfg : Config) (w : TimeWheel) (f : NodeRef → Option β) :
    (List.range cfg.shardNum).flatMap (fun j =>
        (w.shards j).entries.filterMap (fun entry => f entry.2))
      = (w.mapNodes cfg).filterMap f := by
  unfold mapNodes
  rw [List.filterMap_flatMap]
  refine List.flatMap_congr (fun j _ => ?_)
  rw [List.filterMap_map]
  rfl

/-- In a wheel that is in order the nodes in the map are the nodes in use. The
entries of the map and the registered nodes are the same. -/
theorem Inv.mem_mapNodes (h : Inv cfg w lists) :
    n ∈ w.mapNodes cfg ↔ ∃ i c t, Used cfg w lists n i c t := by
  constructor
  · intro hn
    obtain ⟨j, -, hn⟩ := List.mem_flatMap.mp hn
    obtain ⟨entry, hentry, rfl⟩ := List.mem_map.mp hn
    have hlookup : (w.shards j).lookup entry.1 = some entry.2 := AList.mem_lookup_iff.mpr hentry
    rcases h.node entry.2 with hu | hf
    · exact hu
    · exact absurd hlookup (hf.no_entry j entry.1)
  · rintro ⟨i, c, t, hu⟩
    have hlookup : (w.shards (shardOf cfg t.id)).lookup t.id = some n :=
      (hu.entry _ _).mpr ⟨rfl, rfl⟩
    refine List.mem_flatMap.mpr ⟨shardOf cfg t.id, ?_, ?_⟩
    · exact List.mem_range.mpr (Nat.mod_lt _ cfg.shardNum_pos)
    · exact List.mem_map.mpr ⟨⟨t.id, n⟩, AList.mem_lookup_iff.mp hlookup, rfl⟩

/-- The IDs in the map are those of the tasks of its nodes. They are in the same
order. -/
theorem Inv.map_mapNodes (h : Inv cfg w lists) :
    (w.mapNodes cfg).map (fun n => (w.heap n).task.elim "" Task.id) = w.allIDs cfg := by
  unfold mapNodes allIDs
  rw [List.map_flatMap]
  refine List.flatMap_congr (fun j _ => ?_)
  rw [List.map_map]
  refine List.map_congr_left (fun entry hentry => ?_)
  have hlookup : (w.shards j).lookup entry.1 = some entry.2 := AList.mem_lookup_iff.mpr hentry
  obtain ⟨-, t, ht, hid⟩ := h.wellFormed.entry j entry.1 entry.2 hlookup
  show (w.heap entry.2).task.elim "" Task.id = entry.1
  rw [ht]
  exact hid

/-- No node is there twice, since no ID is, -/
theorem Inv.nodup_mapNodes (h : Inv cfg w lists) : (w.mapNodes cfg).Nodup :=
  .of_map _ (h.map_mapNodes ▸ h.nodup_allIDs)

/-- and so there are as many nodes as IDs. -/
theorem Inv.length_mapNodes (h : Inv cfg w lists) :
    (w.mapNodes cfg).length = (w.allIDs cfg).length := by
  rw [← h.map_mapNodes, List.length_map]

/-- The tasks are those of the nodes in the map. The loop of `GetAllTasks`, as a
list. -/
theorem getAllTasks_eq (cfg : Config) (w : TimeWheel) :
    w.getAllTasks cfg = (w.mapNodes cfg).filterMap (fun n => (w.heap n).task) :=
  filterMap_mapNodes cfg w (fun n => (w.heap n).task)

/-- It lists each ID once. -/
theorem Inv.map_getAllTasks (h : Inv cfg w lists) :
    (w.getAllTasks cfg).map Task.id = w.allIDs cfg := by
  rw [getAllTasks_eq, List.map_filterMap, ← h.map_mapNodes, ← List.filterMap_eq_map]
  refine List.filterMap_congr (fun n hn => ?_)
  obtain ⟨i, c, t, hu⟩ := h.mem_mapNodes.mp hn
  show (w.heap n).task.map Task.id = some ((w.heap n).task.elim "" Task.id)
  rw [hu.task_eq]
  rfl

/-- **The slots hold the nodes in the map**, each once. This is where the walk
along the lists and the walk over the map meet. -/
theorem Inv.perm_mapNodes (h : Inv cfg w lists) :
    ((List.range cfg.slotNum).flatMap w.slotNodes).Perm (w.mapNodes cfg) := by
  have hnodup : ((List.range cfg.slotNum).flatMap w.slotNodes).Nodup := by
    refine List.nodup_flatMap.mpr ⟨fun i _ => ?_, ?_⟩
    · rw [h.slotNodes_eq]
      exact (h.family.chain i).nodup
    · refine List.nodup_range.imp (fun {i j} hne n hi hj => hne ?_)
      rw [h.slotNodes_eq] at hi hj
      exact h.family.disjoint i j n hi hj
  refine (List.perm_ext_iff_of_nodup hnodup h.nodup_mapNodes).mpr (fun n => ?_)
  rw [h.mem_mapNodes]
  constructor
  · intro hn
    obtain ⟨i, -, hn⟩ := List.mem_flatMap.mp hn
    rw [h.slotNodes_eq] at hn
    obtain ⟨c, t, hu⟩ := h.used_of_mem hn
    exact ⟨i, c, t, hu⟩
  · rintro ⟨i, c, t, hu⟩
    refine List.mem_flatMap.mpr ⟨i, List.mem_range.mpr hu.slot_lt, ?_⟩
    rw [h.slotNodes_eq]
    exact hu.mem

end MapNodes

/-! ## What the loops add up -/

section Loops

variable {cfg : Config} {w : TimeWheel} {lists : ℕ → List NodeRef}

/-- A loop that adds up is a sum. The counters of the code start at zero. -/
theorem foldl_add_eq_sum {α : Type*} (f : α → ℕ) (xs : List α) (n : ℕ) :
    xs.foldl (fun sum x => sum + f x) n = n + (xs.map f).sum := by
  induction xs generalizing n with
  | nil => rfl
  | cons x xs ih => rw [List.foldl_cons, ih, List.map_cons, List.sum_cons, Nat.add_assoc]

/-- A loop that counts is a count. The same for one that goes up by one. -/
theorem foldl_ite_eq_countP {α : Type*} (p : α → Bool) (xs : List α) (n : ℕ) :
    xs.foldl (fun count x => if p x then count + 1 else count) n = n + xs.countP p := by
  induction xs generalizing n with
  | nil => rfl
  | cons x xs ih =>
    rw [List.foldl_cons, ih, List.countP_cons]
    split_ifs
    · omega
    · rfl

/-- `Stats` counts the IDs. -/
theorem stats_fst (cfg : Config) (w : TimeWheel) : (w.stats cfg).1 = (w.allIDs cfg).length := by
  unfold stats allIDs
  rw [List.length_flatMap, foldl_add_eq_sum, Nat.zero_add]

/-- The nodes of a mode. Two nested loops, as one count. -/
theorem modeCount_eq (cfg : Config) (w : TimeWheel) (p : TaskMode → Bool) :
    w.modeCount cfg p
      = (w.mapNodes cfg).countP (fun n => (w.heap n).task.any (fun task => p task.mode)) := by
  have hinner : ∀ count j, (w.shards j).entries.foldl (fun count entry =>
        if (w.heap entry.2).task.any (fun task => p task.mode) then count + 1 else count) count
      = count + ((w.shards j).entries.map Sigma.snd).countP
        (fun n => (w.heap n).task.any (fun task => p task.mode)) := by
    intro count j
    rw [List.countP_map]
    exact foldl_ite_eq_countP _ _ count
  unfold modeCount mapNodes
  simp only [hinner]
  rw [foldl_add_eq_sum, Nat.zero_add, List.countP_flatMap]
  rfl

/-- Classes that every element is in one of. So counts by class add up to the
number of all. -/
theorem sum_countP_eq_length {α : Type*} (ps : List (α → Bool)) {xs : List α}
    (h : ∀ x ∈ xs, ps.countP (fun p => p x) = 1) :
    (ps.map (fun p => xs.countP p)).sum = xs.length := by
  have hcons : ∀ (x : α) (xs : List α), (ps.map (fun p => (x :: xs).countP p)).sum
      = (ps.map (fun p => xs.countP p)).sum + ps.countP (fun p => p x) := by
    intro x xs
    clear h
    induction ps with
    | nil => rfl
    | cons p ps ih =>
      rw [List.map_cons, List.sum_cons, ih, List.map_cons, List.sum_cons, List.countP_cons,
        List.countP_cons]
      omega
  induction xs with
  | nil => exact List.sum_eq_zero (fun n hn => by
      obtain ⟨p, -, rfl⟩ := List.mem_map.mp hn
      rfl)
  | cons x xs ih =>
    rw [hcons, ih (fun y hy => h y (List.mem_cons_of_mem x hy)), h x List.mem_cons_self]
    rfl

/-- The cases of the `switch` over the mode. The last one is the default. -/
def modeCases : List (TaskMode → Bool) :=
  [fun mode => decide (mode = .once), fun mode => decide (mode = .fixedTimes),
    fun mode => decide (mode = .repeated),
    fun mode => decide (mode ≠ .once ∧ mode ≠ .fixedTimes ∧ mode ≠ .repeated)]

/-- Each mode is in exactly one of them. -/
theorem countP_modeCases (mode : TaskMode) : modeCases.countP (fun p => p mode) = 1 := by
  cases mode with
  | repeated => rfl
  | once => rfl
  | fixedTimes => rfl
  | other n => simp [modeCases]

/-- The modes of the report are all the modes there are. So no task is missing
from the report, and none is there twice. -/
theorem modeCounts_add (h : Inv cfg w lists) :
    (w.printStatus cfg).once + (w.printStatus cfg).fixedTimes + (w.printStatus cfg).repeated
      + (w.printStatus cfg).unknown = (w.allIDs cfg).length := by
  have hone : ∀ n ∈ w.mapNodes cfg, (modeCases.map (fun p (n : NodeRef) =>
      (w.heap n).task.any (fun task => p task.mode))).countP (fun p => p n) = 1 := by
    intro n hn
    obtain ⟨i, c, t, hu⟩ := h.mem_mapNodes.mp hn
    rw [List.countP_map, ← countP_modeCases t.mode]
    refine congrArg (modeCases.countP ·) (funext (fun p => ?_))
    show (w.heap n).task.any (fun task => p task.mode) = p t.mode
    rw [hu.task_eq]
    rfl
  rw [← h.length_mapNodes, ← sum_countP_eq_length _ hone]
  unfold printStatus modeCases
  dsimp only
  rw [modeCount_eq, modeCount_eq, modeCount_eq, modeCount_eq]
  simp only [List.map_cons, List.map_nil, List.sum_cons, List.sum_nil]
  omega

/-- What is in the slots. Slots without a list add nothing, and the others their
length. -/
theorem totalInSlots_eq (h : Inv cfg w lists) :
    (w.printStatus cfg).totalInSlots = (w.allIDs cfg).length := by
  have hslot : ∀ totalInSlots i, (if (w.slots i).isSome then
        totalInSlots + (w.slotNodes i).length else totalInSlots)
      = totalInSlots + (w.slotNodes i).length := by
    intro totalInSlots i
    cases hhead : w.slots i with
    | some n => rfl
    | none =>
      have hnil : w.slotNodes i = [] := by
        unfold slotNodes
        rw [hhead]
        cases w.nextNode with
        | zero => rfl
        | succ n => rfl
      rw [hnil]
      rfl
  unfold printStatus
  simp only [hslot]
  rw [foldl_add_eq_sum, Nat.zero_add, ← h.length_mapNodes, ← h.perm_mapNodes.length_eq,
    List.length_flatMap]

/-- The node has the state and is not paused. This is the condition of
`GetTasksByState`. -/
def TimeWheel.showsState (w : TimeWheel) (state : AlertState) (n : NodeRef) : Bool :=
  decide ((w.heap n).alertState = state ∧ (w.heap n).paused = false)

/-- The loop of `GetTasksByState`, as a list, -/
theorem getTasksByState_eq (cfg : Config) (w : TimeWheel) (state : AlertState) :
    w.getTasksByState cfg state = (w.mapNodes cfg).filterMap (fun n =>
      if (w.heap n).alertState = state ∧ (w.heap n).paused = false then (w.heap n).task
      else none) :=
  filterMap_mapNodes cfg w (fun n =>
    if (w.heap n).alertState = state ∧ (w.heap n).paused = false then (w.heap n).task else none)

/-- and its length as a count. -/
theorem length_getTasksByState (h : Inv cfg w lists) (state : AlertState) :
    (w.getTasksByState cfg state).length = (w.mapNodes cfg).countP (w.showsState state) := by
  rw [getTasksByState_eq, List.length_filterMap_eq_countP]
  refine List.countP_congr (fun n hn => ?_)
  obtain ⟨i, c, t, hu⟩ := h.mem_mapNodes.mp hn
  unfold showsState
  rw [hu.task_eq, decide_eq_true_iff]
  split_ifs with hstate
  · exact ⟨fun _ => hstate, fun _ => rfl⟩
  · exact ⟨fun hfalse => absurd hfalse Bool.false_ne_true, fun hs => absurd hs hstate⟩

/-- What `GetMetrics` counts as paused. The loop has four counters, of which
this is one. -/
theorem pausedTasks_getMetrics (cfg : Config) (w : TimeWheel) :
    (w.getMetrics cfg).pausedTasks = (w.mapNodes cfg).countP (fun n => (w.heap n).paused) := by
  have hnode : ∀ (t : Tally) (node : TaskSlot),
      (t.addNode node).pausedTasks = t.pausedTasks + node.paused.toNat := by
    intro t node
    unfold Tally.addNode
    cases node.paused <;> cases node.alertState <;> rfl
  have hnodes : ∀ (entries : List (Sigma fun _ : String => NodeRef)) (t : Tally),
      (entries.foldl (fun t e => t.addNode (w.heap e.2)) t).pausedTasks
        = t.pausedTasks + (entries.map Sigma.snd).countP (fun n => (w.heap n).paused) := by
    intro entries
    induction entries with
    | nil => exact fun t => rfl
    | cons e entries ih =>
      intro t
      rw [List.foldl_cons, ih, hnode, List.map_cons, List.countP_cons]
      cases (w.heap e.2).paused with
      | true => simp; omega
      | false => simp
  have hshards : ∀ k, ((List.range k).foldl (Tally.addShard w) Tally.zero).pausedTasks
      = ((List.range k).flatMap (fun j => (w.shards j).entries.map Sigma.snd)).countP
        (fun n => (w.heap n).paused) := by
    intro k
    induction k with
    | zero => rfl
    | succ k ih =>
      rw [List.range_succ, List.foldl_append, List.flatMap_append, List.countP_append, ← ih]
      simp only [List.flatMap_cons, List.flatMap_nil, List.append_nil]
      exact hnodes _ _
  exact hshards cfg.shardNum

/-- A task is paused, or listed under the state of its alert. The three states
are all there are. -/
theorem states_add (h : Inv cfg w lists) :
    (w.getTasksByState cfg .pending).length + (w.getTasksByState cfg .firing).length
      + (w.getTasksByState cfg .resolved).length + (w.getMetrics cfg).pausedTasks
      = (w.allIDs cfg).length := by
  have hone : ∀ n ∈ w.mapNodes cfg, [w.showsState .pending, w.showsState .firing,
      w.showsState .resolved, fun n => (w.heap n).paused].countP (fun p => p n) = 1 := by
    intro n _
    unfold showsState
    cases hpaused : (w.heap n).paused with
    | true => simp [hpaused]
    | false => cases hstate : (w.heap n).alertState <;> simp [hpaused, hstate]
  rw [length_getTasksByState h, length_getTasksByState h, length_getTasksByState h,
    pausedTasks_getMetrics, ← h.length_mapNodes, ← sum_countP_eq_length _ hone]
  simp only [List.map_cons, List.map_nil, List.sum_cons, List.sum_nil]
  omega

end Loops

/-! ## They agree -/

/-- **The reports agree** on the tasks that are registered. The registered tasks
are what the timers of the wheel say, so the reports are not only compared with
each other. -/
structure ReportsAgree (cfg : Config) (w : TimeWheel) : Prop where
  nodup : ((w.getAllTasks cfg).map Task.id).Nodup
  tasks : ∀ t, t ∈ w.getAllTasks cfg ↔ ∃ x, w.timer cfg t.id = some x ∧ x.task = t
  byState : ∀ state t, t ∈ w.getTasksByState cfg state
    ↔ ∃ x, w.timer cfg t.id = some x ∧ x.task = t ∧ x.alertState = state ∧ x.paused = false
  states : (w.getTasksByState cfg .pending).length + (w.getTasksByState cfg .firing).length
    + (w.getTasksByState cfg .resolved).length + (w.getMetrics cfg).pausedTasks
    = (w.getAllTasks cfg).length
  metrics : (w.getMetrics cfg).totalTasks = (w.getAllTasks cfg).length
  stats : w.stats cfg = ((w.getAllTasks cfg).length, (w.getMetrics cfg).executed)
  health : (w.health cfg).taskCount = (w.getAllTasks cfg).length
  status : (w.printStatus cfg).totalTasks = (w.getAllTasks cfg).length
  slots : (w.printStatus cfg).totalInSlots = (w.getAllTasks cfg).length
  modes : (w.printStatus cfg).once + (w.printStatus cfg).fixedTimes
    + (w.printStatus cfg).repeated + (w.printStatus cfg).unknown = (w.getAllTasks cfg).length

/-- A wheel that is in order is enough for it. -/
theorem Inv.reportsAgree {cfg : Config} {w : TimeWheel} {lists : ℕ → List NodeRef}
    (h : Inv cfg w lists) : ReportsAgree cfg w := by
  have hlength : (w.getAllTasks cfg).length = (w.allIDs cfg).length := by
    rw [← h.map_getAllTasks, List.length_map]
  exact {
    nodup := h.map_getAllTasks ▸ h.nodup_allIDs
    tasks := fun t => by
      rw [getAllTasks_eq, List.mem_filterMap]
      constructor
      · rintro ⟨n, hn, ht⟩
        obtain ⟨i, c, t', hu⟩ := h.mem_mapNodes.mp hn
        obtain rfl := Option.some.inj (hu.task_eq.symm.trans ht)
        exact ⟨_, hu.timer_eq, rfl⟩
      · rintro ⟨x, hx, rfl⟩
        obtain ⟨n, i, c, t, hu, -, rfl⟩ := h.timer_eq_some_iff.mp hx
        exact ⟨n, h.mem_mapNodes.mpr ⟨i, c, t, hu⟩, hu.task_eq⟩
    byState := fun state t => by
      rw [getTasksByState_eq, List.mem_filterMap]
      constructor
      · rintro ⟨n, hn, ht⟩
        obtain ⟨i, c, t', hu⟩ := h.mem_mapNodes.mp hn
        split_ifs at ht with hstate
        obtain rfl := Option.some.inj (hu.task_eq.symm.trans ht)
        exact ⟨_, hu.timer_eq, rfl, hstate.1, hstate.2⟩
      · rintro ⟨x, hx, rfl, hstate, hpaused⟩
        obtain ⟨n, i, c, t, hu, -, rfl⟩ := h.timer_eq_some_iff.mp hx
        exact ⟨n, h.mem_mapNodes.mpr ⟨i, c, t, hu⟩,
          (if_pos ⟨hstate, hpaused⟩).trans hu.task_eq⟩
    states := (states_add h).trans hlength.symm
    metrics := (totalTasks_getMetrics cfg w).trans ((taskCount_eq_length cfg w).trans hlength.symm)
    stats := Prod.ext ((stats_fst cfg w).trans hlength.symm) rfl
    health := (stats_fst cfg w).trans hlength.symm
    status := (stats_fst cfg w).trans hlength.symm
    slots := (totalInSlots_eq h).trans hlength.symm
    modes := (modeCounts_add h).trans hlength.symm }

/-- **The reports agree in every state a careful run leads to.** For every run
of calls, ticks and executions in which the nodes stay with their registrations.
No two reports are made in different states here, as they may be in the code:
each is a function of the wheel it looks at. -/
theorem reports_agree {cfg : Config} {w : TimeWheel} {s : Scheduler} (h : Started cfg w)
    {as : List Action}
    (hcareful : Machine.Each (step cfg) (fun s a _ => Careful cfg s a) (ofWheel w) as)
    (hrun : Machine.run (step cfg) (ofWheel w) as = some s) : ReportsAgree cfg s.wheel := by
  obtain ⟨lists, tt, -, hs⟩ := represented_of_careful h hcareful hrun
  exact hs.mirrors.inv.reportsAgree

/-- Of two tasks one is paused. -/
def twoTasks : List Action :=
  [addAt 0 "a" .repeated 10 none, addAt 0 "b" .once 20 none] ++ ticksAt [10]
    ++ [.start 0, .pauseTask "b"]

/-- Both tasks are listed, one of them under its state. -/
theorem reports_agree_of_twoTasks : ∃ s,
    Machine.run (step fourSlots) (ofWheel fourSlotWheel) twoTasks = some s
      ∧ (s.wheel.getAllTasks fourSlots).length = 2
      ∧ (s.wheel.getTasksByState fourSlots .pending).length = 1
      ∧ ReportsAgree fourSlots s.wheel := by
  have hrun : (Machine.run (step fourSlots) (ofWheel fourSlotWheel) twoTasks).map (fun s =>
      ((s.wheel.getAllTasks fourSlots).length,
        (s.wheel.getTasksByState fourSlots .pending).length)) = some (2, 1) := by decide +kernel
  obtain ⟨s, hs, heq⟩ := Option.map_eq_some_iff.mp hrun
  obtain ⟨hall, hpending⟩ : (s.wheel.getAllTasks fourSlots).length = 2
      ∧ (s.wheel.getTasksByState fourSlots .pending).length = 1 := by simpa using heq
  exact ⟨s, hs, hall, hpending, reports_agree started_fourSlotWheel (by decide +kernel) hs⟩

end Timewheel
