import Timewheel.Listing
import Timewheel.Mirror
import Timewheel.Steps

/-!
# Repair

`RepairInconsistentState` compares a listing of the table with a listing of the
wheels, by ID. It adds the rows of the one that are missing in the other,
unless they are paused, and then removes the tasks of the other that are
missing in the one. The paused flag of a node is not looked at, and the listing
of the table is one page of 10000 rows.

`repaired_iff` says when the two are consistent afterwards.

The two loops are described separately. The first adds rows with pairwise
different IDs, so each addition finds what the wheels held of its ID before
the loop (`addMissing_spec`). The second removes an ID as often as it is
listed, and an ID is listed once for each wheel that holds it, so nothing of
it is left (`removeOrphans_spec`, with `Held.size` to count by). `RepairsTo`
puts the two together, and what remains is to compare the result with what
consistency asks for.
-/

namespace Timewheel

open TimeWheel (AddEnv checkTask)
open MultiLevelTimeWheel

/-! ## The code -/

/-- `GetAllTasks` of one wheel. A node in the map has its task. The maps of the
shards one after another. -/
def TimeWheel.getAllTasks (cfg : Config) (w : TimeWheel) : List Task :=
  (List.range cfg.shardNum).flatMap
    (fun j => (w.shards j).entries.filterMap (fun entry => (w.heap entry.2).task))

/-- `GetAllTasks`. A task that is in two wheels is listed twice. -/
def MultiLevelTimeWheel.getAllTasks (m : MultiLevelTimeWheel) : List Task :=
  m.highPriorityTW.getAllTasks Level.high.config
    ++ m.normalPriorityTW.getAllTasks Level.normal.config
    ++ m.lowPriorityTW.getAllTasks Level.low.config

/-- What one repair leaves open: the accesses to the database, the order in
which the maps of the wheels are iterated, and what the wheel leaves open in the
addition of each ID. The order is any permutation. -/
structure RepairEnv where
  count : DbEnv
  find : DbEnv
  order : List Task → List Task
  order_perm : ∀ tasks, (order tasks).Perm tasks
  add : String → AddEnv

/-- The first loop: the rows that are missing in the wheels. An error is only
logged. An ID is missing if it was not listed before the loop. -/
def addMissing (twIDs : List String) (env : String → AddEnv) :
    List TaskModel → MultiLevelTimeWheel → List (String × Err) × MultiLevelTimeWheel
  | [], timeWheel => ([], timeWheel)
  | dbTask :: enabledTasks, timeWheel =>
    if !dbTask.paused && !decide (dbTask.id ∈ twIDs) then
      let (err, timeWheel) := addToTimeWheel timeWheel dbTask (env dbTask.id)
      let (logged, timeWheel) := addMissing twIDs env enabledTasks timeWheel
      (err.toList.map (fun err => (dbTask.id, err)) ++ logged, timeWheel)
    else addMissing twIDs env enabledTasks timeWheel

/-- The second loop: the tasks that are missing in the listing of the table.
Each entry of the listing is removed on its own. -/
def removeOrphans (dbIDs : List String) :
    List Task → MultiLevelTimeWheel → List (String × Err) × MultiLevelTimeWheel
  | [], timeWheel => ([], timeWheel)
  | twTask :: twTasks, timeWheel =>
    if twTask.id ∈ dbIDs then removeOrphans dbIDs twTasks timeWheel
    else
      let (err, timeWheel) := timeWheel.removeTask twTask.id
      let (logged, timeWheel) := removeOrphans dbIDs twTasks timeWheel
      (err.toList.map (fun err => (twTask.id, err)) ++ logged, timeWheel)

/-- The query for the enabled tasks. The limit on the page is what makes the
repair incomplete for larger tables. -/
def repairQuery : TaskQuery where
  page := 1
  pageSize := 10000
  name := ""
  enabled := some true
  paused := none
  priority := none
  mode := none
  alertState := none

/-- **`RepairInconsistentState`**: the error it returns, the errors it logs, and
the state it leaves. The table is only read. -/
def AtomicTaskService.repairInconsistentState (f : GormFind) (s : ServiceState)
    (env : RepairEnv) : Option Err × List (String × Err) × ServiceState :=
  match repoList f s.tasks repairQuery env.count env.find with
  | .error err => (some (.wrap "failed to get enabled tasks" err), [], s)
  | .ok (enabledTasks, _) =>
    let twTasks := env.order s.timeWheel.getAllTasks
    let (added, timeWheel) := addMissing (twTasks.map Task.id) env.add enabledTasks s.timeWheel
    let (removed, timeWheel) := removeOrphans (enabledTasks.map TaskModel.id) twTasks timeWheel
    (none, added ++ removed, { s with timeWheel := timeWheel })

/-! ## What the pools hand out -/

section Pool

variable {cfg : Config} {w : TimeWheel}

/-- Preparing a node for one call leaves what the pool hands out to another. The
pool is a set of nodes with flags, and one node is taken out of it. -/
theorem prepareNode_handsOutPaused (h : Entries cfg w) (t : Task) (env : AddEnv) {k : NodeRef}
    (hk : env.node ≠ some k) :
    (w.prepareNode cfg t env).2.handsOutPaused (some k) = w.handsOutPaused (some k) := by
  have hnew : ∀ node : TaskSlot, k ∈ w.taskPool →
      (Function.update (Function.update w.heap w.nextNode TaskSlot.zero) w.nextNode node k).paused
        = (w.heap k).paused := by
    intro node hmem
    have hne : k ≠ w.nextNode := (h.pool_lt k hmem).ne
    rw [Function.update_of_ne hne, Function.update_of_ne hne]
  have hsame : ∀ {p p' : List NodeRef} {node node' : TaskSlot}, (k ∈ p' ↔ k ∈ p) →
      (k ∈ p → node'.paused = node.paused) →
      (decide (k ∈ p') && node'.paused) = (decide (k ∈ p) && node.paused) := by
    intro p p' node node' hmem hpaused
    by_cases hp : k ∈ p
    · rw [hpaused hp, decide_eq_decide.mpr hmem]
    · rw [decide_eq_false hp, decide_eq_false (fun hp' => hp (hmem.mp hp'))]
      rfl
  unfold TimeWheel.prepareNode TimeWheel.poolGet
  cases hnode : env.node with
  | none => exact hsame Iff.rfl (hnew _)
  | some n =>
    have hkn : k ≠ n := fun heq => hk (by rw [hnode, heq])
    dsimp only
    by_cases hn : n ∈ w.taskPool
    · rw [if_pos hn]
      refine hsame (List.mem_erase_of_ne hkn) (fun _ => ?_)
      show (Function.update w.heap n _ k).paused = _
      rw [Function.update_of_ne hkn]
    · rw [if_neg hn]
      exact hsame Iff.rfl (hnew _)

/-- **So does `AddTask`**, if it succeeds. So the additions of a loop can be
judged by the pools as they were before it. -/
theorem addTask_handsOutPaused (h : Entries cfg w) (task : Option Task) (env : AddEnv)
    (hok : (w.addTask cfg task env).1 = none) {choice : Option NodeRef}
    (hchoice : choice = env.node → choice = none) :
    (w.addTask cfg task env).2.handsOutPaused choice = w.handsOutPaused choice := by
  cases choice with
  | none => rfl
  | some k =>
    have hk : env.node ≠ some k := fun heq => (nomatch hchoice heq.symm)
    unfold TimeWheel.addTask at hok ⊢
    cases task with
    | none => rfl
    | some t =>
      dsimp only at hok ⊢
      cases hcheck : checkTask t with
      | error err => rfl
      | ok t' =>
        rw [hcheck] at hok
        dsimp only at hok ⊢
        by_cases hrun : w.running = false
        · rw [if_pos hrun]
        · rw [if_neg hrun] at hok ⊢
          have hpool := prepareNode_handsOutPaused h t' env hk
          generalize w.prepareNode cfg t' env = g at hpool hok ⊢
          obtain ⟨n, w₁⟩ := g
          dsimp only at hpool hok ⊢
          cases hid : w₁.lookup cfg t'.id with
          | some m =>
            rw [hid] at hok
            cases hok
          | none =>
            have hlink := (relinked_insertOrdered w₁ n t'.priority (w₁.heap n).slotIndex).sameEntries
            rw [← hpool]
            unfold TimeWheel.linkTask
            show (decide (k ∈ (w₁.insertOrdered n t'.priority (w₁.heap n).slotIndex).taskPool)
              && ((w₁.insertOrdered n t'.priority (w₁.heap n).slotIndex).heap k).paused) = _
            rw [hlink.taskPool, show ((w₁.insertOrdered n t'.priority
              (w₁.heap n).slotIndex).heap k).paused = (w₁.heap k).paused from
                congrArg Prod.snd (hlink.held k)]
            rfl

end Pool

variable {m m' : MultiLevelTimeWheel} {id : String} {row : TaskModel} {e e' : AddEnv}

/-- The same in the three wheels. Only rows of the same level share a pool. -/
theorem addToTimeWheel_addsPaused (hm : Keyed m) (hok : (addToTimeWheel m row e).1 = none)
    (row' : TaskModel) (hnode : levelOf row'.priority = levelOf row.priority →
      e'.node = e.node → e'.node = none) :
    (addToTimeWheel m row e).2.addsPaused row'.toTask e' = m.addsPaused row'.toTask e' := by
  obtain ⟨-, hrun, -⟩ := (addTask_spec hm row.toTask e).2.2.mp hok
  unfold addToTimeWheel at hok ⊢
  rw [addTask_eq m row.toTask e hrun] at hok ⊢
  cases haccept : acceptTask row.toTask with
  | error err => rfl
  | ok t' =>
    rw [haccept] at hok
    unfold addsPaused
    dsimp only at hok ⊢
    by_cases hl : levelOf row'.toTask.priority = levelOf row.toTask.priority
    · rw [hl, wheel_setWheel_self]
      exact addTask_handsOutPaused (hm _) _ e hok (hnode hl)
    · rw [wheel_setWheel_of_ne m hl]

/-! ## How much is held -/

namespace Held

/-- In how many wheels something is held. There are three. -/
def size (h : Held) : ℕ := levels.countP (fun l => (h l).isSome)

/-- Nothing is held exactly if the size is zero. -/
theorem size_eq_zero {h : Held} : h.size = 0 ↔ ∀ l, h l = none := by
  unfold size
  rw [List.countP_eq_zero]
  refine ⟨fun hall l => ?_, fun hall l _ => by simp [hall l]⟩
  simpa using hall l (by cases l <;> simp [levels])

/-- A removal takes one away. `RemoveTask` stops at the first wheel that has the
ID. -/
theorem size_remove {h : Held} (hne : h.reached ≠ none) : h.remove.size + 1 = h.size := by
  obtain ⟨l, hl⟩ := Option.ne_none_iff_exists'.mp hne
  obtain ⟨r, hr⟩ := of_reached hl
  rw [remove_of_reached hl]
  unfold size levels
  simp only [List.countP_cons, List.countP_nil]
  cases l with
  | high => simp [hr]
  | normal =>
    simp [hr]
    ring
  | low =>
    simp [hr]
    ring

end Held

/-! ## What the listing of the wheels lists -/

/-- The IDs the wheels list. With repetitions. -/
def MultiLevelTimeWheel.listedIDs (m : MultiLevelTimeWheel) : List String :=
  m.getAllTasks.map Task.id

/-- The task of an entry is listed. Every shard is gone through. -/
theorem mem_getAllTasks {cfg : Config} {w : TimeWheel} (h : Entries cfg w)
    (hid : w.registry cfg id ≠ none) : id ∈ (w.getAllTasks cfg).map Task.id := by
  rw [Ne, h.registry_eq_none] at hid
  obtain ⟨n, hn⟩ := Option.ne_none_iff_exists'.mp hid
  obtain ⟨t, ht, rfl⟩ := h.task id n hn
  refine List.mem_map.mpr ⟨t, List.mem_flatMap.mpr ⟨TimeWheel.shardOf cfg t.id, ?_, ?_⟩, rfl⟩
  · exact List.mem_range.mpr (Nat.mod_lt _ cfg.shardNum_pos)
  · exact List.mem_filterMap.mpr ⟨⟨t.id, n⟩, AList.mem_lookup_iff.mp hn, ht⟩

/-- **Every registration is listed**, once for each wheel. So the second loop
comes to each of them. -/
theorem size_le_count (hm : Keyed m) (id : String) :
    (m.held id).size ≤ m.listedIDs.count id := by
  have hlevel : ∀ l, (if (m.held id l).isSome = true then 1 else 0)
      ≤ (((m.wheel l).getAllTasks l.config).map Task.id).count id := by
    intro l
    by_cases hl : (m.held id l).isSome = true
    · rw [if_pos hl]
      exact List.count_pos_iff.mpr (mem_getAllTasks (hm l) (Option.isSome_iff_ne_none.mp hl))
    · rw [if_neg hl]
      exact Nat.zero_le _
  unfold listedIDs getAllTasks Held.size levels
  simp only [List.map_append, List.count_append, List.countP_cons, List.countP_nil]
  have hhigh := hlevel .high
  have hnormal := hlevel .normal
  have hlow := hlevel .low
  simp only [wheel] at hhigh hnormal hlow
  linarith

/-! ## The two loops -/

/-- The pools hand out each node once. Nodes that are new are not counted. -/
def OnceEach (env : String → AddEnv) (rows : List TaskModel) : Prop :=
  rows.Pairwise (fun row row' => levelOf row'.priority = levelOf row.priority →
    (env row'.id).node = (env row.id).node → (env row'.id).node = none)

/-- An addition that logs nothing. It touches one ID. -/
theorem addToTimeWheel_ok (hm : Keyed m) (hok : (addToTimeWheel m row e).1 = none) :
    Touches m row.id (addToTimeWheel m row e).2
      ∧ (addToTimeWheel m row e).2.held row.id = (m.held row.id).put (levelOf row.priority)
        ⟨normalised row.toTask, m.addsPaused row.toTask e⟩ := by
  obtain ⟨htouch, hheld, herr⟩ := addTask_spec hm row.toTask e
  rw [if_pos (herr.mp hok)] at hheld
  exact ⟨htouch, hheld⟩

/-- **What the first loop does**, if it logs nothing. By induction on the rows.
Since the IDs differ, what is held of a later row is still what it was, and
since the nodes differ, so is what the pool has for it. -/
theorem addMissing_spec {twIDs : List String} {env : String → AddEnv} {rows : List TaskModel}
    (hm : Keyed m) (hids : (rows.map TaskModel.id).Nodup) (honce : OnceEach env rows)
    (hok : (addMissing twIDs env rows m).1 = []) :
    Keyed (addMissing twIDs env rows m).2
      ∧ (∀ row ∈ rows, row.paused = false → row.id ∉ twIDs →
        (addMissing twIDs env rows m).2.held row.id = (m.held row.id).put (levelOf row.priority)
          ⟨normalised row.toTask, m.addsPaused row.toTask (env row.id)⟩)
      ∧ ∀ id, (∀ row ∈ rows, row.id = id → row.paused = true ∨ id ∈ twIDs) →
        (addMissing twIDs env rows m).2.held id = m.held id := by
  induction rows generalizing m with
  | nil => exact ⟨hm, fun row hrow => absurd hrow List.not_mem_nil, fun _ _ => rfl⟩
  | cons row rows ih =>
    obtain ⟨hfresh, hids⟩ := List.nodup_cons.mp hids
    obtain ⟨hfirst, honce⟩ := List.pairwise_cons.mp honce
    have hne : ∀ row' ∈ rows, row'.id ≠ row.id := fun row' hrow' heq =>
      hfresh (heq ▸ List.mem_map_of_mem hrow')
    unfold addMissing at hok ⊢
    -- the row is added, or passed over since it is paused or in a wheel already
    by_cases hadd : (!row.paused && !decide (row.id ∈ twIDs)) = true
    · obtain ⟨hp, hid⟩ : row.paused = false ∧ row.id ∉ twIDs := by simpa using hadd
      rw [if_pos hadd] at hok ⊢
      dsimp only at hok ⊢
      obtain ⟨herr, hok⟩ := List.append_eq_nil_iff.mp hok
      have herr : (addToTimeWheel m row (env row.id)).1 = none := by simpa using herr
      obtain ⟨htouch, hheld⟩ := addToTimeWheel_ok hm herr
      obtain ⟨hkeyed, hadded, hframe⟩ := ih htouch.keyed hids honce hok
      refine ⟨hkeyed, fun row' hrow' hp' hid' => ?_, fun id hrows => ?_⟩
      · rcases List.mem_cons.mp hrow' with rfl | hrow'
        · rw [hframe row'.id (fun row hrow heq => absurd heq (hne row hrow)), hheld]
        · rw [hadded row' hrow' hp' hid', htouch.frame row'.id (hne row' hrow'),
            addToTimeWheel_addsPaused hm herr row' (hfirst row' hrow')]
      · have hid' : id ≠ row.id := by
          rintro rfl
          rcases hrows row List.mem_cons_self rfl with h | h
          · exact Bool.false_ne_true (hp.symm.trans h)
          · exact hid h
        rw [hframe id (fun row' hrow' => hrows row' (List.mem_cons_of_mem row hrow')),
          htouch.frame id hid']
    · rw [if_neg hadd] at hok ⊢
      obtain ⟨hkeyed, hadded, hframe⟩ := ih hm hids honce hok
      refine ⟨hkeyed, fun row' hrow' hp' hid' => ?_, fun id hrows =>
        hframe id (fun row' hrow' => hrows row' (List.mem_cons_of_mem row hrow'))⟩
      rcases List.mem_cons.mp hrow' with rfl | hrow'
      · exact absurd (by simp [hp', hid']) hadd
      · exact hadded row' hrow' hp' hid'

/-- **What the second loop does**, if it logs nothing: each time an ID that is
not kept comes up, one registration of it goes. The sum stays the same: what is
taken away has been gone over in the listing. -/
theorem removeOrphans_spec {dbIDs : List String} {tasks : List Task} (hm : Keyed m)
    (hok : (removeOrphans dbIDs tasks m).1 = []) :
    (∀ id ∈ dbIDs, (removeOrphans dbIDs tasks m).2.held id = m.held id)
      ∧ ∀ id, id ∉ dbIDs → ((removeOrphans dbIDs tasks m).2.held id).size
        + (tasks.map Task.id).count id = (m.held id).size := by
  induction tasks generalizing m with
  | nil => exact ⟨fun _ _ => rfl, fun _ _ => rfl⟩
  | cons task tasks ih =>
    unfold removeOrphans at hok ⊢
    by_cases hmem : task.id ∈ dbIDs
    · rw [if_pos hmem] at hok ⊢
      obtain ⟨hkept, hgone⟩ := ih hm hok
      refine ⟨hkept, fun id hid => ?_⟩
      have hne : task.id ≠ id := fun heq => hid (heq ▸ hmem)
      rw [List.map_cons, List.count_cons_of_ne hne]
      exact hgone id hid
    · rw [if_neg hmem] at hok ⊢
      dsimp only at hok ⊢
      obtain ⟨herr, hok⟩ := List.append_eq_nil_iff.mp hok
      have herr : (m.removeTask task.id).1 = none := by simpa using herr
      obtain ⟨htouch, hheld, hreached⟩ := removeTask_spec hm task.id
      obtain ⟨hkept, hgone⟩ := ih htouch.keyed hok
      refine ⟨fun id hid => ?_, fun id hid => ?_⟩
      · have hne : id ≠ task.id := fun heq => hmem (heq ▸ hid)
        rw [hkept id hid, htouch.frame id hne]
      · have hsize := hgone id hid
        by_cases heq : id = task.id
        · subst heq
          have hone := Held.size_remove (hreached.mp herr)
          rw [hheld] at hsize
          rw [List.map_cons, List.count_cons_self]
          omega
        · rw [htouch.frame id heq] at hsize
          rw [List.map_cons, List.count_cons_of_ne (Ne.symm heq)]
          exact hsize

/-! ## What a repair does -/

variable {f : GormFind} {s : ServiceState} {env : RepairEnv} {r : List TaskModel × ℤ}

/-- The rows the repair works from: the first 10000 that are enabled. Empty if
the listing fails. -/
def ServiceState.enabledPage (s : ServiceState) (f : GormFind) (env : RepairEnv) :
    List TaskModel :=
  match repoList f s.tasks repairQuery env.count env.find with
  | .ok (enabledTasks, _) => enabledTasks
  | .error _ => []

/-- What is held is listed. By the count above. -/
theorem reached_eq_none_of_not_listed (hm : Keyed m) (hid : id ∉ m.listedIDs) (l : Level) :
    m.held id l = none := by
  have hsize := size_le_count hm id
  rw [List.count_eq_zero.mpr hid] at hsize
  exact Held.size_eq_zero.mp (Nat.le_zero.mp hsize) l

/-- The page holds enabled live rows, once each. The query asks for no more. -/
theorem mem_enabledPage (hf : f.Documented s.tasks) (hrow : row ∈ s.enabledPage f env) :
    s.tasks.live row.id = some row ∧ row.enabled = true := by
  unfold ServiceState.enabledPage at hrow
  cases hlist : repoList f s.tasks repairQuery env.count env.find with
  | error err =>
    rw [hlist] at hrow
    exact absurd hrow List.not_mem_nil
  | ok r =>
    obtain ⟨rows, total⟩ := r
    rw [hlist] at hrow
    obtain ⟨all, hlists, -, rfl⟩ := repoList_ok hf (by decide) (by decide) hlist
    have hmem := (hlists.mem row).mp (List.mem_of_mem_drop (List.mem_of_mem_take hrow))
    simpa [TaskQuery.conditions, repairQuery, Condition.holds] using hmem

/-- A table has one row for each ID. -/
theorem nodup_enabledPage (hf : f.Documented s.tasks) :
    ((s.enabledPage f env).map TaskModel.id).Nodup := by
  have hrows : (s.enabledPage f env).Nodup := by
    unfold ServiceState.enabledPage
    cases hlist : repoList f s.tasks repairQuery env.count env.find with
    | error err => exact List.nodup_nil
    | ok r =>
      obtain ⟨rows, total⟩ := r
      obtain ⟨all, hlists, -, rfl⟩ := repoList_ok hf (by decide) (by decide) hlist
      exact (hlists.nodup.sublist (List.drop_sublist _ _)).sublist (List.take_sublist _ _)
  refine List.Nodup.map_on (fun row hrow row' hrow' hid => ?_) hrows
  have h := (mem_enabledPage hf hrow).1
  rw [hid] at h
  exact Option.some.inj (h.symm.trans (mem_enabledPage hf hrow').1)

/-- **A page that is not full** holds every enabled live row. Paging has cut
nothing off then. -/
theorem mem_enabledPage_of_length_lt (hf : f.Documented s.tasks) (ht : s.tasks.Keyed)
    (hlist : repoList f s.tasks repairQuery env.count env.find = .ok r)
    (hlength : (s.enabledPage f env).length < 10000) (hlive : s.tasks.live id = some row)
    (he : row.enabled = true) : row ∈ s.enabledPage f env := by
  unfold ServiceState.enabledPage at hlength ⊢
  obtain ⟨rows, total⟩ := r
  rw [hlist] at hlength ⊢
  dsimp only at hlength ⊢
  obtain ⟨all, hlists, -, hrows⟩ := repoList_ok hf (by decide) (by decide) hlist
  have hrows : rows = all.take 10000 := hrows
  rw [hrows, List.length_take] at hlength
  rw [hrows, List.take_of_length_le (by omega), hlists.mem,
    ht id row (TaskTable.live_eq_some.mp hlive).1]
  exact ⟨hlive, by simp [TaskQuery.conditions, repairQuery, Condition.holds, he]⟩

/-- **What a repair leaves**, if every call succeeds. Of each ID: what the first
loop has added, what was left as it was, and what the second loop has removed. -/
structure RepairsTo (s : ServiceState) (page : List TaskModel) (add : String → AddEnv)
    (s' : ServiceState) : Prop where
  tasks : s'.tasks = s.tasks
  added : ∀ row ∈ page, row.paused = false → row.id ∉ s.timeWheel.listedIDs →
    s'.timeWheel.held row.id = (s.timeWheel.held row.id).put (levelOf row.priority)
      ⟨normalised row.toTask, s.timeWheel.addsPaused row.toTask (add row.id)⟩
  kept : ∀ row ∈ page, row.paused = true ∨ row.id ∈ s.timeWheel.listedIDs →
    s'.timeWheel.held row.id = s.timeWheel.held row.id
  removed : ∀ id, (∀ row ∈ page, row.id ≠ id) → ∀ l, s'.timeWheel.held id l = none

/-- **The two loops together** do this. -/
theorem repairsTo (hf : f.Documented s.tasks) (hm : s.timeWheel.Keyed)
    (honce : OnceEach env.add (s.enabledPage f env))
    (herr : (AtomicTaskService.repairInconsistentState f s env).1 = none)
    (hlog : (AtomicTaskService.repairInconsistentState f s env).2.1 = []) :
    RepairsTo s (s.enabledPage f env) env.add
      (AtomicTaskService.repairInconsistentState f s env).2.2 := by
  have hids : ((s.enabledPage f env).map TaskModel.id).Nodup := nodup_enabledPage hf
  unfold ServiceState.enabledPage at hids honce ⊢
  unfold AtomicTaskService.repairInconsistentState at herr hlog ⊢
  cases hlist : repoList f s.tasks repairQuery env.count env.find with
  | error err =>
    rw [hlist] at herr
    cases herr
  | ok r =>
    obtain ⟨rows, total⟩ := r
    rw [hlist] at hids honce hlog
    dsimp only at hids honce hlog ⊢
    have hlisted : ∀ id, id ∈ (env.order s.timeWheel.getAllTasks).map Task.id
        ↔ id ∈ s.timeWheel.listedIDs := fun id =>
      ((env.order_perm s.timeWheel.getAllTasks).map Task.id).mem_iff
    have hcount : ∀ id, ((env.order s.timeWheel.getAllTasks).map Task.id).count id
        = s.timeWheel.listedIDs.count id := fun id =>
      ((env.order_perm s.timeWheel.getAllTasks).map Task.id).count_eq id
    obtain ⟨hadd, hremove⟩ := List.append_eq_nil_iff.mp hlog
    obtain ⟨hkeyed, hadded, hframe⟩ := addMissing_spec hm hids honce hadd
    obtain ⟨hkept, hgone⟩ := removeOrphans_spec hkeyed hremove
    refine ⟨rfl, fun row hrow hp hid => ?_, fun row hrow hor => ?_, fun id hrows l => ?_⟩
    · rw [hkept row.id (List.mem_map_of_mem hrow)]
      exact hadded row hrow hp (fun h => hid ((hlisted row.id).mp h))
    · rw [hkept row.id (List.mem_map_of_mem hrow)]
      refine hframe row.id (fun row' hrow' heq => ?_)
      have hrow_eq : row' = row := List.inj_on_of_nodup_map hids hrow' hrow heq
      rw [hrow_eq, hlisted]
      exact hor
    · have hid : id ∉ rows.map TaskModel.id := fun hmem => by
        obtain ⟨row, hrow, heq⟩ := List.mem_map.mp hmem
        exact hrows row hrow heq
      have hsame := hframe id (fun row hrow heq => absurd heq (hrows row hrow))
      have hsize := hgone id hid
      have hle := size_le_count hm id
      rw [hsame, hcount] at hsize
      refine Held.size_eq_zero.mp ?_ l
      change ((removeOrphans _ _ _).2.held id).size = 0
      omega

/-! ## Consistency -/

/-- **The table and the wheels are consistent** after a repair of `s` that left
`s'`. Each field is one
thing a repair is for, or one thing it must not do. -/
structure Repaired (s s' : ServiceState) : Prop where
  /-- Every enabled row that is not paused has a node that is not paused. -/
  scheduled : ∀ id row, s'.tasks.live id = some row → row.enabled = true → row.paused = false →
    ∃ l r, s'.timeWheel.held id l = some r ∧ r.paused = false
  /-- No node is left without an enabled row. -/
  orphans : ∀ id l, s'.timeWheel.held id l ≠ none →
    ∃ row, s'.tasks.live id = some row ∧ row.enabled = true
  /-- The nodes of a paused row are paused. -/
  paused : ∀ id row, s'.tasks.live id = some row → row.paused = true →
    ∀ l r, s'.timeWheel.held id l = some r → r.paused = true
  /-- The nodes of enabled rows are still there. -/
  kept : ∀ id row, s.tasks.live id = some row → row.enabled = true → ∀ l,
    s.timeWheel.held id l ≠ none → s'.timeWheel.held id l = s.timeWheel.held id l

/-- **What a repair needs** of the state it starts from. Each clause is about
one way in which the code misses: the page, a node that is paused while its row
is not, a row that is paused while its node is not, and a paused node from the
pool. -/
structure Repairable (f : GormFind) (s : ServiceState) (env : RepairEnv) : Prop where
  /-- The page holds the enabled rows that are not paused or have a node. -/
  paged : ∀ id row, s.tasks.live id = some row → row.enabled = true →
    (row.paused = false ∨ (s.timeWheel.held id).reached ≠ none) → row ∈ s.enabledPage f env
  /-- A row that is not paused has no paused node only. -/
  listed : ∀ id row, s.tasks.live id = some row → row.enabled = true → row.paused = false →
    id ∈ s.timeWheel.listedIDs → ∃ l r, s.timeWheel.held id l = some r ∧ r.paused = false
  /-- A row that is paused has paused nodes only. -/
  paused : ∀ id row, s.tasks.live id = some row → row.enabled = true → row.paused = true →
    ∀ l r, s.timeWheel.held id l = some r → r.paused = true
  /-- A row that is added gets a node that is not paused. -/
  pool : ∀ id row, s.tasks.live id = some row → row.enabled = true → row.paused = false →
    id ∉ s.timeWheel.listedIDs → s.timeWheel.addsPaused row.toTask (env.add id) = false

/-- The node that is added is all there is. So the flag it was drawn with
decides. -/
theorem exists_unpaused_put {h : Held} (hh : ∀ l, h l = none) (l : Level) (t : Task) (b : Bool) :
    (∃ l' r, h.put l ⟨t, b⟩ l' = some r ∧ r.paused = false) ↔ b = false := by
  constructor
  · rintro ⟨l', r, hr, hp⟩
    obtain rfl := (Held.exists_put_eq hh).mp ⟨l', hr⟩
    exact hp
  · rintro rfl
    exact ⟨l, ⟨t, false⟩, Held.put_self h l _, rfl⟩

/-- **Enough**: each promise follows from one clause. -/
theorem Repairable.repaired {s' : ServiceState} (ht : s.tasks.Keyed) (hm : s.timeWheel.Keyed)
    (hf : f.Documented s.tasks) (h : Repairable f s env)
    (hs' : RepairsTo s (s.enabledPage f env) env.add s') : Repaired s s' := by
  have hid : ∀ {id row}, s.tasks.live id = some row → row.id = id := fun hlive =>
    ht _ _ (TaskTable.live_eq_some.mp hlive).1
  refine ⟨fun id row hlive he hp => ?_, fun id l hne => ?_, fun id row hlive hp l r hr => ?_,
    fun id row hlive he l hne => ?_⟩
  · rw [hs'.tasks] at hlive
    obtain rfl := hid hlive
    have hpage := h.paged row.id row hlive he (Or.inl hp)
    by_cases hlisted : row.id ∈ s.timeWheel.listedIDs
    · rw [hs'.kept row hpage (Or.inr hlisted)]
      exact h.listed row.id row hlive he hp hlisted
    · rw [hs'.added row hpage hp hlisted]
      exact (exists_unpaused_put (reached_eq_none_of_not_listed hm hlisted) _ _ _).mpr
        (h.pool row.id row hlive he hp hlisted)
  · by_contra hcon
    refine hne (hs'.removed id (fun row hrow heq => hcon ⟨row, ?_, ?_⟩) l)
    · rw [hs'.tasks, ← heq]
      exact (mem_enabledPage hf hrow).1
    · exact (mem_enabledPage hf hrow).2
  · rw [hs'.tasks] at hlive
    obtain rfl := hid hlive
    by_cases hpage : row ∈ s.enabledPage f env
    · rw [hs'.kept row hpage (Or.inl hp)] at hr
      exact h.paused row.id row hlive (mem_enabledPage hf hpage).2 hp l r hr
    · have hnone := hs'.removed row.id (fun row' hrow' heq => hpage ?_) l
      · exact absurd (hnone.symm.trans hr) (Option.some_ne_none r).symm
      · have hlive' := (mem_enabledPage hf hrow').1
        rw [heq] at hlive'
        exact Option.some.inj (hlive'.symm.trans hlive) ▸ hrow'
  · obtain rfl := hid hlive
    have hreached : (s.timeWheel.held row.id).reached ≠ none :=
      fun hnone => hne (Held.reached_eq_none.mp hnone l)
    have hpage := h.paged row.id row hlive he (Or.inr hreached)
    have hlisted : row.id ∈ s.timeWheel.listedIDs := by
      by_contra hnot
      exact hne (reached_eq_none_of_not_listed hm hnot l)
    rw [hs'.kept row hpage (Or.inr hlisted)]

/-- **And needed**: where a clause fails, the repair leaves the inconsistency it
is about. -/
theorem Repaired.repairable {s' : ServiceState} (ht : s.tasks.Keyed) (hm : s.timeWheel.Keyed)
    (hf : f.Documented s.tasks) (hs' : RepairsTo s (s.enabledPage f env) env.add s')
    (h : Repaired s s') : Repairable f s env := by
  have hid : ∀ {id row}, s.tasks.live id = some row → row.id = id := fun hlive =>
    ht _ _ (TaskTable.live_eq_some.mp hlive).1
  -- a row that is not on the page has lost its nodes
  have hlost : ∀ row, s.tasks.live row.id = some row → row ∉ s.enabledPage f env →
      ∀ l, s'.timeWheel.held row.id l = none := fun row hlive hpage =>
    hs'.removed row.id (fun row' hrow' heq => hpage (by
      have hlive' := (mem_enabledPage hf hrow').1
      rw [heq] at hlive'
      exact Option.some.inj (hlive'.symm.trans hlive) ▸ hrow'))
  have hpaged : ∀ row, s.tasks.live row.id = some row → row.enabled = true →
      (row.paused = false ∨ (s.timeWheel.held row.id).reached ≠ none) →
        row ∈ s.enabledPage f env := by
    intro row hlive he hor
    by_contra hpage
    have hnone := hlost row hlive hpage
    rcases hor with hp | hreached
    · obtain ⟨l, r, hr, -⟩ := h.scheduled row.id row (hs'.tasks ▸ hlive) he hp
      exact absurd ((hnone l).symm.trans hr) (Option.some_ne_none r).symm
    · obtain ⟨l, hl⟩ := Option.ne_none_iff_exists'.mp hreached
      obtain ⟨r, hr⟩ := Held.of_reached hl
      have hkept := h.kept row.id row hlive he l (ne_of_eq_of_ne hr (Option.some_ne_none r))
      exact absurd (((hnone l).symm.trans hkept).trans hr) (Option.some_ne_none r).symm
  refine ⟨fun id row hlive he hor => ?_, fun id row hlive he hp hlisted => ?_,
    fun id row hlive he hp l r hr => ?_, fun id row hlive he hp hlisted => ?_⟩
  · obtain rfl := hid hlive
    exact hpaged row hlive he hor
  · obtain rfl := hid hlive
    rw [← hs'.kept row (hpaged row hlive he (Or.inl hp)) (Or.inr hlisted)]
    exact h.scheduled row.id row (hs'.tasks ▸ hlive) he hp
  · obtain rfl := hid hlive
    have hreached : (s.timeWheel.held row.id).reached ≠ none := fun hnone =>
      absurd ((Held.reached_eq_none.mp hnone l).symm.trans hr) (Option.some_ne_none r).symm
    rw [← hs'.kept row (hpaged row hlive he (Or.inr hreached)) (Or.inl hp)] at hr
    exact h.paused row.id row (hs'.tasks ▸ hlive) hp l r hr
  · obtain rfl := hid hlive
    have hsched := h.scheduled row.id row (hs'.tasks ▸ hlive) he hp
    rw [hs'.added row (hpaged row hlive he (Or.inl hp)) hp hlisted] at hsched
    exact (exists_unpaused_put (reached_eq_none_of_not_listed hm hlisted) _ _ _).mp hsched

/-- **Exactly the states that a repair makes consistent**, if all the calls it
makes succeed. No assumption is made on what the wheels hold: nodes without
rows, several nodes for one ID and nodes in the wrong wheel are all included. -/
theorem repaired_iff (hf : f.Documented s.tasks) (ht : s.tasks.Keyed) (hm : s.timeWheel.Keyed)
    (honce : OnceEach env.add (s.enabledPage f env))
    (herr : (AtomicTaskService.repairInconsistentState f s env).1 = none)
    (hlog : (AtomicTaskService.repairInconsistentState f s env).2.1 = []) :
    Repaired s (AtomicTaskService.repairInconsistentState f s env).2.2 ↔ Repairable f s env := by
  have hs' := repairsTo hf hm honce herr hlog
  exact ⟨fun h => h.repairable ht hm hf hs', fun h => h.repaired ht hm hf hs'⟩

/-! ### Two states -/

/-- A repair that meets no failure, with new nodes. -/
def calmRepairEnv : RepairEnv where
  count := (calmEnv 0).get
  find := (calmEnv 0).get
  order := fun tasks => tasks
  order_perm := fun _ => .refl _
  add := fun _ => newNodeEnv

/-- The row of a task that runs every second. -/
def everySecondRow (id : String) : TaskModel :=
  (everySecondRequest id).toTaskModel.created (Time.ofMilli 0)

/-- The table with that row. -/
def oneRowTable (id : String) : TaskTable :=
  Function.update (fun _ => none) id (some (everySecondRow id))

/-- The row has its own ID as its key, -/
theorem keyed_oneRowTable (id : String) : (oneRowTable id).Keyed :=
  TaskTable.keyed_empty.update rfl

/-- and the table in memory is as documented. -/
theorem documented_oneRow (id : String) : (tableFind [id]).Documented (oneRowTable id) := by
  refine documented_tableFind (List.nodup_singleton id) (keyed_oneRowTable id) (fun id' hne => ?_)
  by_contra hid
  exact hne (Function.update_of_ne (fun h : id' = id => hid (List.mem_singleton.mpr h)) _ _)

/-- The wheels with the task of that row. -/
def oneTaskWheel (id : String) : MultiLevelTimeWheel :=
  (addToTimeWheel freshMultiLevelWheel (everySecondRow id) newNodeEnv).2

/-- It has been started, and one task added. -/
theorem keyed_oneTaskWheel (id : String) : (oneTaskWheel id).Keyed :=
  (addTask_spec (keyed_of_start start_freshMultiLevelWheel) _ _).1.keyed

/-- The live rows of that table. -/
theorem live_oneRowTable {id id' : String} (h : (oneRowTable id).live id' = some row) :
    id' = id ∧ row = everySecondRow id := by
  obtain ⟨hrow, -⟩ := TaskTable.live_eq_some.mp h
  unfold oneRowTable at hrow
  by_cases hid : id' = id
  · rw [hid, Function.update_self] at hrow
    exact ⟨hid, (Option.some.inj hrow).symm⟩
  · rw [Function.update_of_ne hid] at hrow
    cases hrow

/-- A task that is missing is added, and one that nothing asks for removed. -/
theorem repaired_of_missing :
    Repaired ⟨oneRowTable "a", oneTaskWheel "x", []⟩
      (AtomicTaskService.repairInconsistentState (tableFind ["a"])
        ⟨oneRowTable "a", oneTaskWheel "x", []⟩ calmRepairEnv).2.2 := by
  have hpage : ServiceState.enabledPage ⟨oneRowTable "a", oneTaskWheel "x", []⟩ (tableFind ["a"])
      calmRepairEnv = [everySecondRow "a"] := by decide +kernel
  refine (repaired_iff (documented_oneRow "a") (keyed_oneRowTable "a") (keyed_oneTaskWheel "x")
    ?_ (by decide +kernel) (by decide +kernel)).mpr ⟨?_, ?_, ?_, ?_⟩
  · rw [hpage]
    exact List.pairwise_singleton _ _
  all_goals
    intro id row hlive he
    obtain ⟨rfl, rfl⟩ := live_oneRowTable hlive
  · intro _
    rw [hpage]
    exact List.mem_singleton_self _
  · intro _ hlisted
    exact absurd hlisted (by decide +kernel)
  · intro hp
    exact absurd hp (by decide +kernel)
  · intro _ _
    rfl

/-- **A paused node counts as a node**: the row is enabled and not paused, its
task does not run, and the repair leaves it at that. -/
theorem not_repaired_of_paused_node :
    let s : ServiceState := ⟨oneRowTable "a", ((oneTaskWheel "a").pauseTask "a").2, []⟩
    let r := AtomicTaskService.repairInconsistentState (tableFind ["a"]) s calmRepairEnv
    r.1 = none ∧ r.2.1 = [] ∧ ¬ Repaired s r.2.2 := by
  refine ⟨by decide +kernel, by decide +kernel, fun h => ?_⟩
  obtain ⟨l, r, hr, hp⟩ := h.scheduled "a" (everySecondRow "a") rfl rfl rfl
  have hpaused : ∀ l, ∀ r ∈ (AtomicTaskService.repairInconsistentState (tableFind ["a"])
      ⟨oneRowTable "a", ((oneTaskWheel "a").pauseTask "a").2, []⟩
        calmRepairEnv).2.2.timeWheel.held "a" l, r.paused = true := by decide +kernel
  exact Bool.false_ne_true (hp.symm.trans (hpaused l r hr))

end Timewheel
