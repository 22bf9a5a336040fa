import Mathlib.Data.List.Sort
import Timewheel.Store

/-!
# Listings of the table

`List` reads one page of the rows that satisfy a query, newest first, and
`GetEnabled` all rows that are enabled. The mapper's part in this is the
parameter `GormFind`. What a query returns is said of one table
(`GormFind.Documented`): it lists the live rows that satisfy the conditions,
once each, in the order asked for, and a page of that list.

The order of rows that were created at the same time is left open, and so is
the order of a query without one. Different queries may answer differently in
this respect, which is why each answer comes with a list of its own.
-/

namespace Timewheel

/-! ## Queries -/

/-- `TaskQuery`; a nil pointer is `none`. An empty name is no condition. -/
structure TaskQuery where
  page : ℤ
  pageSize : ℤ
  name : String
  enabled : Option Bool
  paused : Option Bool
  priority : Option ℤ
  mode : Option ℤ
  alertState : Option ℤ

/-- A condition of a query. They are all meant at once. -/
inductive Condition where
  | nameLike (pattern : String)
  | enabled (b : Bool)
  | paused (b : Bool)
  | priority (p : ℤ)
  | mode (m : ℤ)
  | alertState (a : ℤ)

/-- The conditions `List` makes of a query. Each field gives one at most. -/
def TaskQuery.conditions (query : TaskQuery) : List Condition :=
  (if query.name ≠ "" then [.nameLike ("%" ++ query.name ++ "%")] else [])
    ++ (query.enabled.map Condition.enabled).toList
    ++ (query.paused.map Condition.paused).toList
    ++ (query.priority.map Condition.priority).toList
    ++ (query.mode.map Condition.mode).toList
    ++ (query.alertState.map Condition.alertState).toList

/-- The part of a result a query asks for. The limit is the size of the page. -/
structure PageOf where
  offset : ℤ
  limit : ℤ

/-! ## The mapper -/

/-- **The calls that read many rows.** `find` returns all rows or, newest first,
a page of them. The three are parameters of everything that lists. -/
structure GormFind where
  /-- The operator `LIKE` of the database. -/
  like : String → String → Bool
  count : TaskTable → List Condition → DbEnv → Except Err ℤ
  find : TaskTable → List Condition → Option PageOf → DbEnv → Except Err (List TaskModel)

/-- The row satisfies the condition. What `LIKE` matches is up to the database. -/
def Condition.holds (like : String → String → Bool) (row : TaskModel) : Condition → Bool
  | .nameLike pattern => like pattern row.name
  | .enabled b => row.enabled == b
  | .paused b => row.paused == b
  | .priority p => row.priority == p
  | .mode m => row.mode == m
  | .alertState a => row.alertState == a

/-- **The rows list the live rows** of `t` that satisfy the conditions, once
each. So two lists of this kind differ in their order only. -/
structure Lists (like : String → String → Bool) (t : TaskTable) (conds : List Condition)
    (rows : List TaskModel) : Prop where
  nodup : rows.Nodup
  mem : ∀ row, row ∈ rows ↔ t.live row.id = some row ∧ conds.all (Condition.holds like row) = true

/-- The rows come in the order in which they were created, the last one first.
Ties may come in any order. -/
def NewestFirst (rows : List TaskModel) : Prop :=
  rows.Pairwise (fun row row' => row'.createdAt ≤ row.createdAt)

/-- **What is documented of them**, for one table. Queries that fail return an
error and nothing else. -/
structure GormFind.Documented (f : GormFind) (t : TaskTable) : Prop where
  count_fault : ∀ conds env, env.fault = true → ∃ err, f.count t conds env = .error err
  find_fault : ∀ conds page env, env.fault = true → ∃ err, f.find t conds page env = .error err
  count_ok : ∀ conds env, env.fault = false →
    ∃ rows, Lists f.like t conds rows ∧ f.count t conds env = .ok rows.length
  find_all : ∀ conds env, env.fault = false →
    ∃ rows, Lists f.like t conds rows ∧ f.find t conds none env = .ok rows
  find_page : ∀ conds page env, env.fault = false → 0 ≤ page.offset → 0 < page.limit →
    ∃ rows, Lists f.like t conds rows ∧ NewestFirst rows
      ∧ f.find t conds (some page) env
        = .ok ((rows.drop page.offset.toNat).take page.limit.toNat)

/-! ### A mapper that is as documented -/

/-- The rows of a table in memory whose keys are known. The keys give an order. -/
def tableRows (keys : List String) (t : TaskTable) (conds : List Condition) : List TaskModel :=
  (keys.filterMap t.live).filter
    (fun row => conds.all (Condition.holds (fun pattern name => pattern == name) row))

/-- The mapper that does what is documented, on a table in memory. It shows that
what is documented can be met. -/
def tableFind (keys : List String) : GormFind where
  like := fun pattern name => pattern == name
  count := fun t conds env =>
    if env.fault then .error (.text "connection refused")
    else .ok (tableRows keys t conds).length
  find := fun t conds page env =>
    if env.fault then .error (.text "connection refused")
    else
      match page with
      | none => .ok (tableRows keys t conds)
      | some page =>
        .ok ((((tableRows keys t conds).insertionSort
          (fun row row' => row'.createdAt ≤ row.createdAt)).drop page.offset.toNat).take
            page.limit.toNat)

section Table

variable {keys : List String} {t : TaskTable}

/-- It lists the rows that it should, -/
theorem lists_tableRows (hkeys : keys.Nodup) (ht : t.Keyed) (hall : ∀ id, t id ≠ none → id ∈ keys)
    (conds : List Condition) : Lists (tableFind keys).like t conds (tableRows keys t conds) where
  nodup := by
    refine List.Nodup.filter _ (List.Nodup.filterMap (fun id id' row hid hid' => ?_) hkeys)
    have h := (TaskTable.live_eq_some.mp hid).1
    have h' := (TaskTable.live_eq_some.mp hid').1
    exact (ht id row h).symm.trans (ht id' row h')
  mem := fun row => by
    unfold tableRows
    rw [List.mem_filter, List.mem_filterMap]
    refine and_congr_left (fun _ => ⟨?_, fun hlive => ?_⟩)
    · rintro ⟨id, -, hlive⟩
      obtain rfl := ht id row (TaskTable.live_eq_some.mp hlive).1
      exact hlive
    · have hrow := (TaskTable.live_eq_some.mp hlive).1
      exact ⟨row.id, hall row.id (ne_of_eq_of_ne hrow (Option.some_ne_none row)), hlive⟩

/-- The order of the rows does not matter for what they list. So sorting them is
allowed. -/
theorem Lists.perm {like : String → String → Bool} {conds : List Condition}
    {rows rows' : List TaskModel} (h : Lists like t conds rows) (hperm : rows'.Perm rows) :
    Lists like t conds rows' :=
  ⟨hperm.nodup_iff.mpr h.nodup, fun row => hperm.mem_iff.trans (h.mem row)⟩

/-- and does what is documented, on every table with these keys. -/
theorem documented_tableFind (hkeys : keys.Nodup) (ht : t.Keyed)
    (hall : ∀ id, t id ≠ none → id ∈ keys) : (tableFind keys).Documented t where
  count_fault := fun _ _ h => ⟨_, if_pos h⟩
  find_fault := fun _ _ _ h => ⟨_, if_pos h⟩
  count_ok := fun conds env h =>
    ⟨_, lists_tableRows hkeys ht hall conds, if_neg (h ▸ Bool.false_ne_true)⟩
  find_all := fun conds env h =>
    ⟨_, lists_tableRows hkeys ht hall conds, if_neg (h ▸ Bool.false_ne_true)⟩
  find_page := fun conds page env h _ _ => by
    let newer : TaskModel → TaskModel → Prop := fun row row' => row'.createdAt ≤ row.createdAt
    have : Std.Total newer := ⟨fun row row' => (le_total row'.createdAt row.createdAt)⟩
    have : IsTrans TaskModel newer := ⟨fun _ _ _ h h' => le_trans h' h⟩
    refine ⟨(tableRows keys t conds).insertionSort newer,
      (lists_tableRows hkeys ht hall conds).perm (List.perm_insertionSort newer _),
      List.pairwise_insertionSort newer _, if_neg (h ▸ Bool.false_ne_true)⟩

end Table

/-! ## The repository -/

/-- `List`: the page and the total number. The total is that of the first query,
and the page that of the second. -/
def repoList (f : GormFind) (t : TaskTable) (query : TaskQuery) (countEnv findEnv : DbEnv) :
    Except Err (List TaskModel × ℤ) :=
  match f.count t query.conditions countEnv with
  | .error err => .error err
  | .ok total =>
    let offset := if query.page > 0 ∧ query.pageSize > 0 then (query.page - 1) * query.pageSize
      else 0
    match f.find t query.conditions (some ⟨offset, query.pageSize⟩) findEnv with
    | .error err => .error err
    | .ok tasks => .ok (tasks, total)

/-- `GetEnabled`. There is no limit on it. -/
def repoGetEnabled (f : GormFind) (t : TaskTable) (env : DbEnv) : Except Err (List TaskModel) :=
  f.find t [.enabled true] none env

section Succeeds

variable {f : GormFind} {t : TaskTable} {env : DbEnv} {rows : List TaskModel}

/-- The rows that `GetEnabled` returns are the live ones that are enabled, once
each. -/
theorem repoGetEnabled_ok (hf : f.Documented t) (h : repoGetEnabled f t env = .ok rows) :
    rows.Nodup ∧ ∀ row, row ∈ rows ↔ t.live row.id = some row ∧ row.enabled = true := by
  unfold repoGetEnabled at h
  cases hfault : env.fault with
  | true =>
    obtain ⟨err, herr⟩ := hf.find_fault [.enabled true] none env hfault
    exact (nomatch herr.symm.trans h)
  | false =>
    obtain ⟨rows', hlists, hok⟩ := hf.find_all [.enabled true] env hfault
    obtain rfl := Except.ok.inj (hok.symm.trans h)
    exact ⟨hlists.nodup, fun row => by simpa [Condition.holds] using hlists.mem row⟩

/-- What a page of `List` is a part of. The last page may be shorter
than the others. -/
theorem repoList_ok (hf : f.Documented t) {query : TaskQuery} {countEnv findEnv : DbEnv} {total : ℤ}
    (hpage : 0 < query.page) (hsize : 0 < query.pageSize)
    (h : repoList f t query countEnv findEnv = .ok (rows, total)) :
    ∃ all, Lists f.like t query.conditions all ∧ NewestFirst all
      ∧ rows = (all.drop ((query.page - 1) * query.pageSize).toNat).take query.pageSize.toNat := by
  unfold repoList at h
  cases hcount : f.count t query.conditions countEnv with
  | error err =>
    rw [hcount] at h
    cases h
  | ok n =>
    rw [hcount] at h
    dsimp only at h
    rw [if_pos ⟨hpage, hsize⟩] at h
    cases hfault : findEnv.fault with
    | true =>
      obtain ⟨err, herr⟩ := hf.find_fault query.conditions
        (some ⟨(query.page - 1) * query.pageSize, query.pageSize⟩) findEnv hfault
      rw [herr] at h
      cases h
    | false =>
      have hoffset : 0 ≤ (query.page - 1) * query.pageSize :=
        mul_nonneg (by omega) hsize.le
      obtain ⟨all, hlists, hnewest, hok⟩ := hf.find_page query.conditions
        ⟨(query.page - 1) * query.pageSize, query.pageSize⟩ findEnv hfault hoffset hsize
      rw [hok] at h
      exact ⟨all, hlists, hnewest, (congrArg Prod.fst (Except.ok.inj h)).symm⟩

end Succeeds

end Timewheel
