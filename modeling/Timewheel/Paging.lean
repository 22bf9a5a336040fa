import Timewheel.Created
import Timewheel.Lib.Windows
import Timewheel.Listing

/-!
# The pages of a listing

A client that lists tasks reads page after page, each with a query of its own.
The rows of a page are ordered by `created_at` alone, so rows that were created
at the same time come in whatever order the database finds them in, and it need
not be the same one for the next page.

`pagesPartition_iff` says what this leaves of paging: the pages are sure to list
every row once exactly if no two rows of the same time are on different pages.

The database is free to choose the order of ties anew for each query. So the
pages are windows of different lists, which agree up to ties; and windows of
two such lists hold the same rows exactly if no tie goes across their edges.
This is a fact about lists and is proved as such in the library
(`Windows.CutsNoTie`).
-/

namespace Timewheel

/-! ## The services -/

/-- `TaskListResponse`. -/
structure TaskListResponse where
  list : List TaskResponse
  total : ℤ
  page : ℤ
  size : ℤ

/-- A query with the defaults and the limit of `List`. A size above the limit is
cut down to it. -/
def TaskQuery.clamped (query : TaskQuery) : TaskQuery :=
  { query with
    page := if query.page ≤ 0 then 1 else query.page
    pageSize :=
      let pageSize := if query.pageSize ≤ 0 then 20 else query.pageSize
      if pageSize > 100 then 100 else pageSize }

/-- What happens during the two queries of a listing. The count and the page are
two queries. -/
structure ListEnv where
  count : DbEnv
  find : DbEnv

/-- Neither query fails. -/
structure ListEnv.Faultless (env : ListEnv) : Prop where
  count : env.count.fault = false
  find : env.find.fault = false

/-- `List`, of either service. The total is counted separately. -/
def TaskService.list (f : GormFind) (t : TaskTable) (query : TaskQuery) (env : ListEnv) :
    Except Err TaskListResponse :=
  let query := query.clamped
  match repoList f t query env.count env.find with
  | .error err => .error err
  | .ok (tasks, total) =>
    .ok ⟨tasks.map TaskModel.toTaskResponse, total, query.page, query.pageSize⟩

/-- The lists of the pages `1, …, n`, one after the other. It stops at the first
error. -/
def TaskService.listPages (f : GormFind) (t : TaskTable) (query : TaskQuery)
    (env : ℕ → ListEnv) : ℕ → Except Err (List TaskResponse)
  | 0 => .ok []
  | n + 1 =>
    match listPages f t query env n with
    | .error err => .error err
    | .ok resps =>
      match TaskService.list f t { query with page := n + 1 } (env n) with
      | .error err => .error err
      | .ok resp => .ok (resps ++ resp.list)

/-! ## What is expected -/

/-- The number of pages. Rounded up. -/
def pageCount (total size : ℕ) : ℕ := (total + size - 1) / size

/-- A page within the count begins before the end. -/
theorem lt_pageCount_iff {total size k : ℕ} (hsize : 0 < size) :
    k < pageCount total size ↔ k * size < total := by
  rw [pageCount, Nat.lt_div_iff_mul_lt hsize]
  have hmod : total + size - 1 - (size - 1) = total := by omega
  omega

/-- **The pages of a listing part the rows**: one after the other, they hold the
response to every row that is live and satisfies the conditions, once each, and
nothing else. The order within the whole is up to the database. -/
def PagesPartition (f : GormFind) (t : TaskTable) (query : TaskQuery) (env : ℕ → ListEnv) : Prop :=
  ∃ rows, Lists f.like t query.conditions rows
    ∧ TaskService.listPages f t query env (pageCount rows.length query.pageSize.toNat)
      = .ok (rows.map TaskModel.toTaskResponse)

/-- **No two rows of the same time are on different pages.** It is about the
table and the size of the pages alone. -/
def TiesShareAPage (like : String → String → Bool) (t : TaskTable) (query : TaskQuery) : Prop :=
  ∀ rows, Lists like t query.conditions rows → NewestFirst rows →
    ∀ k, Windows.CutsNoTie TaskModel.createdAt rows (k * query.pageSize.toNat)

/-! ## One page -/

section Page

variable {f : GormFind} {t : TaskTable} {query : TaskQuery} {env : ListEnv}
  {conds : List Condition} {rows rows' : List TaskModel} {like : String → String → Bool}

/-- The same rows, in an order of their own. Both list the rows that satisfy the
conditions, once each. -/
theorem Lists.perm_of_lists (h : Lists like t conds rows) (h' : Lists like t conds rows') :
    rows'.Perm rows :=
  (List.perm_ext_iff_of_nodup h'.nodup h.nodup).mpr
    (fun row => (h'.mem row).trans (h.mem row).symm)

/-- Different rows have different responses. The ID is part of the response. -/
theorem Lists.nodup_responses (h : Lists like t conds rows) :
    (rows.map TaskModel.toTaskResponse).Nodup := by
  refine h.nodup.map_on (fun row hrow row' hrow' heq => ?_)
  have hid : row.id = row'.id := congrArg TaskResponse.id heq
  have hlive := ((h.mem row).mp hrow).1
  rw [hid, ((h.mem row').mp hrow').1] at hlive
  exact (Option.some.inj hlive).symm

/-- A query within the bounds is used as it is. -/
theorem clamped_of_bounds (hpage : 0 < query.page) (hsize : 1 ≤ query.pageSize)
    (hsize' : query.pageSize ≤ 100) : query.clamped = query := by
  unfold TaskQuery.clamped
  dsimp only
  rw [if_neg (not_le.mpr hpage), if_neg (by omega), if_neg (by omega)]

/-- The offset of a page, as a natural number. -/
theorem toNat_offset (hsize : 1 ≤ query.pageSize) (k : ℕ) :
    (k * query.pageSize).toNat = k * query.pageSize.toNat := by
  rw [Int.toNat_mul (Int.natCast_nonneg k) (by omega), Int.toNat_natCast]

/-- **A page of a listing** is a window of the rows, in an order of its own. The
order is any one that the mapper may choose. -/
theorem list_spec (hf : f.Documented t) (henv : env.Faultless) (hsize : 1 ≤ query.pageSize)
    (hsize' : query.pageSize ≤ 100) (k : ℕ) :
    ∃ rows, Lists f.like t query.conditions rows ∧ NewestFirst rows
      ∧ f.find t query.conditions (some ⟨k * query.pageSize, query.pageSize⟩) env.find
        = .ok ((rows.drop (k * query.pageSize.toNat)).take query.pageSize.toNat)
      ∧ TaskService.list f t { query with page := k + 1 } env
        = .ok ⟨((rows.drop (k * query.pageSize.toNat)).take query.pageSize.toNat).map
            TaskModel.toTaskResponse, rows.length, k + 1, query.pageSize⟩ := by
  obtain ⟨counted, hcounted, hcount⟩ := hf.count_ok query.conditions env.count henv.count
  obtain ⟨rows, hlists, hnewest, hfind⟩ := hf.find_page query.conditions
    ⟨k * query.pageSize, query.pageSize⟩ env.find henv.find
    (mul_nonneg (Int.natCast_nonneg k) (by omega)) (by show 0 < query.pageSize; omega)
  dsimp only at hfind
  rw [toNat_offset hsize] at hfind
  refine ⟨rows, hlists, hnewest, hfind, ?_⟩
  have hpage : (0 : ℤ) < k + 1 := by omega
  have hlen : counted.length = rows.length := (hlists.perm_of_lists hcounted).length_eq
  have hclamped : TaskQuery.clamped { query with page := k + 1 } = { query with page := k + 1 } :=
    clamped_of_bounds hpage hsize hsize'
  have hconds : TaskQuery.conditions { query with page := k + 1 } = query.conditions := rfl
  unfold TaskService.list
  dsimp only
  rw [hclamped]
  unfold repoList
  dsimp only
  rw [hconds, hcount]
  dsimp only
  rw [if_pos ⟨hpage, by omega⟩, add_sub_cancel_right, hfind]
  dsimp only
  rw [hlen]

end Page

/-! ## Page after page -/

section Pages

variable {f : GormFind} {t : TaskTable} {query : TaskQuery} {env : ℕ → ListEnv}
  {rows : List TaskModel} {resps : List TaskResponse} {n : ℕ}

/-- **Without ties across pages** the first `n` pages hold the same rows as the
front of any one order of them. By induction on the pages: each page is the
window of its own list, and without ties across its edges it holds the same rows
as that of the chosen one. -/
theorem listPages_perm (hf : f.Documented t) (henv : ∀ k, (env k).Faultless)
    (hsize : 1 ≤ query.pageSize) (hsize' : query.pageSize ≤ 100)
    (hlists : Lists f.like t query.conditions rows) (hnewest : NewestFirst rows)
    (hties : ∀ k, Windows.CutsNoTie TaskModel.createdAt rows (k * query.pageSize.toNat)) (n : ℕ) :
    ∃ taken : List TaskModel, taken.Perm (rows.take (n * query.pageSize.toNat))
      ∧ TaskService.listPages f t query env n = .ok (taken.map TaskModel.toTaskResponse) := by
  induction n with
  | zero =>
    refine ⟨[], ?_, rfl⟩
    rw [Nat.zero_mul, List.take_zero]
  | succ n ih =>
    obtain ⟨taken, hperm, hpages⟩ := ih
    obtain ⟨rows', hlists', hnewest', -, hpage⟩ := list_spec hf (henv n) hsize hsize' n
    have hcut' := hties (n + 1)
    rw [Nat.succ_mul] at hcut' ⊢
    have hwindow : ((rows'.drop (n * query.pageSize.toNat)).take query.pageSize.toNat).Perm
        ((rows.drop (n * query.pageSize.toNat)).take query.pageSize.toNat) :=
      Windows.Descending.window_perm hnewest hnewest' (hlists.perm_of_lists hlists') (hties n)
        hcut'
    refine ⟨taken ++ (rows'.drop (n * query.pageSize.toNat)).take query.pageSize.toNat, ?_, ?_⟩
    · rw [List.take_add]
      exact hperm.append hwindow
    · unfold TaskService.listPages
      rw [hpages, hpage, List.map_append]

/-- **The condition is enough.** -/
theorem pagesPartition_of_ties (hf : f.Documented t) (henv : ∀ k, (env k).Faultless)
    (hsize : 1 ≤ query.pageSize) (hsize' : query.pageSize ≤ 100)
    (hties : TiesShareAPage f.like t query) : PagesPartition f t query env := by
  obtain ⟨rows, hlists, hnewest, -, -⟩ := list_spec hf (henv 0) hsize hsize' 0
  obtain ⟨taken, hperm, hpages⟩ := listPages_perm hf henv hsize hsize' hlists hnewest
    (hties rows hlists hnewest) (pageCount rows.length query.pageSize.toNat)
  have hall : rows.length ≤ pageCount rows.length query.pageSize.toNat * query.pageSize.toNat :=
    not_lt.mp (fun hlt =>
      (lt_irrefl _ ((lt_pageCount_iff (Int.lt_toNat.mpr hsize)).mpr hlt)))
  rw [List.take_of_length_le hall] at hperm
  refine ⟨taken, hlists.perm hperm, ?_⟩
  rw [hperm.length_eq]
  exact hpages

/-- What the first `n + 1` pages are. The pages before it, and the page. -/
theorem listPages_succ_ok (h : TaskService.listPages f t query env (n + 1) = .ok resps) :
    ∃ front resp, TaskService.listPages f t query env n = .ok front
      ∧ TaskService.list f t { query with page := n + 1 } (env n) = .ok resp
      ∧ resps = front ++ resp.list := by
  unfold TaskService.listPages at h
  cases hfront : TaskService.listPages f t query env n with
  | error err =>
    rw [hfront] at h
    cases h
  | ok front =>
    rw [hfront] at h
    dsimp only at h
    cases hpage : TaskService.list f t { query with page := n + 1 } (env n) with
    | error err =>
      rw [hpage] at h
      cases h
    | ok resp =>
      rw [hpage] at h
      exact ⟨front, resp, rfl, rfl, (Except.ok.inj h).symm⟩

/-- Every page is among the pages. By induction on the number of pages. -/
theorem mem_listPages (h : TaskService.listPages f t query env n = .ok resps) {a : ℕ} (ha : a < n)
    {page : TaskListResponse}
    (hpage : TaskService.list f t { query with page := a + 1 } (env a) = .ok page) :
    ∀ r ∈ page.list, r ∈ resps := by
  induction n generalizing resps with
  | zero => exact absurd ha (Nat.not_lt_zero a)
  | succ n ih =>
    obtain ⟨front, last, hfront, hlast, rfl⟩ := listPages_succ_ok h
    intro r hr
    rcases Nat.lt_succ_iff_lt_or_eq.mp ha with hlt | rfl
    · exact List.mem_append_left _ (ih hfront hlt r hr)
    · obtain rfl := Except.ok.inj (hpage.symm.trans hlast)
      exact List.mem_append_right _ hr

/-- What is listed once is on one page. Here the rows of two pages are told
apart by their responses. -/
theorem disjoint_pages (h : TaskService.listPages f t query env n = .ok resps) (hnd : resps.Nodup)
    {a b : ℕ} (hab : a < b) (hb : b < n) {page page' : TaskListResponse}
    (hpage : TaskService.list f t { query with page := a + 1 } (env a) = .ok page)
    (hpage' : TaskService.list f t { query with page := b + 1 } (env b) = .ok page') :
    page.list.Disjoint page'.list := by
  induction n generalizing resps with
  | zero => exact absurd hb (Nat.not_lt_zero b)
  | succ n ih =>
    obtain ⟨front, last, hfront, hlast, rfl⟩ := listPages_succ_ok h
    obtain ⟨hnd', -, hdisjoint⟩ := List.nodup_append'.mp hnd
    rcases Nat.lt_succ_iff_lt_or_eq.mp hb with hlt | rfl
    · exact ih hfront hnd' hlt
    · obtain rfl := Except.ok.inj (hpage'.symm.trans hlast)
      exact fun r hr hr' => hdisjoint (mem_listPages hfront hab hpage r hr) hr'

end Pages

/-! ## Another order for one page -/

deriving instance DecidableEq for Condition, PageOf

/-- The mapper that answers the query for one page from the order `rows`. All
other queries are answered as before, so it is as documented if the order is. -/
def GormFind.answering (f : GormFind) (conds : List Condition) (page : PageOf)
    (rows : List TaskModel) : GormFind :=
  { f with
    find := fun t conds' page' env =>
      if env.fault = false ∧ conds' = conds ∧ page' = some page then
        .ok ((rows.drop page.offset.toNat).take page.limit.toNat)
      else f.find t conds' page' env }

section Answering

variable {f : GormFind} {t : TaskTable} {conds : List Condition} {page : PageOf}
  {rows : List TaskModel}

/-- The order may be any one in which the rows of a time come together. This is
what makes the condition necessary: the database may answer like this. -/
theorem GormFind.Documented.answering (hf : f.Documented t) (hlists : Lists f.like t conds rows)
    (hnewest : NewestFirst rows) (page : PageOf) : (f.answering conds page rows).Documented t where
  count_fault := hf.count_fault
  find_fault := fun conds' page' env hfault => by
    obtain ⟨err, herr⟩ := hf.find_fault conds' page' env hfault
    exact ⟨err, (if_neg (fun h => Bool.false_ne_true (h.1.symm.trans hfault))).trans herr⟩
  count_ok := hf.count_ok
  find_all := fun conds' env hfault => by
    obtain ⟨rows', hlists', hfind⟩ := hf.find_all conds' env hfault
    exact ⟨rows', hlists', (if_neg (fun h => Option.some_ne_none page h.2.2.symm)).trans hfind⟩
  find_page := fun conds' page' env hfault hoffset hlimit => by
    by_cases h : conds' = conds ∧ page' = page
    · obtain ⟨rfl, rfl⟩ := h
      exact ⟨rows, hlists, hnewest, if_pos ⟨hfault, rfl, rfl⟩⟩
    · obtain ⟨rows', hlists', hnewest', hfind⟩ :=
        hf.find_page conds' page' env hfault hoffset hlimit
      refine ⟨rows', hlists', hnewest', (if_neg (fun h' => h ?_)).trans hfind⟩
      exact ⟨h'.2.1, Option.some.inj h'.2.2⟩

/-- The one page comes from the other order, -/
theorem find_answering {env : DbEnv} (h : env.fault = false) :
    (f.answering conds page rows).find t conds (some page) env
      = .ok ((rows.drop page.offset.toNat).take page.limit.toNat) :=
  if_pos ⟨h, rfl, rfl⟩

/-- The other pages are answered as before. So only one window moves. -/
theorem find_answering_of_ne {page' : PageOf} (h : page' ≠ page) (env : DbEnv) :
    (f.answering conds page rows).find t conds (some page') env
      = f.find t conds (some page') env :=
  if_neg (fun h' => h (Option.some.inj h'.2.2))

end Answering

/-! ## Exactly the listings without ties across pages -/

section Partition

variable {f : GormFind} {t : TaskTable} {query : TaskQuery} {rows : List TaskModel}

/-- The query for page `k + 1`. Offset and limit, as the query has them. -/
def TaskQuery.pageOf (query : TaskQuery) (k : ℕ) : PageOf := ⟨k * query.pageSize, query.pageSize⟩

/-- Different pages have different offsets. -/
theorem pageOf_injective (hsize : 1 ≤ query.pageSize) : Function.Injective query.pageOf := by
  intro a b h
  have hoffset : (a : ℤ) * query.pageSize = b * query.pageSize := congrArg PageOf.offset h
  exact Int.ofNat_inj.mp (mul_right_cancel₀ (by omega) hoffset)

/-- What a page lists that is answered from the order `rows`. -/
theorem mem_list_of_find {g : GormFind} {env : ListEnv} (hg : g.Documented t)
    (henv : env.Faultless) (hsize : 1 ≤ query.pageSize) (hsize' : query.pageSize ≤ 100) {k : ℕ}
    (hfind : g.find t query.conditions (some (query.pageOf k)) env.find
      = .ok ((rows.drop (query.pageOf k).offset.toNat).take (query.pageOf k).limit.toNat)) :
    ∃ resp, TaskService.list g t { query with page := k + 1 } env = .ok resp
      ∧ ∀ row ∈ (rows.drop (k * query.pageSize.toNat)).take query.pageSize.toNat,
        row.toTaskResponse ∈ resp.list := by
  obtain ⟨rows', -, -, hfind', hlist⟩ := list_spec hg henv hsize hsize' k
  have hwindow := Except.ok.inj (hfind'.symm.trans hfind)
  unfold TaskQuery.pageOf at hwindow
  dsimp only at hwindow
  rw [toNat_offset hsize] at hwindow
  refine ⟨_, hlist, fun row hrow => ?_⟩
  dsimp only
  rw [hwindow]
  exact List.mem_map_of_mem hrow

/-- **Two rows of the same time on different pages** may change places between
the queries for these pages, and then one of them is listed twice. -/
theorem ties_of_pagesPartition (hf : f.Documented t) (hsize : 1 ≤ query.pageSize)
    (hsize' : query.pageSize ≤ 100)
    (hpages : ∀ g : GormFind, g.like = f.like → g.Documented t →
      ∀ env : ℕ → ListEnv, (∀ k, (env k).Faultless) → PagesPartition g t query env) :
    TiesShareAPage f.like t query := by
  intro rows hlists hnewest k x hx y hy hkey
  have hpos : 0 < query.pageSize.toNat := Int.lt_toNat.mpr hsize
  obtain ⟨i, hi, hxi⟩ := List.mem_take_iff_getElem.mp hx
  obtain ⟨j, hj, hyj⟩ := List.mem_drop_iff_getElem.mp hy
  -- the page `a` of `x` comes before the cut, the page `b` of `y` after it
  obtain ⟨a, ha⟩ : ∃ a, a = i / query.pageSize.toNat := ⟨_, rfl⟩
  obtain ⟨b, hb⟩ : ∃ b, b = (k * query.pageSize.toNat + j) / query.pageSize.toNat := ⟨_, rfl⟩
  have hab : a < b := by
    rw [ha, hb]
    refine (Nat.div_lt_of_lt_mul ?_).trans_le
      ((Nat.le_div_iff_mul_le hpos).mpr (Nat.le_add_right _ j))
    rw [mul_comm]
    exact lt_of_lt_of_le hi (min_le_left _ _)
  have hbn : b < pageCount rows.length query.pageSize.toNat := by
    rw [lt_pageCount_iff hpos, hb]
    exact (Nat.div_mul_le_self _ _).trans_lt (by omega)
  -- page `a` is answered with `x` and `y` in each other's place, page `b` as in `rows`
  have hperm : (rows.map (Equiv.swap x y)).Perm rows :=
    Windows.map_swap_perm hlists.nodup (List.mem_of_mem_take hx) (List.mem_of_mem_drop hy)
  have hnewest' : NewestFirst (rows.map (Equiv.swap x y)) :=
    Windows.Descending.map_swap hnewest hkey
  have hg := hf.answering hlists hnewest (query.pageOf b)
  have hg' := hg.answering (hlists.perm hperm) hnewest' (query.pageOf a)
  have henv : ListEnv.Faultless ⟨⟨Time.zero, Time.zero, false⟩, ⟨Time.zero, Time.zero, false⟩⟩ :=
    ⟨rfl, rfl⟩
  obtain ⟨resp, hresp, hmem⟩ := mem_list_of_find hg' henv hsize hsize' (find_answering henv.find)
  have hne : query.pageOf b ≠ query.pageOf a :=
    fun h => hab.ne (pageOf_injective hsize h).symm
  obtain ⟨resp', hresp', hmem'⟩ := mem_list_of_find hg' henv hsize hsize'
    ((find_answering_of_ne hne _).trans (find_answering henv.find))
  have hpart := fun hlike => hpages _ hlike hg' (fun _ => _) (fun _ => henv)
  obtain ⟨all, hall, hok⟩ := hpart rfl
  rw [(hlists.perm_of_lists hall).length_eq] at hok
  refine disjoint_pages hok hall.nodup_responses hab hbn hresp hresp' (hmem y ?_) (hmem' y ?_)
  · rw [← List.map_drop, ← List.map_take, List.mem_map, ha]
    exact ⟨x, Windows.mem_window (List.getElem?_eq_some_iff.mpr ⟨_, hxi⟩) hpos,
      Equiv.swap_apply_left x y⟩
  · rw [hb]
    exact Windows.mem_window (List.getElem?_eq_some_iff.mpr ⟨_, hyj⟩) hpos

/-- **Exactly the listings whose pages part the rows**, in whatever order the
database answers each query. -/
theorem pagesPartition_iff (hf : f.Documented t) (hsize : 1 ≤ query.pageSize)
    (hsize' : query.pageSize ≤ 100) :
    (∀ g : GormFind, g.like = f.like → g.Documented t →
      ∀ env : ℕ → ListEnv, (∀ k, (env k).Faultless) → PagesPartition g t query env)
      ↔ TiesShareAPage f.like t query := by
  refine ⟨ties_of_pagesPartition hf hsize hsize', fun hties g hlike hg env henv => ?_⟩
  exact pagesPartition_of_ties hg henv hsize hsize' (hlike.symm ▸ hties)

/-- Rows of different times share a page whenever they can. -/
theorem tiesShareAPage_of_distinct {like : String → String → Bool}
    (h : ∀ row row', t.live row.id = some row → t.live row'.id = some row' →
      row.createdAt = row'.createdAt → row = row') : TiesShareAPage like t query := by
  intro rows hlists _ k x hx y hy hkey
  have hxy := h x y ((hlists.mem x).mp (List.mem_of_mem_take hx)).1
    ((hlists.mem y).mp (List.mem_of_mem_drop hy)).1 hkey
  subst hxy
  exact List.disjoint_take_drop hlists.nodup le_rfl hx hy

end Partition

/-! ### Two rows -/

/-- The row of a task created at a time in milliseconds. -/
def rowOf (id : String) (createdAt : ℕ) : TaskModel :=
  (everySecondRequest id).toTaskModel.created (Time.ofMilli createdAt)

/-- A table of two rows. -/
def twoRowTable (createdAt createdAt' : ℕ) : TaskTable :=
  Function.update (Function.update (fun _ => none) "a" (some (rowOf "a" createdAt))) "b"
    (some (rowOf "b" createdAt'))

theorem twoRowTable_eq_some {createdAt createdAt' : ℕ} {id : String} {row : TaskModel}
    (h : twoRowTable createdAt createdAt' id = some row) :
    row = rowOf "a" createdAt ∨ row = rowOf "b" createdAt' := by
  unfold twoRowTable at h
  by_cases hb : id = "b"
  · rw [hb, Function.update_self] at h
    exact Or.inr (Option.some.inj h).symm
  rw [Function.update_of_ne hb] at h
  by_cases ha : id = "a"
  · rw [ha, Function.update_self] at h
    exact Or.inl (Option.some.inj h).symm
  · rw [Function.update_of_ne ha] at h
    cases h

theorem documented_twoRows (createdAt createdAt' : ℕ) :
    (tableFind ["a", "b"]).Documented (twoRowTable createdAt createdAt') := by
  have hone : TaskTable.Keyed (Function.update (fun _ => none) "a" (some (rowOf "a" createdAt))) :=
    TaskTable.keyed_empty.update rfl
  have hkeyed : (twoRowTable createdAt createdAt').Keyed := hone.update rfl
  refine documented_tableFind (by decide) hkeyed (fun id hne => ?_)
  obtain ⟨row, hrow⟩ := Option.ne_none_iff_exists'.mp hne
  rw [← hkeyed id row hrow]
  rcases twoRowTable_eq_some hrow with rfl | rfl
  · exact List.mem_cons_self
  · exact List.mem_cons_of_mem _ List.mem_cons_self

/-- The listing of all tasks, one a page. -/
def onePerPage : TaskQuery := ⟨1, 1, "", none, none, none, none, none⟩

/-- Queries that do not fail. -/
def calmListEnv : ListEnv := ⟨(calmEnv 0).get, (calmEnv 0).get⟩

/-- Rows of different times, one a page. -/
theorem pagesPartition_of_times :
    PagesPartition (tableFind ["a", "b"]) (twoRowTable 1000 2000) onePerPage
      (fun _ => calmListEnv) := by
  refine (pagesPartition_iff (documented_twoRows 1000 2000) (by decide) (by decide)).mpr
    (tiesShareAPage_of_distinct (fun row row' hrow hrow' heq => ?_)) _ rfl
    (documented_twoRows 1000 2000) _ (fun _ => ⟨rfl, rfl⟩)
  rcases twoRowTable_eq_some (TaskTable.live_eq_some.mp hrow).1 with rfl | rfl <;>
    rcases twoRowTable_eq_some (TaskTable.live_eq_some.mp hrow').1 with rfl | rfl
  · rfl
  · exact absurd heq (by decide)
  · exact absurd heq (by decide)
  · rfl

/-- **A row may be on two pages, and another one on none**: the second query
finds the two rows the other way round. -/
theorem not_pagesPartition_of_tie :
    let g := (tableFind ["a", "b"]).answering [] ⟨1, 1⟩ [rowOf "b" 1000, rowOf "a" 1000]
    g.Documented (twoRowTable 1000 1000) ∧ calmListEnv.Faultless
      ∧ ¬ PagesPartition g (twoRowTable 1000 1000) onePerPage (fun _ => calmListEnv) := by
  have hlists : Lists (tableFind ["a", "b"]).like (twoRowTable 1000 1000) []
      [rowOf "a" 1000, rowOf "b" 1000] := by
    obtain ⟨rows, hlists, hfind⟩ :=
      (documented_twoRows 1000 1000).find_all [] calmListEnv.find rfl
    have hrows : (tableFind ["a", "b"]).find (twoRowTable 1000 1000) [] none calmListEnv.find
        = .ok [rowOf "a" 1000, rowOf "b" 1000] := rfl
    rw [Except.ok.inj (hrows.symm.trans hfind)]
    exact hlists
  have hg := (documented_twoRows 1000 1000).answering
    (hlists.perm (List.Perm.swap _ _ [])) (by unfold NewestFirst; decide) ⟨1, 1⟩
  refine ⟨hg, ⟨rfl, rfl⟩, fun ⟨rows, hrows, hpages⟩ => ?_⟩
  have hperm : rows.Perm [rowOf "a" 1000, rowOf "b" 1000] := hlists.perm_of_lists hrows
  rw [hperm.length_eq] at hpages
  have htwice := Except.ok.inj hpages
  have hnd := hrows.nodup_responses
  rw [← htwice] at hnd
  exact absurd hnd (by decide +kernel)

end Timewheel
