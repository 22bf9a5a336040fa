import Mathlib.Data.List.Nodup
import Mathlib.Logic.Function.Basic
import Mathlib.Tactic.Common

/-!
# Intrusive doubly linked lists

A heap of nodes linked by two pointer fields is two functions
`nxt prv : α → Option α` from a node to its neighbours. `Chain nxt prv p hd xs`
says that the list entered at `hd`, behind the node `p`, consists of the
nodes `xs`: it is nil-terminated, and each node points back to the one before
it. A chain has no repeated node (`Chain.nodup`) and is determined by where it
is entered (`Chain.unique`).

A `Family` is an array of such lists that share one heap, with no node in
two of them. The pointer surgery of the usual operations – unlink a node,
push one in front, insert one behind another – is proved to act on the
family of node sequences as erasing and inserting does
(`Family.unlink`, `Family.pushFront`, `Family.insertAfter`).

The predicate is on pointers and sequences together, so an operation on
pointers has a counterpart on sequences, and programs can be reasoned about by
what they do to the sequences. Nothing here assumes that a node is fresh or
that the heap is finite: nodes outside the lists may point anywhere.
-/

namespace DList

variable {α ι : Type*}

/-- The nodes of the list entered at `hd`, whose first node points back to `p`.
The predecessor is a parameter, so that the tail of a chain is a chain. -/
def Chain (nxt prv : α → Option α) : Option α → Option α → List α → Prop
  | _, hd, [] => hd = none
  | p, hd, x :: xs => hd = some x ∧ prv x = p ∧ Chain nxt prv (some x) (nxt x) xs

variable {nxt prv nxt' prv' : α → Option α}

@[simp] theorem chain_nil {p hd : Option α} : Chain nxt prv p hd [] ↔ hd = none := Iff.rfl

namespace Chain

/-- A chain only reads the pointers of its own nodes. So writing elsewhere
leaves it as it is. -/
theorem congr {p hd : Option α} {xs : List α} (h : Chain nxt prv p hd xs)
    (hn : ∀ x ∈ xs, nxt' x = nxt x) (hp : ∀ x ∈ xs, prv' x = prv x) :
    Chain nxt' prv' p hd xs := by
  induction xs generalizing p hd with
  | nil => exact h
  | cons x xs ih =>
    obtain ⟨h₁, h₂, h₃⟩ := h
    refine ⟨h₁, (hp x List.mem_cons_self).trans h₂, ?_⟩
    rw [hn x List.mem_cons_self]
    exact ih h₃ (fun y hy => hn y (List.mem_cons_of_mem x hy))
      (fun y hy => hp y (List.mem_cons_of_mem x hy))

/-- A list is entered at its first node. A null entry is the empty list. -/
theorem head_eq {p hd : Option α} {xs : List α} (h : Chain nxt prv p hd xs) :
    hd = xs.head? := by
  cases xs with
  | nil => exact h
  | cons x xs => exact h.1

/-- The same entry gives the same nodes. Pointers forward determine everything. -/
theorem unique {p q hd : Option α} {xs ys : List α} (h : Chain nxt prv p hd xs)
    (h' : Chain nxt prv q hd ys) : xs = ys := by
  induction xs generalizing p q hd ys with
  | nil =>
    cases ys with
    | nil => rfl
    | cons y ys => rw [chain_nil.mp h] at h'; exact absurd h'.1 (by simp)
  | cons x xs ih =>
    cases ys with
    | nil => rw [chain_nil.mp h'] at h; exact absurd h.1 (by simp)
    | cons y ys =>
      obtain rfl : x = y := Option.some.inj (h.1.symm.trans h'.1)
      rw [ih h.2.2 h'.2.2]

/-- From a node on, a list is the list entered at that node. Its predecessor is
whatever stands before it. -/
theorem suffix {p hd : Option α} {xs ys : List α} {n : α}
    (h : Chain nxt prv p hd (xs ++ n :: ys)) :
    ∃ q, Chain nxt prv q (some n) (n :: ys) := by
  induction xs generalizing p hd with
  | nil => exact ⟨p, h.1 ▸ h⟩
  | cons x xs ih => exact ih h.2.2

/-- **A nil-terminated list has no repeated node**: from a node on, the list is
determined, and a list is not a proper part of itself. If a node came twice, the
part after the first occurrence would be the part after the second. -/
theorem nodup {p hd : Option α} {xs : List α} (h : Chain nxt prv p hd xs) : xs.Nodup := by
  induction xs generalizing p hd with
  | nil => exact List.nodup_nil
  | cons x xs ih =>
    refine List.nodup_cons.mpr ⟨fun hx => ?_, ih h.2.2⟩
    obtain ⟨as, bs, hxs⟩ := List.append_of_mem hx
    obtain ⟨q, hq⟩ := (hxs ▸ h.2.2).suffix
    have hlen := congrArg List.length (unique (h.1 ▸ h) hq)
    rw [hxs] at hlen
    simp at hlen
    omega

/-- The node behind which the tail of a chain hangs: the last node before it, or
the chain's own predecessor. The links backward can be trusted. -/
theorem prv_eq {p hd : Option α} {xs ys : List α} {n : α}
    (h : Chain nxt prv p hd (xs ++ n :: ys)) : prv n = xs.getLast?.or p := by
  induction xs generalizing p hd with
  | nil => simpa using h.2.1
  | cons x xs ih =>
    rw [ih h.2.2]
    cases xs with
    | nil => rfl
    | cons y ys =>
      rw [List.getLast?_cons_cons, List.getLast?_eq_some_getLast (List.cons_ne_nil y ys)]
      rfl

/-- A node points to the one after it. And so can the links forward. -/
theorem nxt_eq {p hd : Option α} {xs ys : List α} {n : α}
    (h : Chain nxt prv p hd (xs ++ n :: ys)) : nxt n = ys.head? := by
  obtain ⟨q, hq⟩ := h.suffix
  exact hq.2.2.head_eq

/-- A node without predecessor heads a list entered from outside. A program may
test this by the pointer alone. -/
theorem eq_head_of_prv_none {hd : Option α} {xs : List α} {n : α}
    (h : Chain nxt prv none hd xs) (hn : n ∈ xs) (hp : prv n = none) :
    ∃ ys, xs = n :: ys := by
  obtain ⟨as, bs, rfl⟩ := List.append_of_mem hn
  have h' := h.prv_eq
  rw [hp] at h'
  cases as with
  | nil => exact ⟨bs, rfl⟩
  | cons a as =>
    rw [List.getLast?_eq_some_getLast (List.cons_ne_nil a as)] at h'
    exact absurd h' (by simp)

/-- A node with a predecessor comes after it in the list. The other case of the
same test. -/
theorem eq_of_prv_some {hd : Option α} {xs : List α} {n q : α}
    (h : Chain nxt prv none hd xs) (hn : n ∈ xs) (hp : prv n = some q) :
    ∃ as bs, xs = as ++ q :: n :: bs := by
  obtain ⟨as, bs, rfl⟩ := List.append_of_mem hn
  have h' := h.prv_eq
  rw [hp, Option.or_none] at h'
  rcases List.eq_nil_or_concat as with rfl | ⟨as', a, rfl⟩
  · exact absurd h' (by simp)
  · obtain rfl : q = a := by simpa using h'
    exact ⟨as', bs, by simp⟩

end Chain

/-! ## Following the pointers -/

/-- The nodes met by following `nxt` from a pointer, at most `fuel` of them. The
fuel makes it total even on a cycle. -/
def walk (nxt : α → Option α) : ℕ → Option α → List α
  | 0, _ => []
  | _ + 1, none => []
  | fuel + 1, some x => x :: walk nxt fuel (nxt x)

/-- With enough fuel the walk meets the nodes of the list. The number of nodes
is enough. -/
theorem Chain.walk_eq {p hd : Option α} {xs : List α} (h : Chain nxt prv p hd xs)
    {fuel : ℕ} (hf : xs.length ≤ fuel) : walk nxt fuel hd = xs := by
  induction xs generalizing p hd fuel with
  | nil =>
    rw [chain_nil.mp h]
    cases fuel <;> rfl
  | cons x xs ih =>
    obtain ⟨rfl, _, htail⟩ := h
    cases fuel with
    | zero => exact absurd hf (by simp)
    | succ fuel =>
      rw [walk, ih htail (by simpa using hf)]

/-! ## Pointer surgery -/

section Surgery

variable [DecidableEq α]

/-- `prv`'s node takes over the node after `n`: the forward half of unlinking
`n`. For the first node nothing is written. -/
def unlinkNxt (nxt prv : α → Option α) (n : α) : α → Option α :=
  match prv n with
  | some q => Function.update nxt q (nxt n)
  | none => nxt

/-- `nxt`'s node takes over the node before `n`: the backward half of unlinking
`n`. For the last node nothing is written. -/
def unlinkPrv (nxt prv : α → Option α) (n : α) : α → Option α :=
  match nxt n with
  | some m => Function.update prv m (prv n)
  | none => prv

/-- The node in front of which `n` is pushed points back to `n`. Nothing is
written if the list is empty. -/
def setPrvAt (prv : α → Option α) (m : Option α) (n : α) : α → Option α :=
  match m with
  | some m => Function.update prv m (some n)
  | none => prv

/-- **Unlinking a node drops it from the sequence.** The pointers of nodes
outside the list are left alone, except that the chain's own predecessor may be
redirected. By induction on the nodes before it; the node after it then hangs
behind the one before. -/
theorem Chain.unlink {p hd : Option α} {xs ys : List α} {n : α}
    (h : Chain nxt prv p hd (xs ++ n :: ys)) (hp : ∀ q, p = some q → q ∉ xs ++ n :: ys) :
    Chain (unlinkNxt nxt prv n) (unlinkPrv nxt prv n) p
      (if xs = [] then nxt n else hd) (xs ++ ys) := by
  induction xs generalizing p hd with
  | nil =>
    rw [if_pos rfl, List.nil_append]
    have hprv : prv n = p := h.2.1
    have htail : Chain nxt prv (some n) (nxt n) ys := h.2.2
    have hhead := htail.head_eq
    -- forward pointers of the tail: only `p`, which is not in it, is redirected
    have hfwd : ∀ x ∈ ys, unlinkNxt nxt prv n x = nxt x := by
      intro x hx
      unfold unlinkNxt
      rw [hprv]
      cases p with
      | none => rfl
      | some q =>
        refine Function.update_of_ne ?_ _ _
        rintro rfl
        exact hp x rfl (List.mem_cons_of_mem _ hx)
    cases ys with
    | nil => exact hhead
    | cons y ys =>
      have hbwd : unlinkPrv nxt prv n = Function.update prv y p := by
        unfold unlinkPrv
        rw [hhead, hprv]
        rfl
      refine ⟨hhead, by rw [hbwd, Function.update_self], ?_⟩
      rw [hfwd y List.mem_cons_self]
      refine htail.2.2.congr (fun x hx => hfwd x (List.mem_cons_of_mem _ hx)) (fun x hx => ?_)
      rw [hbwd]
      refine Function.update_of_ne ?_ _ _
      rintro rfl
      exact (List.nodup_cons.mp htail.nodup).1 hx
  | cons x xs ih =>
    rw [if_neg (List.cons_ne_nil x xs), List.cons_append]
    have hx : x ∉ xs ++ n :: ys := (List.nodup_cons.mp h.nodup).1
    obtain ⟨hhd, hpx, htail⟩ := h
    have hprv := htail.prv_eq
    have hnxt := htail.nxt_eq
    have hbwd : unlinkPrv nxt prv n x = prv x := by
      unfold unlinkPrv
      rw [hnxt]
      cases ys with
      | nil => rfl
      | cons y ys =>
        refine Function.update_of_ne ?_ _ _
        rintro rfl
        exact hx (by simp)
    -- `x` is redirected exactly when `n` comes right after it
    have hfwd : unlinkNxt nxt prv n x = if xs = [] then nxt n else nxt x := by
      unfold unlinkNxt
      rw [hprv]
      rcases List.eq_nil_or_concat xs with rfl | ⟨as, a, rfl⟩
      · exact Function.update_self x _ _
      · rw [if_neg (by simp), List.concat_eq_append, List.getLast?_concat]
        refine Function.update_of_ne ?_ _ _
        rintro rfl
        exact hx (by simp)
    refine ⟨hhd, hbwd.trans hpx, ?_⟩
    rw [hfwd]
    refine ih htail (fun q hq => ?_)
    obtain rfl := Option.some.inj hq
    exact hx

/-- **An array of lists in one heap**: `heads i` is the pointer to the first
node of the `i`-th list, and `lists i` its nodes. The array may be indexed by
anything. -/
structure Family (heads : ι → Option α) (lists : ι → List α)
    (nxt prv : α → Option α) : Prop where
  /-- Each list is nil-terminated and linked in both directions, and its
  first node has no predecessor. -/
  chain : ∀ i, Chain nxt prv none (heads i) (lists i)
  /-- No node is in two lists. -/
  disjoint : ∀ i j x, x ∈ lists i → x ∈ lists j → i = j

namespace Family

variable {heads : ι → Option α} {lists : ι → List α}

omit [DecidableEq α] in
/-- The family only reads the pointers of its own nodes. -/
theorem congr (F : Family heads lists nxt prv)
    (hn : ∀ i, ∀ x ∈ lists i, nxt' x = nxt x) (hp : ∀ i, ∀ x ∈ lists i, prv' x = prv x) :
    Family heads lists nxt' prv' :=
  ⟨fun i => (F.chain i).congr (hn i) (hp i), F.disjoint⟩

omit [DecidableEq α] in
/-- The node before a node of a list is in the list. So unlinking stays within
one list. -/
theorem prv_mem (F : Family heads lists nxt prv) {i : ι} {n q : α} (hn : n ∈ lists i)
    (hq : prv n = some q) : q ∈ lists i := by
  obtain ⟨as, bs, h⟩ := (F.chain i).eq_of_prv_some hn hq
  rw [h]
  simp

omit [DecidableEq α] in
/-- The node after a node of a list is in the list. The same for the other
direction. -/
theorem nxt_mem (F : Family heads lists nxt prv) {i : ι} {n m : α} (hn : n ∈ lists i)
    (hm : nxt n = some m) : m ∈ lists i := by
  obtain ⟨as, bs, h⟩ := List.append_of_mem hn
  have hc := F.chain i
  rw [h] at hc ⊢
  have := hc.nxt_eq
  rw [hm] at this
  exact List.mem_append_right _
    (List.mem_cons_of_mem _ (List.mem_of_mem_head? (by rw [← this]; rfl)))

variable [DecidableEq ι]

/-- **Unlinking a node of the family.** When the node has no predecessor the
head of its own list is moved on to its successor. The other lists are not
touched, since their nodes are others. -/
theorem unlink (F : Family heads lists nxt prv) {i : ι} {n : α} (hn : n ∈ lists i) :
    Family (if prv n = none then Function.update heads i (nxt n) else heads)
      (Function.update lists i ((lists i).erase n))
      (unlinkNxt nxt prv n) (unlinkPrv nxt prv n) := by
  obtain ⟨as, bs, hsplit⟩ := List.append_of_mem hn
  have hci := F.chain i
  have hnd := hci.nodup
  rw [hsplit] at hci hnd
  have hne : n ∉ as := by
    rw [List.nodup_append] at hnd
    exact fun h => hnd.2.2 n h n List.mem_cons_self rfl
  have herase : (lists i).erase n = as ++ bs := by
    rw [hsplit, List.erase_append_right _ hne, List.erase_cons_head]
  refine ⟨fun j => ?_, fun j k x hj hk => ?_⟩
  · by_cases hj : j = i
    · subst hj
      rw [Function.update_self, herase]
      have hnew := hci.unlink (fun q hq => absurd hq (by simp))
      -- the head of the list moves on exactly if the node is the first one
      have hiff : (prv n = none) ↔ as = [] := by
        rw [hci.prv_eq, Option.or_none, List.getLast?_eq_none_iff]
      by_cases has : as = []
      · rw [if_pos has] at hnew
        rw [if_pos (hiff.mpr has), Function.update_self]
        exact hnew
      · rw [if_neg has] at hnew
        rw [if_neg (fun h => has (hiff.mp h))]
        exact hnew
    · rw [Function.update_of_ne hj]
      have hhead : (if prv n = none then Function.update heads i (nxt n) else heads) j
          = heads j := by
        split
        · exact Function.update_of_ne hj _ _
        · rfl
      rw [hhead]
      -- the two pointers that are written belong to neighbours of the node, so not to this list
      refine (F.chain j).congr (fun x hx => ?_) (fun x hx => ?_)
      · unfold unlinkNxt
        cases hq : prv n with
        | none => rfl
        | some q =>
          refine Function.update_of_ne ?_ _ _
          rintro rfl
          exact hj (F.disjoint j i x hx (F.prv_mem hn hq))
      · unfold unlinkPrv
        cases hm : nxt n with
        | none => rfl
        | some m =>
          refine Function.update_of_ne ?_ _ _
          rintro rfl
          exact hj (F.disjoint j i x hx (F.nxt_mem hn hm))
  · have hsub : ∀ l, x ∈ Function.update lists i ((lists i).erase n) l → x ∈ lists l := by
      intro l hl
      by_cases hli : l = i
      · subst hli
        rw [Function.update_self] at hl
        exact List.mem_of_mem_erase hl
      · rwa [Function.update_of_ne hli] at hl
    exact F.disjoint j k x (hsub j hj) (hsub k hk)

omit [DecidableEq α] in
/-- Membership after a new node has been put into one list. No other list has
the new node. -/
theorem disjoint_update (F : Family heads lists nxt prv) {i : ι} {n : α} {xs : List α}
    (hn : ∀ j, n ∉ lists j) (hxs : ∀ x, x ∈ xs → x = n ∨ x ∈ lists i) (j k : ι) (x : α)
    (hj : x ∈ Function.update lists i xs j) (hk : x ∈ Function.update lists i xs k) :
    j = k := by
  have hmem : ∀ l, x ∈ Function.update lists i xs l → (l = i ∧ x = n) ∨ x ∈ lists l := by
    intro l hl
    by_cases hli : l = i
    · subst hli
      rw [Function.update_self] at hl
      exact (hxs x hl).imp_left (fun h => ⟨rfl, h⟩)
    · rw [Function.update_of_ne hli] at hl
      exact Or.inr hl
  rcases hmem j hj with ⟨rfl, rfl⟩ | hj'
  · rcases hmem k hk with ⟨rfl, _⟩ | hk'
    · rfl
    · exact absurd hk' (hn k)
  · rcases hmem k hk with ⟨rfl, rfl⟩ | hk'
    · exact absurd hj' (hn j)
    · exact F.disjoint j k x hj' hk'

/-- **Pushing a new node in front of a list.** The old head points back to the
new one. -/
theorem pushFront (F : Family heads lists nxt prv) (i : ι) {n : α} (hn : ∀ j, n ∉ lists j) :
    Family (Function.update heads i (some n))
      (Function.update lists i (n :: lists i))
      (Function.update nxt n (heads i))
      (Function.update (setPrvAt prv (heads i) n) n none) := by
  have hne : ∀ j x, x ∈ lists j → x ≠ n := fun j x hx h => hn j (h ▸ hx)
  refine ⟨fun j => ?_, F.disjoint_update hn (fun x hx => by simpa using hx)⟩
  by_cases hj : j = i
  · subst hj
    rw [Function.update_self, Function.update_self]
    refine ⟨rfl, Function.update_self n _ _, ?_⟩
    rw [Function.update_self]
    have hc := F.chain j
    cases hl : lists j with
    | nil => rw [hl] at hc; exact hc
    | cons y ys =>
      rw [hl] at hc
      have hy : y ≠ n := hne j y (by rw [hl]; exact List.mem_cons_self)
      refine ⟨hc.1, ?_, ?_⟩
      · rw [Function.update_of_ne hy, hc.1]
        exact Function.update_self y _ _
      · rw [Function.update_of_ne hy]
        refine hc.2.2.congr (fun x hx => Function.update_of_ne ?_ _ _) (fun x hx => ?_)
        · exact hne j x (by rw [hl]; exact List.mem_cons_of_mem _ hx)
        · rw [Function.update_of_ne
            (hne j x (by rw [hl]; exact List.mem_cons_of_mem _ hx)), hc.1]
          refine Function.update_of_ne ?_ _ _
          rintro rfl
          exact (List.nodup_cons.mp hc.nodup).1 hx
  · rw [Function.update_of_ne hj, Function.update_of_ne hj]
    refine (F.chain j).congr (fun x hx => Function.update_of_ne (hne j x hx) _ _)
      (fun x hx => ?_)
    rw [Function.update_of_ne (hne j x hx)]
    unfold setPrvAt
    cases hh : heads i with
    | none => rfl
    | some m =>
      refine Function.update_of_ne ?_ _ _
      rintro rfl
      have hm : x ∈ lists i :=
        List.mem_of_mem_head? (by rw [← (F.chain i).head_eq, hh]; rfl)
      exact hj (F.disjoint j i x hx hm)

/-- **Inserting a new node behind a node of a list.** Its successor, if there is
one, points back to the new node. -/
theorem insertAfter (F : Family heads lists nxt prv) {i : ι} {n q : α} {as bs : List α}
    (hn : ∀ j, n ∉ lists j) (hsplit : lists i = as ++ q :: bs) :
    Family heads (Function.update lists i (as ++ q :: n :: bs))
      (Function.update (Function.update nxt n (nxt q)) q (some n))
      (Function.update (setPrvAt prv (nxt q) n) n (some q)) := by
  have hne : ∀ j x, x ∈ lists j → x ≠ n := fun j x hx h => hn j (h ▸ hx)
  have hq : q ∈ lists i := by rw [hsplit]; simp
  have hqn : q ≠ n := hne i q hq
  have hnq : nxt q = bs.head? := by
    have h := F.chain i
    rw [hsplit] at h
    exact h.nxt_eq
  have hnxt : ∀ x, x ≠ n → x ≠ q →
      Function.update (Function.update nxt n (nxt q)) q (some n) x = nxt x := fun x h₁ h₂ => by
    rw [Function.update_of_ne h₂, Function.update_of_ne h₁]
  have hprv : ∀ x, x ≠ n → bs.head? ≠ some x →
      Function.update (setPrvAt prv (nxt q) n) n (some q) x = prv x := by
    intro x h₁ h₂
    rw [Function.update_of_ne h₁, hnq]
    unfold setPrvAt
    cases hb : bs.head? with
    | none => rfl
    | some m =>
      refine Function.update_of_ne ?_ _ _
      rintro rfl
      exact h₂ hb
  -- the chain of the changed list, by induction on the nodes before `q`
  have hchain : ∀ (as : List α) (p hd : Option α),
      Chain nxt prv p hd (as ++ q :: bs) → (∀ x ∈ as ++ q :: bs, x ≠ n) →
      Chain (Function.update (Function.update nxt n (nxt q)) q (some n))
        (Function.update (setPrvAt prv (nxt q) n) n (some q)) p hd (as ++ q :: n :: bs) := by
    intro as
    induction as with
    | nil =>
      intro p hd h hx
      have hqbs := (List.nodup_cons.mp h.nodup).1
      refine ⟨h.1, (hprv q hqn ?_).trans h.2.1, ?_⟩
      · exact fun hb => hqbs (List.mem_of_mem_head? hb)
      · rw [Function.update_self]
        refine ⟨rfl, Function.update_self n _ _, ?_⟩
        rw [Function.update_of_ne hqn.symm, Function.update_self]
        have htail : Chain nxt prv (some q) (nxt q) bs := h.2.2
        cases hbs : bs with
        | nil => rw [hnq, hbs]; rfl
        | cons y ys =>
          rw [hbs] at htail
          have hyn : y ≠ n := hx y (by rw [hbs]; simp)
          have hyq : y ≠ q := by rintro rfl; exact hqbs (by rw [hbs]; simp)
          refine ⟨by rw [hnq, hbs]; rfl, ?_, ?_⟩
          · rw [Function.update_of_ne hyn, hnq, hbs]
            exact Function.update_self y _ _
          · rw [hnxt y hyn hyq]
            refine htail.2.2.congr (fun x hx' => ?_) (fun x hx' => ?_)
            · refine hnxt x (hx x (by rw [hbs]; simp [hx'])) ?_
              rintro rfl
              exact hqbs (by rw [hbs]; simp [hx'])
            · refine hprv x (hx x (by rw [hbs]; simp [hx'])) ?_
              rw [hbs]
              rintro ⟨⟩
              exact (List.nodup_cons.mp htail.nodup).1 hx'
    | cons a as ih =>
      intro p hd h hx
      have ha := (List.nodup_cons.mp h.nodup).1
      have haq : a ≠ q := by rintro rfl; exact ha (by simp)
      have han : a ≠ n := hx a (by simp)
      refine ⟨h.1, (hprv a han ?_).trans h.2.1, ?_⟩
      · exact fun hb => ha (List.mem_append_right _
          (List.mem_cons_of_mem _ (List.mem_of_mem_head? hb)))
      · rw [hnxt a han haq]
        exact ih _ _ h.2.2 (fun x hx' => hx x (by simp [hx']))
  refine ⟨fun j => ?_, F.disjoint_update hn (fun x hx => ?_)⟩
  · by_cases hj : j = i
    · subst hj
      rw [Function.update_self]
      refine hchain as none (heads j) (hsplit ▸ F.chain j) (fun x hx => ?_)
      exact hne j x (by rw [hsplit]; exact hx)
    · rw [Function.update_of_ne hj]
      refine (F.chain j).congr (fun x hx => ?_) (fun x hx => ?_)
      · refine hnxt x (hne j x hx) ?_
        rintro rfl
        exact hj (F.disjoint j i x hx hq)
      · refine hprv x (hne j x hx) (fun hb => hj (F.disjoint j i x hx ?_))
        rw [hsplit]
        simp [List.mem_of_mem_head? hb]
  · rw [hsplit]
    simp only [List.mem_append, List.mem_cons] at hx ⊢
    tauto

end Family

end Surgery

end DList
