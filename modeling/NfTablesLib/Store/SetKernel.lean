/-
  NfTablesLib.Store.SetKernel — a kernel behind the connection, as a set store sees it: its
  sets, and the queue of set additions and deletions that only `Flush` applies, in order.

  `GetSets` and `GetSetByName` read the kernel, not the queue.  A flushed addition replaces
  the kernel's set of the same table and name, a flushed deletion removes it.  Elements are
  not kept: the element calls succeed and change nothing.  Tables and chains are not listed.

  Main results: `findSet_apply_add` and `findSet_apply_del`, what a flushed addition or
  deletion does to the lookup of a set by table and name; `keysNodup_apply`, that a flushed
  operation never gives the kernel two sets of one table and name.
-/
import NfTablesLib.Store.Basic

namespace NfTablesLib

open Nftables

/-! ## §1. The kernel's sets -/

/-- The first set of `ss` of table `t` named `name`. -/
def findSet (ss : List Set) (t : Table) (name : String) : Option Set :=
  ss.find? fun s => s.table = some t ∧ s.name = name

/-- A queued set operation. -/
inductive SetOp where
  | add (s : Set)
  | del (s : Set)
  deriving DecidableEq, Repr

/-- What a flushed operation does to the kernel's sets: both drop the sets of the same table
    and name, and an addition then appends the new one. -/
def SetOp.apply : SetOp → List Set → List Set
  | .add s, ss => ss.filter (fun x => ¬(x.table = s.table ∧ x.name = s.name)) ++ [s]
  | .del s, ss => ss.filter fun x => ¬(x.table = s.table ∧ x.name = s.name)

/-- Modelled from the spec: the kernel's sets and the set operations queued on the
    connection since the last flush. -/
structure SetKernel where
  sets : List Set
  queue : List SetOp
  deriving DecidableEq, Repr

/-- The kernel's sets once the queue is flushed. -/
def SetKernel.pending (k : SetKernel) : List Set :=
  k.queue.foldl (fun ss op => op.apply ss) k.sets

/-- Modelled from the spec: the connection to a kernel of sets.  A `nil` set handed to
    `DelSet` enqueues nothing. -/
def setKernelConn : NetNS SetKernel where
  addTable _ k := k
  delTable _ k := k
  flush k := (none, ⟨k.pending, []⟩)
  listTables k := (.ok [], k)
  listChains k := (.ok [], k)
  addSet s _ k := (none, { k with queue := k.queue ++ [.add s] })
  delSet s k :=
    match s with
    | some s => { k with queue := k.queue ++ [.del s] }
    | none => k
  getSets t k := (.ok (k.sets.filter fun s => s.table = some t), k)
  getSetByName t name k :=
    match findSet k.sets t name with
    | some s => (.ok s, k)
    | none => (.error (.conn ("no set " ++ name)), k)
  getSetElements _ k := (.ok [], k)
  setAddElements _ _ k := (none, k)
  setDeleteElements _ _ k := (none, k)

section Calls

variable (s : Set) (ss : List Set) (k : SetKernel) (t : Table) (name : String)

@[simp] theorem setKernelConn_addSet (elements : List SetElement) :
    setKernelConn.addSet s elements k = (none, { k with queue := k.queue ++ [.add s] }) := rfl

@[simp] theorem setKernelConn_delSet :
    setKernelConn.delSet (some s) k = { k with queue := k.queue ++ [.del s] } := rfl

@[simp] theorem setKernelConn_flush : setKernelConn.flush k = (none, ⟨k.pending, []⟩) := rfl

@[simp] theorem setKernelConn_getSets :
    setKernelConn.getSets t k = (.ok (k.sets.filter fun s => s.table = some t), k) := rfl

theorem setKernelConn_getSetByName_some {x : Set} (h : findSet k.sets t name = some x) :
    setKernelConn.getSetByName t name k = (.ok x, k) := by
  simp only [setKernelConn, h]

@[simp] theorem pending_nil_queue : (⟨ss, []⟩ : SetKernel).pending = ss := rfl

@[simp] theorem pending_single (op : SetOp) :
    (⟨ss, [op]⟩ : SetKernel).pending = op.apply ss := rfl

end Calls

/-! ## §2. Lookups after a flush -/

section Lookup

variable {s x : Set} {ss : List Set} {t : Table} {name : String}

theorem findSet_some (h : findSet ss t name = some x) :
    x ∈ ss ∧ x.table = some t ∧ x.name = name := by
  have := List.find?_some h
  simp only [decide_eq_true_eq] at this
  exact ⟨List.mem_of_find?_eq_some h, this⟩

theorem findSet_eq_none :
    findSet ss t name = none ↔ ∀ x ∈ ss, ¬(x.table = some t ∧ x.name = name) := by
  simp [findSet]

/-- Dropping the sets of `s`'s table and name leaves the lookup of any other table or name
    alone, and loses the lookup of `s`'s own. -/
theorem findSet_filter (s : Set) (ss : List Set) (t : Table) (name : String) :
    findSet (ss.filter fun x => ¬(x.table = s.table ∧ x.name = s.name)) t name =
      if s.table = some t ∧ s.name = name then none else findSet ss t name := by
  simp only [findSet, List.find?_filter]
  split_ifs with hs
  · obtain ⟨hst, hsn⟩ := hs
    rw [List.find?_eq_none]
    intro x _ hx
    simp only [Bool.and_eq_true, decide_eq_true_eq] at hx
    exact hx.1 ⟨hx.2.1.trans hst.symm, hx.2.2.trans hsn.symm⟩
  · congr 1
    funext x
    by_cases hx : x.table = some t ∧ x.name = name
    · have : ¬(x.table = s.table ∧ x.name = s.name) := fun ⟨h₁, h₂⟩ =>
        hs ⟨h₁ ▸ hx.1, h₂ ▸ hx.2⟩
      rw [decide_eq_true hx, decide_eq_true this]; rfl
    · rw [decide_eq_false hx]; simp

theorem findSet_apply_add (s : Set) (ss : List Set) (t : Table) (name : String) :
    findSet ((SetOp.add s).apply ss) t name =
      if s.table = some t ∧ s.name = name then some s else findSet ss t name := by
  rw [SetOp.apply, findSet, List.find?_append, ← findSet, findSet_filter]
  split_ifs with hs <;> simp [hs]

theorem findSet_apply_del (s : Set) (ss : List Set) (t : Table) (name : String) :
    findSet ((SetOp.del s).apply ss) t name =
      if s.table = some t ∧ s.name = name then none else findSet ss t name :=
  findSet_filter s ss t name

/-- Deleting a set the kernel does not have changes nothing. -/
theorem apply_del_of_absent (h : findSet ss t name = none) (ht : s.table = some t)
    (hn : s.name = name) : (SetOp.del s).apply ss = ss := by
  rw [SetOp.apply, List.filter_eq_self]
  intro x hx
  simp only [decide_eq_true_eq]
  rw [ht, hn]
  exact findSet_eq_none.mp h x hx

/-- Deleting a set just added under a table and name the kernel lacked gives back the
    kernel's sets. -/
theorem apply_del_add_of_absent (h : findSet ss t name = none) (ht : s.table = some t)
    (hn : s.name = name) : (SetOp.del s).apply ((SetOp.add s).apply ss) = ss := by
  have hdel := apply_del_of_absent h ht hn
  simp only [SetOp.apply] at hdel ⊢
  rw [hdel, List.filter_append, hdel]
  simp

end Lookup

/-! ## §3. One set per table and name -/

/-- A list of sets with at most one set of each table and name. -/
def KeysNodup (ss : List Set) : Prop := (ss.map fun s => (s.table, s.name)).Nodup

/-- A flushed operation never gives the kernel two sets of one table and name. -/
theorem keysNodup_apply (op : SetOp) {ss : List Set} (h : KeysNodup ss) :
    KeysNodup (op.apply ss) := by
  have hf : ∀ s : Set, KeysNodup (ss.filter fun x => ¬(x.table = s.table ∧ x.name = s.name)) :=
    fun s => h.sublist ((List.filter_sublist _).map _)
  cases op with
  | add s =>
    unfold KeysNodup SetOp.apply
    rw [List.map_append, List.nodup_append]
    refine ⟨hf s, List.nodup_singleton _, ?_⟩
    simp only [List.map_singleton, List.disjoint_singleton, List.mem_map, List.mem_filter,
      decide_eq_true_eq, not_exists, not_and]
    intro x hx hk
    exact hx.2 (Prod.ext_iff.mp hk).1 (Prod.ext_iff.mp hk).2
  | del s => exact hf s

end NfTablesLib
