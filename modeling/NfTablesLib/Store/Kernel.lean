/-
  NfTablesLib.Store.Kernel — a kernel behind the connection: its tables, and the queue of
  table operations that only `Flush` applies, in order.  Listing tables reads the kernel,
  not the queue.  Chains and sets are fixed listings that the table operations do not
  touch, and every call succeeds.

  Main results: `mem_pending_add` and `mem_pending_del`, what a queued operation does to
  the tables a flush leaves.
-/
import NfTablesLib.Store.Basic

namespace NfTablesLib

open Nftables

/-- A queued table operation. -/
inductive TableOp where
  | add (t : Table)
  | del (t : Table)
  deriving DecidableEq, Repr

/-- What a flushed operation does to the kernel's tables. -/
def TableOp.apply : TableOp → List Table → List Table
  | .add t, ts => if t ∈ ts then ts else ts ++ [t]
  | .del t, ts => ts.filter (· ≠ t)

/-- Modelled from the spec: the kernel's tables and the operations queued on the
    connection since the last flush. -/
structure Kernel where
  tables : List Table
  queue : List TableOp
  deriving DecidableEq, Repr

/-- The kernel's tables once the queue is flushed. -/
def Kernel.pending (k : Kernel) : List Table :=
  k.queue.foldl (fun ts op => op.apply ts) k.tables

/-- Modelled from the spec: the connection to kernel `k`, whose chain listing is `chains`
    and whose set listing of table `t` is `sets t`. -/
def kernelConn (chains : List Chain) (sets : Table → List Set) : NetNS Kernel where
  addTable t k := { k with queue := k.queue ++ [.add t] }
  delTable t k := { k with queue := k.queue ++ [.del t] }
  flush k := (none, ⟨k.pending, []⟩)
  listTables k := (.ok k.tables, k)
  listChains k := (.ok chains, k)
  addSet _ _ k := (none, k)
  delSet _ k := k
  getSets t k := (.ok (sets t), k)
  getSetByName t name k :=
    match (sets t).find? fun s => s.name = name with
    | some s => (.ok s, k)
    | none => (.error (.conn ("no set " ++ name)), k)
  getSetElements _ k := (.ok [], k)
  setAddElements _ _ k := (none, k)
  setDeleteElements _ _ k := (none, k)

section Calls

variable (chains : List Chain) (sets : Table → List Set) (t : Table) (k : Kernel)

@[simp] theorem kernelConn_addTable :
    (kernelConn chains sets).addTable t k = { k with queue := k.queue ++ [.add t] } := rfl

@[simp] theorem kernelConn_delTable :
    (kernelConn chains sets).delTable t k = { k with queue := k.queue ++ [.del t] } := rfl

@[simp] theorem kernelConn_flush : (kernelConn chains sets).flush k = (none, ⟨k.pending, []⟩) := rfl

@[simp] theorem kernelConn_listTables : (kernelConn chains sets).listTables k = (.ok k.tables, k) :=
  rfl

end Calls

theorem mem_apply (op : TableOp) (ts : List Table) (t' : Table) :
    t' ∈ op.apply ts ↔ match op with
      | .add t => t' = t ∨ t' ∈ ts
      | .del t => t' ≠ t ∧ t' ∈ ts := by
  cases op with
  | add t =>
    simp only [TableOp.apply]
    split_ifs with h
    · constructor
      · exact .inr
      · rintro (rfl | h'); exacts [h, h']
    · simp [or_comm]
  | del t => simp [TableOp.apply, and_comm]

theorem mem_pending_add (k : Kernel) (t t' : Table) :
    t' ∈ Kernel.pending { k with queue := k.queue ++ [.add t] } ↔ t' = t ∨ t' ∈ k.pending := by
  simp only [Kernel.pending, List.foldl_append, List.foldl_cons, List.foldl_nil]
  exact mem_apply (.add t) _ t'

theorem mem_pending_del (k : Kernel) (t t' : Table) :
    t' ∈ Kernel.pending { k with queue := k.queue ++ [.del t] } ↔ t' ≠ t ∧ t' ∈ k.pending := by
  simp only [Kernel.pending, List.foldl_append, List.foldl_cons, List.foldl_nil]
  exact mem_apply (.del t) _ t'

@[simp] theorem pending_nil (ts : List Table) : Kernel.pending ⟨ts, []⟩ = ts := rfl

end NfTablesLib
