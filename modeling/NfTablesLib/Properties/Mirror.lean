/-
  NfTablesLib.Properties.Mirror — the registry against the kernel's tables, over the kernel
  connection of `Store.Kernel`, where `Flush` applies the queued table operations.

  The registry mirrors the tables the kernel will have once the queue is flushed.  `Create`
  and `CreateImm` keep this, and so does `Delete` of a table the kernel already has or the
  queue does not add.  `Sync` reads the kernel, not the queue: it keeps the mirror only
  when no kernel table of its family is queued for deletion.

  Main results:
    * `mirrorCall_step` — one call keeps the mirror;
    * `registry_mirrors_kernel_after_flush` — after any run of such calls, at a point where
      the queue is empty, the registry's tables are the kernel's;
    * `sync_resurrects_deleted_table` — a `Sync` between a `Delete` and the flush brings
      the deleted table back into the registry.
-/
import NfTablesLib.Properties.SyncResult

namespace NfTablesLib

open Nftables

/-- The registry has a record for exactly the tables of `ts`. -/
def Mirrors (r : Registry) (ts : List Table) : Prop :=
  ∀ t : Table, (r.record t.family t.name).isSome ↔ t ∈ ts

/-- The calls of the mirror, each with the condition under which it keeps it: a delete of
    a table the kernel lacks must not find it queued for adding, and a sync must not find a
    kernel table of its family queued for deletion. -/
def MirrorCall (k : Kernel) : Call → Prop
  | .create _ _ | .createImm _ _ => True
  | .delete name f | .deleteImm name f => (⟨name, f⟩ : Table) ∈ k.pending → ⟨name, f⟩ ∈ k.tables
  | .sync f => ∀ t ∈ k.tables, t.family = f → t ∈ k.pending
  | _ => False

/-- A run of mirror calls over the kernel connection, each of which returns. -/
inductive MirrorRun (chains : List Chain) (sets : Table → List Set) :
    World NfTables Kernel → World NfTables Kernel → Prop where
  | nil (w : World NfTables Kernel) : MirrorRun chains sets w w
  | cons {w w₁ w' : World NfTables Kernel} (call : Call) (a : Option GoError) :
      MirrorCall w.conn call → call.run (kernelConn chains sets) w = .ok a w₁ →
      MirrorRun chains sets w₁ w' → MirrorRun chains sets w w'

theorem create_table {r : Registry} (hr : r.WellFormed) (n : String) (f : TableFamily) :
    (NfTables.create r n f).2.table = ⟨n, f⟩ := by
  unfold NfTables.create
  split
  · next rec hrec =>
    split_ifs
    · exact (hr.records f n rec hrec).table_eq
    · rfl
  · rfl

section Steps

variable {r : Registry} {ts : List Table}

theorem Mirrors.create (hm : Mirrors r ts) (n : String) (f : TableFamily) :
    Mirrors (NfTables.create r n f).1 ((⟨n, f⟩ : Table) :: ts) := by
  intro t
  rw [NfTables.create_record, List.mem_cons]
  by_cases ht : t = ⟨n, f⟩
  · subst ht; simp
  · have : ¬(t.family = f ∧ t.name = n) := fun ⟨h₁, h₂⟩ => ht (by rw [← h₁, ← h₂])
    simp [this, ht, hm t]

theorem Mirrors.erase_prune (hm : Mirrors r ts) (n : String) (f : TableFamily) :
    Mirrors ((r.eraseRecord f n).prune f) (ts.filter (· ≠ ⟨n, f⟩)) := by
  intro t
  rw [Registry.record_prune, Registry.record_eraseRecord, List.mem_filter]
  by_cases ht : t = ⟨n, f⟩
  · subst ht; simp
  · have : ¬(t.family = f ∧ t.name = n) := fun ⟨h₁, h₂⟩ => ht (by rw [← h₁, ← h₂])
    simp [this, ht, hm t]

theorem Mirrors.congr {ts' : List Table} (hm : Mirrors r ts) (h : ∀ t, t ∈ ts ↔ t ∈ ts') :
    Mirrors r ts' := fun t => (hm t).trans (h t)

end Steps

section Calls

variable {chains : List Chain} {sets : Table → List Set}

/-- **Step lemma.** A mirror call made under its condition keeps the registry well formed
    and mirroring the kernel the queue leads to. -/
theorem mirrorCall_step {call : Call} {w w' : World NfTables Kernel} {a : Option GoError}
    (hwf : w.obj.tables.WellFormed) (hm : Mirrors w.obj.tables w.conn.pending)
    (hc : MirrorCall w.conn call) (h : call.run (kernelConn chains sets) w = .ok a w') :
    w'.obj.tables.WellFormed ∧ Mirrors w'.obj.tables w'.conn.pending := by
  refine ⟨Call.run_wellFormed _ call hwf h, ?_⟩
  obtain ⟨⟨l, r⟩, k⟩ := w
  cases l
  case true => cases call <;> first | exact hc.elim | cases h
  cases call
  case create n f =>
    simp only [Call.run, NfTables.Create_run, kernelConn_addTable] at h
    cases h
    refine (hm.create n f).congr fun t => ?_
    rw [create_table hwf, mem_pending_add, List.mem_cons]
  case createImm n f =>
    simp only [Call.run, NfTables.CreateImm_run, kernelConn_addTable, kernelConn_flush] at h
    cases h
    refine (hm.create n f).congr fun t => ?_
    rw [pending_nil, create_table hwf, mem_pending_add, List.mem_cons]
  case delete n f =>
    simp only [Call.run, NfTables.Delete_run, kernelConn_listTables, kernelConn_delTable] at h
    cases h
    refine (hm.erase_prune n f).congr fun t => ?_
    split_ifs with hk
    · rw [mem_pending_del, List.mem_filter, decide_eq_true_iff, and_comm]
    · rw [List.mem_filter, decide_eq_true_iff]
      exact ⟨And.left, fun ht => ⟨ht, by rintro rfl; exact hk (hc ht)⟩⟩
  case deleteImm n f =>
    simp only [Call.run, NfTables.DeleteImm_run, NfTables.Delete_run, kernelConn_listTables,
      kernelConn_delTable, kernelConn_flush] at h
    split_ifs at h with hk <;> cases h <;> refine (hm.erase_prune n f).congr fun t => ?_
    · rw [pending_nil, mem_pending_del, List.mem_filter, decide_eq_true_iff, and_comm]
    · rw [pending_nil, List.mem_filter, decide_eq_true_iff]
      exact ⟨And.left, fun ht => ⟨ht, by rintro rfl; exact hk (hc ht)⟩⟩
  case sync f =>
    simp only [Call.run, NfTables.Sync_run, kernelConn_listTables] at h
    obtain ⟨-, -, hk, hrec, -⟩ :=
      syncTables_snapshot (kernelConn chains sets) chains sets (fun _ => rfl) (fun _ _ => rfl) _ h
    rw [hk]
    intro t
    rw [hrec, ← hm t]
    split_ifs with ht
    · obtain ⟨rfl, -, hmem⟩ := ht
      simp only [Option.isSome_some, true_iff]
      rw [hm t]
      exact hc t hmem rfl
    · rfl
  all_goals exact hc.elim

/-- **Run lemma.** A run of mirror calls keeps the registry well formed and mirroring the
    kernel the queue leads to. -/
theorem MirrorRun.mirrors {w w' : World NfTables Kernel} (hrun : MirrorRun chains sets w w')
    (hwf : w.obj.tables.WellFormed) (hm : Mirrors w.obj.tables w.conn.pending) :
    w'.obj.tables.WellFormed ∧ Mirrors w'.obj.tables w'.conn.pending := by
  induction hrun with
  | nil => exact ⟨hwf, hm⟩
  | cons call a hc h _ ih =>
    obtain ⟨hwf', hm'⟩ := mirrorCall_step hwf hm hc h
    exact ih hwf' hm'

/-- **The mirror at a flush.**  From a well-formed registry whose tables are the kernel's,
    with nothing queued, after any run of mirror calls that leaves the queue empty, the
    registry's tables are the kernel's. -/
theorem registry_mirrors_kernel_after_flush {w w' : World NfTables Kernel}
    (hwf : w.obj.tables.WellFormed) (hm : Mirrors w.obj.tables w.conn.tables)
    (hq : w.conn.queue = []) (hrun : MirrorRun chains sets w w') (hq' : w'.conn.queue = []) :
    Mirrors w'.obj.tables w'.conn.tables := by
  have hp : ∀ k : Kernel, k.queue = [] → k.pending = k.tables := by rintro ⟨ts, q⟩ rfl; rfl
  have := (hrun.mirrors hwf (by rwa [hp _ hq])).2
  rwa [hp _ hq'] at this

end Calls

/-- `CreateImm a`, `Create b` (queued), `Sync` while `b`'s add is queued, then `DeleteImm a`,
    whose flush applies both: the registry and the kernel end with `b` alone. -/
theorem registry_mirrors_kernel_after_flush_sync_delete :
    Mirrors (((NfTables.create (NfTables.create ∅ "a" TableFamily.IPv4).1 "b"
        TableFamily.IPv4).1.eraseRecord TableFamily.IPv4 "a").prune TableFamily.IPv4)
      [⟨"b", TableFamily.IPv4⟩] :=
  @registry_mirrors_kernel_after_flush [] (fun _ => []) ⟨⟨false, ∅⟩, ⟨[], []⟩⟩
    ⟨⟨false, ((NfTables.create (NfTables.create ∅ "a" TableFamily.IPv4).1 "b"
        TableFamily.IPv4).1.eraseRecord TableFamily.IPv4 "a").prune TableFamily.IPv4⟩,
      ⟨[⟨"b", TableFamily.IPv4⟩], []⟩⟩
    Registry.wellFormed_empty (fun _ => by simp [Registry.record, Finmap.lookup_empty]) rfl
    (.cons (.createImm "a" TableFamily.IPv4) none trivial rfl <|
      .cons (.create "b" TableFamily.IPv4) none trivial rfl <|
      .cons (.sync TableFamily.IPv4) none (by unfold MirrorCall; decide) rfl <|
      .cons (.deleteImm "a" TableFamily.IPv4) none (by unfold MirrorCall; decide) rfl <| .nil _) rfl

theorem sync_resurrects_deleted_table :
    (runCalls (kernelConn [] fun _ => [])
        [.createImm "a" TableFamily.IPv4, .delete "a" TableFamily.IPv4, .sync TableFamily.IPv4,
          .createImm "b" TableFamily.IPv4]
        ⟨⟨false, ∅⟩, ⟨[], []⟩⟩).map
      (fun w => (w.conn, (w.obj.tables.record TableFamily.IPv4 "a").isSome)) =
      some (⟨[⟨"b", TableFamily.IPv4⟩], []⟩, true) := by
  -- `a` is created and flushed, then deleted: the delete is queued
  have h₁ : (Call.createImm "a" TableFamily.IPv4).run (kernelConn [] fun _ => [])
      ⟨⟨false, ∅⟩, ⟨[], []⟩⟩ =
      .ok none ⟨⟨false, (NfTables.create ∅ "a" TableFamily.IPv4).1⟩,
        ⟨[⟨"a", TableFamily.IPv4⟩], []⟩⟩ := rfl
  have h₂ : (Call.delete "a" TableFamily.IPv4).run (kernelConn [] fun _ => [])
      ⟨⟨false, (NfTables.create ∅ "a" TableFamily.IPv4).1⟩, ⟨[⟨"a", TableFamily.IPv4⟩], []⟩⟩ =
      .ok none ⟨⟨false, ∅⟩, ⟨[⟨"a", TableFamily.IPv4⟩], [.del ⟨"a", TableFamily.IPv4⟩]⟩⟩ := by
    simp only [Call.run, NfTables.Delete_run, kernelConn_listTables, kernelConn_delTable]
    congr 3
  -- `Sync` lists the kernel, which still has `a`, and registers it again
  have h₃ : (Call.sync TableFamily.IPv4).run (kernelConn [] fun _ => [])
      ⟨⟨false, ∅⟩, ⟨[⟨"a", TableFamily.IPv4⟩], [.del ⟨"a", TableFamily.IPv4⟩]⟩⟩ =
      .ok none ⟨⟨false, (∅ : Registry).insertRecord TableFamily.IPv4 "a"
          (kernelRecord ⟨"a", TableFamily.IPv4⟩ [] [])⟩,
        ⟨[⟨"a", TableFamily.IPv4⟩], [.del ⟨"a", TableFamily.IPv4⟩]⟩⟩ := rfl
  -- the next flush applies the queued delete
  have h₄ : (Call.createImm "b" TableFamily.IPv4).run (kernelConn [] fun _ => [])
      ⟨⟨false, (∅ : Registry).insertRecord TableFamily.IPv4 "a"
          (kernelRecord ⟨"a", TableFamily.IPv4⟩ [] [])⟩,
        ⟨[⟨"a", TableFamily.IPv4⟩], [.del ⟨"a", TableFamily.IPv4⟩]⟩⟩ =
      .ok none ⟨⟨false, ((∅ : Registry).insertRecord TableFamily.IPv4 "a"
          (kernelRecord ⟨"a", TableFamily.IPv4⟩ [] [])).insertRecord TableFamily.IPv4 "b"
          (NfTables.freshRecord "b" TableFamily.IPv4)⟩, ⟨[⟨"b", TableFamily.IPv4⟩], []⟩⟩ := rfl
  simp only [runCalls, h₁, h₂, h₃, h₄, Option.map_some']
  simp

end NfTablesLib
