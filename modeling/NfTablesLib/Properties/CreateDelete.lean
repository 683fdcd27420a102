/-
  NfTablesLib.Properties.CreateDelete — the laws of `create` and `Delete` on the table
  store's registry (src/nftables.go).

  `create` keeps a record that has both its stores and registers a fresh one otherwise,
  so a second `create` finds what the first left; on a well-formed registry every record
  has both stores, so none is ever replaced.  `Delete` erases the record and prunes a
  family whose bucket it emptied, so on a well-formed registry it undoes a `Create` of a
  new record, the bucket `Create` allocated included.

  Main results:
    * `create_create` — `create` twice is `create` once, on every registry;
    * `prune_eraseRecord_insertRecord` — erasing a record just inserted under a new name and
      pruning its family gives back a registry with no empty bucket;
    * `create_delete_laws` — the laws together, over the store's calls on any connection,
      with the record `create` registers and the frame: `Create` and `Delete` leave every
      other record as it was.
-/
import NfTablesLib.Properties.WellFormed

namespace NfTablesLib

open Nftables

/-! ## §1. `create` is idempotent -/

namespace NfTables

variable (r : Registry) (n : String) (f : TableFamily)

/-- The record `create` returns has both its stores. -/
theorem create_stores : (create r n f).2.chains.isSome ∧ (create r n f).2.sets.isSome := by
  unfold create
  split
  · split_ifs with h
    · simpa using h
    · exact ⟨rfl, rfl⟩
  · exact ⟨rfl, rfl⟩

theorem create_create : create (create r n f).1 n f = create r n f :=
  @create_of_record _ n f (create r n f).2 (by simp) (create_stores r n f).1
    (create_stores r n f).2

/-- On a well-formed registry `create` returns the record it finds and keeps the registry. -/
theorem create_of_wellFormed {rec : NfTable} (hr : r.WellFormed) (h : r.record f n = some rec) :
    create r n f = (r, rec) := by
  obtain ⟨ch, hch, -⟩ := (hr.records f n rec h).chains_bound
  obtain ⟨s, hs, -⟩ := (hr.records f n rec h).sets_bound
  exact create_of_record r n f h (by simp [hch]) (by simp [hs])

end NfTables

/-! ## §2. Erasing a new record and pruning its family undoes its insertion -/

namespace Registry

variable {r : Registry} {f : TableFamily} {n : String}

/-- Erasing a record inserted under a new name leaves family `f` with the bucket it had,
    an empty one where it had none. -/
theorem eraseRecord_insertRecord (hn : r.record f n = none) (rec : NfTable) :
    (r.insertRecord f n rec).eraseRecord f n = r.insert f ((r.lookup f).getD ∅) := by
  have hb : ((r.lookup f).getD ∅).lookup n = none := by
    cases h : r.lookup f <;> simp_all [record, Finmap.lookup_empty]
  simp only [eraseRecord, insertRecord, Finmap.lookup_insert, Finmap.insert_insert,
    Finmap.erase_insert_of_not_mem (Finmap.lookup_eq_none.mp hb)]

/-- With no empty bucket in family `f`, erasing a record inserted under a new name and
    pruning `f` gives the registry back: an allocated bucket is pruned again, an existing
    one keeps its other records. -/
theorem prune_eraseRecord_insertRecord (hr : ∀ b, r.lookup f = some b → b ≠ ∅)
    (hn : r.record f n = none) (rec : NfTable) :
    ((r.insertRecord f n rec).eraseRecord f n).prune f = r := by
  rw [eraseRecord_insertRecord hn, prune, Finmap.lookup_insert, Option.getD_some]
  refine Finmap.ext_lookup fun g => ?_
  cases hf : r.lookup f with
  | none =>
    rw [Option.getD_none, if_pos ((mapLen_eq_zero _).mpr rfl)]
    by_cases hg : g = f
    · subst hg; rw [Finmap.lookup_erase, hf]
    · rw [Finmap.lookup_erase_ne hg, Finmap.lookup_insert_of_ne _ hg]
  | some b =>
    rw [Option.getD_some, if_neg fun h => hr b hf ((mapLen_eq_zero _).mp h)]
    by_cases hg : g = f
    · subst hg; rw [Finmap.lookup_insert, hf]
    · rw [Finmap.lookup_insert_of_ne _ hg]

end Registry

/-! ## §3. The store's calls -/

section Calls

variable {σ : Type} (conn : NetNS σ) (r : Registry) (f : TableFamily) (n : String) (c : σ)

/-- `Create` returns, and every record other than `(f, n)` is as it was. -/
theorem Create_frame : ∃ w', NfTables.Create conn n f ⟨⟨false, r⟩, c⟩ = .ok none w' ∧
    ∀ g m, ¬(g = f ∧ m = n) → w'.obj.tables.record g m = r.record g m :=
  ⟨_, NfTables.Create_run conn n f r c, fun g m h => by simp [h]⟩

/-- `Delete` returns, and every record other than `(f, n)` is as it was. -/
theorem Delete_frame : ∃ w', NfTables.Delete conn n f ⟨⟨false, r⟩, c⟩ = .ok none w' ∧
    ∀ g m, ¬(g = f ∧ m = n) → w'.obj.tables.record g m = r.record g m := by
  rw [NfTables.Delete_run]
  dsimp only
  split <;> exact ⟨_, rfl, fun g m h => by simp [h]⟩

/-- `Delete` after `Create` of a record the well-formed registry lacks gives the registry
    back, over any connection. -/
theorem Create_Delete_restores (hr : r.WellFormed) (hn : r.record f n = none) :
    ∃ c', (NfTables.Create conn n f >>= fun _ => NfTables.Delete conn n f) ⟨⟨false, r⟩, c⟩ =
      .ok none ⟨⟨false, r⟩, c'⟩ := by
  rw [bind_apply, NfTables.Create_run, NfTables.create_of_none _ _ _ hn]
  dsimp only
  rw [NfTables.Delete_run, Registry.prune_eraseRecord_insertRecord (hr.no_empty_bucket f) hn]
  split <;> exact ⟨_, rfl⟩

end Calls

/-- **The laws of `create` and `Delete`.**  For a well-formed registry `r`, every family
    `f` and name `n`, and over every connection: `create` twice returns what `create`
    once does, registry and record; the record `create` returns is the one its registry
    holds at `(f, n)`, and a record already there is returned and kept; when `(f, n)` is
    absent, `Delete` after `Create` gives `r` back; and `Create` and `Delete` each return
    and leave every record other than `(f, n)` as it was. -/
theorem create_delete_laws {σ : Type} (conn : NetNS σ) (r : Registry) (hr : r.WellFormed)
    (f : TableFamily) (n : String) (c : σ) :
    NfTables.create (NfTables.create r n f).1 n f = NfTables.create r n f ∧
    (NfTables.create r n f).1.record f n = some (NfTables.create r n f).2 ∧
    (∀ rec, r.record f n = some rec → NfTables.create r n f = (r, rec)) ∧
    (r.record f n = none →
      ∃ c', (NfTables.Create conn n f >>= fun _ => NfTables.Delete conn n f) ⟨⟨false, r⟩, c⟩ =
        .ok none ⟨⟨false, r⟩, c'⟩) ∧
    (∃ w', NfTables.Create conn n f ⟨⟨false, r⟩, c⟩ = .ok none w' ∧
      ∀ g m, ¬(g = f ∧ m = n) → w'.obj.tables.record g m = r.record g m) ∧
    (∃ w', NfTables.Delete conn n f ⟨⟨false, r⟩, c⟩ = .ok none w' ∧
      ∀ g m, ¬(g = f ∧ m = n) → w'.obj.tables.record g m = r.record g m) :=
  ⟨NfTables.create_create r n f, by rw [NfTables.create_record, if_pos ⟨rfl, rfl⟩],
    fun _ h => NfTables.create_of_wellFormed r n f hr h,
    Create_Delete_restores conn r f n c hr, Create_frame conn r f n c,
    Delete_frame conn r f n c⟩

/-- From the empty registry, over a kernel: `Delete "filter"` after `Create "filter"`
    leaves the registry empty. -/
theorem create_delete_laws_filter :
    (∅ : Registry).WellFormed ∧
      ∃ c', (NfTables.Create (kernelConn [] fun _ => []) "filter" TableFamily.IPv4 >>=
          fun _ => NfTables.Delete (kernelConn [] fun _ => []) "filter" TableFamily.IPv4)
        ⟨⟨false, ∅⟩, ⟨[], []⟩⟩ = .ok none ⟨⟨false, ∅⟩, c'⟩ :=
  ⟨Registry.wellFormed_empty,
    (create_delete_laws (kernelConn [] fun _ => []) ∅ Registry.wellFormed_empty
      TableFamily.IPv4 "filter" ⟨[], []⟩).2.2.2.1 (by simp [Registry.record, Finmap.lookup_empty])⟩

end NfTablesLib
