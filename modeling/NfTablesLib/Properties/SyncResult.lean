/-
  NfTablesLib.Properties.SyncResult — what `Sync(f)` does, against a kernel whose listings
  do not change while it runs.

  `Sync` only adds: every kernel table of family `f` the registry lacks gets a record whose
  chain store holds the kernel's chains of that table; every other record, local-only
  tables included, and every other family are left as they were.  A new record's set store
  is synced by the set store's `Sync`, which locks its mutex a second time as soon as it
  absorbs a set.  So `Sync(f)` blocks for good on the first new table whose kernel set
  listing is not empty, and returns exactly when no new table has a set.

  Main results:
    * `syncTable_snapshot` — one new table, step by step: it returns with the kernel's
      chains and no set, or blocks on the first set the kernel lists;
    * `syncTables_snapshot` — the loop, by induction over the kernel's listing;
    * `Sync_blocks_on_kernel_sets` — a new kernel table with a set makes `Sync` block;
    * `Sync_absorbs_set_free_tables` — otherwise `Sync` returns, and adds exactly the new
      kernel tables, each with the kernel's chains and an empty set store.
-/
import NfTablesLib.Properties.ErrorPaths

namespace NfTablesLib

open Nftables

/-- The kernel's sets of a table by name, the first one listed under each name. -/
def setsByName (sets : List Set) : Finmap fun _ : String => Set :=
  sets.foldl (fun m s => if s.name ∈ m then m else m.insert s.name s) ∅

/-- The record the spec asks `Sync` to create for kernel table `t`: its chain store holds
    the kernel's chains of `t`, its set store the kernel's sets of `t`. -/
def kernelRecord (t : Table) (chains : List Chain) (sets : List Set) : NfTable :=
  ⟨t, some (NfChains.absorb chains (NfChains.newChains t)), some ⟨t, false, setsByName sets⟩⟩

theorem firstUnknown_empty (l : List Set) : NfSets.firstUnknown ∅ l = l.head? := by
  cases l <;> simp [NfSets.firstUnknown, List.find?_cons, Finmap.not_mem_empty]

/-- A record inserted under one name leaves every other name of the family as it was. -/
theorem record_of_insertRecord_none {r : Registry} {f : TableFamily} {n m : String}
    {rec : NfTable} (h : (r.insertRecord f n rec).record f m = none) : r.record f m = none := by
  rw [Registry.record_insertRecord] at h
  split_ifs at h
  exact h

section Snapshot

variable {σ : Type} (conn : NetNS σ) (chains : List Chain) (sets : Table → List Set)
  (hC : ∀ c, conn.listChains c = (.ok chains, c)) (hS : ∀ t c, conn.getSets t c = (.ok (sets t), c))
include hC hS

/-- One new table, step by step: `Sync` registers it and its chain store absorbs the
    kernel's chains; its set store's `Sync` then returns when the kernel lists no set for it,
    and blocks on the first set otherwise. -/
theorem syncTable_snapshot {t : Table} {l : Bool} {r : Registry} {c : σ}
    (hnew : r.record t.family t.name = none) :
    (sets t = [] ∧ NfTables.syncTable conn t ⟨⟨l, r⟩, c⟩ =
        .ok none ⟨⟨l, r.insertRecord t.family t.name (kernelRecord t chains [])⟩, c⟩) ∨
      (sets t ≠ [] ∧ ∃ w', NfTables.syncTable conn t ⟨⟨l, r⟩, c⟩ = .error .deadlock w') := by
  set r1 := r.insertRecord t.family t.name (NfTables.freshRecord t.name t.family)
  have h1 : (r1.record t.family t.name).bind NfTable.chains = some (NfChains.newChains t) := by
    simp [r1, NfTables.freshRecord]
  set r2 := r.insertRecord t.family t.name (NfTables.syncedRecord t chains)
  have h2 : (r2.record t.family t.name).bind NfTable.sets = some (NfSets.newSets t) := by
    simp [r2, NfTables.syncedRecord]
  have hr2 : r1.modifyRecord t.family t.name
      (fun rec => { rec with chains := some (NfChains.absorb chains (NfChains.newChains t)) })
      = r2 := by
    simp [r1, r2, NfTables.freshRecord, NfTables.syncedRecord]
  simp only [NfTables.syncTable, bind_apply, modifyObj_apply, NfTables.create_of_none _ _ _ hnew,
    NfTables.onChains, NfTables.onStore_run _ _ _ _ _ _ _ _ _ h1, NfChains.Sync_run, hC, hr2,
    NfTables.onSets, NfTables.onStore_run _ _ _ _ _ _ _ _ _ h2]
  simp only [NfSets.newSets, NfSets.Sync_run, hS, firstUnknown_empty]
  cases hs : sets t with
  | nil =>
    refine .inl ⟨rfl, ?_⟩
    simp [r2, NfTables.syncedRecord, kernelRecord, setsByName, NfSets.newSets]
  | cons s _ => exact .inr ⟨List.cons_ne_nil _ _, _, rfl⟩

/-- `Sync`'s loop over the kernel's listing `ts`, when it returns: it reports no error and
    leaves the connection as it found it; each kernel table of family `f` the registry lacked
    is added with the kernel's chains and no set, and nothing else changes. -/
theorem syncTables_snapshot {f : TableFamily} (ts : List Table) {l : Bool} {r : Registry} {c : σ}
    {a : Option GoError} {w' : World NfTables σ}
    (h : NfTables.syncTables conn f ts ⟨⟨l, r⟩, c⟩ = .ok a w') :
    a = none ∧ w'.obj.locked = l ∧ w'.conn = c ∧
    (∀ g n, w'.obj.tables.record g n =
      if g = f ∧ r.record g n = none ∧ (⟨n, f⟩ : Table) ∈ ts then
        some (kernelRecord ⟨n, f⟩ chains [])
      else r.record g n) ∧
    ∀ g, g ≠ f → w'.obj.tables.lookup g = r.lookup g := by
  induction ts generalizing r with
  | nil => cases h; simp
  | cons t ts ih =>
    rw [NfTables.syncTables_cons] at h
    split_ifs at h with hc
    · obtain ⟨rfl, hnew⟩ := hc
      rcases syncTable_snapshot conn chains sets hC hS (l := l) (c := c) hnew with
        ⟨-, hok⟩ | ⟨-, w1, hdl⟩
      · rw [hok] at h
        obtain ⟨ha, hl, hc, ih₁, ih₂⟩ := ih h
        refine ⟨ha, hl, hc, fun g n => ?_, fun g hg => ?_⟩
        · simp only [ih₁, Registry.record_insertRecord, List.mem_cons]
          by_cases hg : g = t.family
          · subst hg
            by_cases hn : n = t.name
            · subst hn; simp [hnew]
            · have ht : (⟨n, t.family⟩ : Table) ≠ t := fun h => hn (congrArg Table.name h)
              simp [hn, ht]
          · simp [hg]
        · rw [ih₂ g hg]; exact Registry.lookup_insertRecord .. ▸ if_neg hg
      · rw [hdl] at h; cases h
    · obtain ⟨ha, hl, hc', ih₁, ih₂⟩ := ih h
      refine ⟨ha, hl, hc', fun g n => ?_, ih₂⟩
      rw [ih₁]
      refine if_congr ⟨fun ⟨hg, hr, hm⟩ => ⟨hg, hr, List.mem_cons_of_mem _ hm⟩, ?_⟩ rfl rfl
      rintro ⟨rfl, hr, hm⟩
      rcases List.mem_cons.mp hm with rfl | hm
      · exact (hc ⟨rfl, hr⟩).elim
      · exact ⟨rfl, hr, hm⟩

/-- The loop blocks when it meets a table of family `f` the registry lacks and whose
    kernel set listing is not empty: the tables before it either are skipped or have no set
    and return. -/
theorem syncTables_blocks {f : TableFamily} (ts : List Table) {l : Bool} {r : Registry} {c : σ}
    (hb : ∃ t ∈ ts, t.family = f ∧ r.record f t.name = none ∧ sets t ≠ []) :
    ∃ w', NfTables.syncTables conn f ts ⟨⟨l, r⟩, c⟩ = .error .deadlock w' := by
  induction ts generalizing r with
  | nil => obtain ⟨_, h, -⟩ := hb; cases h
  | cons t ts ih =>
    obtain ⟨t', ht', hf', hn', hs'⟩ := hb
    rw [NfTables.syncTables_cons]
    split_ifs with hc
    · obtain ⟨rfl, hnew⟩ := hc
      rcases syncTable_snapshot conn chains sets hC hS (l := l) (c := c) hnew with
        ⟨hs, hok⟩ | ⟨-, w1, hdl⟩
      · rw [hok]
        have hne : t' ≠ t := fun h => hs' (h ▸ hs)
        refine ih ⟨t', (List.mem_cons.mp ht').resolve_left hne, hf', ?_, hs'⟩
        have hother : ¬(t.family = t.family ∧ t'.name = t.name) :=
          fun ⟨_, hn⟩ => hne (congrArg₂ Table.mk hn hf')
        rwa [Registry.record_insertRecord, if_neg hother]
      · rw [hdl]; exact ⟨w1, rfl⟩
    · have hne : t' ≠ t := by rintro rfl; exact hc ⟨hf', hn'⟩
      exact ih ⟨t', (List.mem_cons.mp ht').resolve_left hne, hf', hn', hs'⟩

/-- The loop returns when no table of family `f` the registry lacks has a set in the
    kernel. -/
theorem syncTables_returns {f : TableFamily} (ts : List Table) {l : Bool} {r : Registry} {c : σ}
    (hfree : ∀ t ∈ ts, t.family = f → r.record f t.name = none → sets t = []) :
    ∃ a w', NfTables.syncTables conn f ts ⟨⟨l, r⟩, c⟩ = .ok a w' := by
  induction ts generalizing r with
  | nil => exact ⟨_, _, rfl⟩
  | cons t ts ih =>
    rw [NfTables.syncTables_cons]
    split_ifs with hc
    · obtain ⟨rfl, hnew⟩ := hc
      rcases syncTable_snapshot conn chains sets hC hS (l := l) (c := c) hnew with
        ⟨-, hok⟩ | ⟨hs, -⟩
      · rw [hok]
        exact ih fun t' ht' hf' hn' =>
          hfree t' (List.mem_cons_of_mem _ ht') hf' (record_of_insertRecord_none hn')
      · exact absurd (hfree t (List.mem_cons_self _ _) rfl hnew) hs
    · exact ih fun t' ht' => hfree t' (List.mem_cons_of_mem _ ht')

/-- **`Sync` blocks on a new kernel table with sets.**  Against a kernel whose listings stay
    fixed while it runs, a `Sync(f)` called with the table store's mutex free never returns
    once the kernel lists a table of family `f` that the registry lacks and for which the
    kernel lists a set: the set store's `Sync` of the new record locks its mutex a second
    time. -/
theorem Sync_blocks_on_kernel_sets (f : TableFamily) (ts : List Table) {r : Registry}
    {c c1 : σ} (hL : conn.listTables c = (.ok ts, c1)) {t : Table} (ht : t ∈ ts)
    (hf : t.family = f) (hnew : r.record f t.name = none) (hs : sets t ≠ []) :
    ∃ w', NfTables.Sync conn f ⟨⟨false, r⟩, c⟩ = .error .deadlock w' := by
  rw [NfTables.Sync_run, hL]
  exact syncTables_blocks conn chains sets hC hS ts ⟨t, ht, hf, hnew, hs⟩

/-- **`Sync` returns when no new kernel table has sets, and only adds.**  Against a kernel
    whose listings stay fixed while it runs, a `Sync(f)` called with the table store's mutex
    free, when no kernel table of family `f` that the registry lacks has a set in the
    kernel, returns no error with the mutex free; it keeps every record, local-only tables
    included, and adds one record for each kernel table of family `f` the registry lacks,
    holding the kernel's chains of that table and an empty set store; every other family is
    unchanged. -/
theorem Sync_absorbs_set_free_tables (f : TableFamily) (ts : List Table) {r : Registry}
    {c c1 : σ} (hL : conn.listTables c = (.ok ts, c1))
    (hfree : ∀ t ∈ ts, t.family = f → r.record f t.name = none → sets t = []) :
    ∃ w', NfTables.Sync conn f ⟨⟨false, r⟩, c⟩ = .ok none w' ∧ w'.obj.locked = false ∧
      w'.conn = c1 ∧
      (∀ g n, w'.obj.tables.record g n =
        if g = f ∧ r.record g n = none ∧ (⟨n, f⟩ : Table) ∈ ts then
          some (kernelRecord ⟨n, f⟩ chains [])
        else r.record g n) ∧
      ∀ g, g ≠ f → w'.obj.tables.lookup g = r.lookup g := by
  rw [NfTables.Sync_run, hL]
  obtain ⟨a, w', h⟩ := syncTables_returns conn chains sets hC hS ts (l := false) (c := c1) hfree
  obtain ⟨rfl, hl, hc, hrec, hother⟩ := syncTables_snapshot conn chains sets hC hS ts h
  exact ⟨w', h, hl, hc, hrec, hother⟩

end Snapshot

theorem Sync_blocks_on_kernel_sets_filter :
    ∃ w', NfTables.Sync (kernelConn [] fun t => [blocklist t]) TableFamily.IPv4
      ⟨⟨false, ∅⟩, ⟨[⟨"filter", TableFamily.IPv4⟩], []⟩⟩ = .error .deadlock w' :=
  Sync_blocks_on_kernel_sets (kernelConn [] fun t => [blocklist t]) [] (fun t => [blocklist t])
    (fun _ => rfl) (fun _ _ => rfl) TableFamily.IPv4 [⟨"filter", TableFamily.IPv4⟩] rfl
    (List.mem_singleton_self _) rfl (by simp [Registry.record, Finmap.lookup_empty])
    (List.cons_ne_nil _ _)

theorem Sync_absorbs_set_free_tables_filter :
    ∃ w', NfTables.Sync (kernelConn [] fun _ => []) TableFamily.IPv4
        ⟨⟨false, ∅⟩, ⟨[⟨"filter", TableFamily.IPv4⟩], []⟩⟩ = .ok none w' ∧
      w'.obj.tables.record TableFamily.IPv4 "filter" =
        some (kernelRecord ⟨"filter", TableFamily.IPv4⟩ [] []) := by
  obtain ⟨w', h, -, -, hrec, -⟩ := Sync_absorbs_set_free_tables (kernelConn [] fun _ => []) []
    (fun _ => []) (fun _ => rfl) (fun _ _ => rfl) TableFamily.IPv4 [⟨"filter", TableFamily.IPv4⟩]
    (r := ∅) (c := ⟨[⟨"filter", TableFamily.IPv4⟩], []⟩) rfl (fun _ _ _ _ => rfl)
  refine ⟨w', h, ?_⟩
  rw [hrec, if_pos ⟨rfl, by simp [Registry.record, Finmap.lookup_empty], List.mem_singleton_self _⟩]

end NfTablesLib
