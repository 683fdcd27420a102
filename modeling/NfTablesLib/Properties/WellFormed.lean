/-
  NfTablesLib.Properties.WellFormed — the registry invariant, over every state a client
  can reach.

  `Registry.WellFormed` is the shape `create` and `Delete` maintain: no family keeps an
  empty bucket, every record sits under its own table's family and name with both stores
  bound to that table, and every set store holds its sets under their names, all of its
  table, with its mutex free between calls.

  Main results:
    * `Call.run_wellFormed` — every call that returns, from any well-formed state and
      over any connection, leaves the registry well formed;
    * `reachable_wellFormed` — hence every reachable registry is well formed.
-/
import NfTablesLib.Store.Calls
import NfTablesLib.Store.Kernel

namespace NfTablesLib

open Nftables

/-! ## §1. The invariant -/

/-- A set store between calls: its mutex is free and it holds its sets under their names,
    all of its own table. -/
structure NfSets.Keyed (s : NfSets) : Prop where
  free : s.locked = false
  named : ∀ k x, s.sets.lookup k = some x → x.name = k ∧ x.table = some s.table

/-- A record stored at `(f, n)`: its table is `(f, n)` and both its stores are bound to
    it. -/
structure RecordOk (f : TableFamily) (n : String) (rec : NfTable) : Prop where
  table_eq : rec.table = ⟨n, f⟩
  chains_bound : ∃ ch, rec.chains = some ch ∧ ch.table = rec.table
  sets_bound : ∃ s, rec.sets = some s ∧ s.table = rec.table ∧ s.Keyed

/-- The registry invariant. -/
structure Registry.WellFormed (r : Registry) : Prop where
  no_empty_bucket : ∀ f b, r.lookup f = some b → b ≠ ∅
  records : ∀ f n rec, r.record f n = some rec → RecordOk f n rec

/-! ## §2. The registry updates keep it -/

theorem Registry.wellFormed_empty : (∅ : Registry).WellFormed :=
  ⟨fun f b hb => by simp [Finmap.lookup_empty] at hb,
    fun f n rec h => by simp [Registry.record, Finmap.lookup_empty] at h⟩

theorem newSets_keyed (t : Table) : (NfSets.newSets t).Keyed :=
  ⟨rfl, fun k x h => by simp [NfSets.newSets, Finmap.lookup_empty] at h⟩

theorem freshRecord_ok (f : TableFamily) (n : String) :
    RecordOk f n (NfTables.freshRecord n f) :=
  ⟨rfl, ⟨_, rfl, rfl⟩, ⟨_, rfl, rfl, newSets_keyed _⟩⟩

theorem syncedRecord_ok (t : Table) (chains : List Chain) :
    RecordOk t.family t.name (NfTables.syncedRecord t chains) :=
  ⟨rfl, ⟨_, rfl, NfChains.absorb_table _ _⟩, ⟨_, rfl, rfl, newSets_keyed _⟩⟩

namespace Registry.WellFormed

variable {r : Registry} (hr : r.WellFormed) {f : TableFamily} {n : String}
include hr

theorem insertRecord {rec : NfTable} (hrec : RecordOk f n rec) :
    (r.insertRecord f n rec).WellFormed where
  no_empty_bucket g b hb := by
    rw [lookup_insertRecord] at hb
    split_ifs at hb with hg
    · cases hb
      intro he
      have : n ∈ (((r.lookup f).getD ∅).insert n rec) := Finmap.mem_insert.mpr (.inl rfl)
      rw [he] at this
      exact Finmap.not_mem_empty this
    · exact hr.no_empty_bucket g b hb
  records g m rec' h := by
    rw [record_insertRecord] at h
    split_ifs at h with hgm
    · obtain ⟨rfl, rfl⟩ := hgm; cases h; exact hrec
    · exact hr.records g m rec' h

theorem erase_prune : ((r.eraseRecord f n).prune f).WellFormed where
  no_empty_bucket g b hb := by
    by_cases hg : g = f
    · subst hg; exact lookup_prune_self _ _ hb
    · rw [lookup_prune _ _ _ hg, lookup_eraseRecord _ _ _ _ hg] at hb
      exact hr.no_empty_bucket g b hb
  records g m rec h := by
    rw [record_prune, record_eraseRecord] at h
    split_ifs at h
    exact hr.records g m rec h

theorem modifyRecord {h : NfTable → NfTable}
    (hh : ∀ rec, r.record f n = some rec → RecordOk f n (h rec)) :
    (r.modifyRecord f n h).WellFormed := by
  unfold Registry.modifyRecord
  split
  · next rec hrec => exact hr.insertRecord (hh rec hrec)
  · exact hr

theorem create (n : String) (f : TableFamily) : (NfTables.create r n f).1.WellFormed := by
  unfold NfTables.create
  split
  · split_ifs
    · exact hr
    · exact hr.insertRecord (freshRecord_ok f n)
  · exact hr.insertRecord (freshRecord_ok f n)

end Registry.WellFormed

/-! ## §3. Set-store calls keep their store keyed -/

section SetCalls

variable {σ : Type} (conn : NetNS σ)

/-- From a keyed store, a call that returns leaves a keyed store of the same table. -/
def KeepsKeyed {α : Type} (op : GoM NfSets σ α) : Prop :=
  ∀ s c a s' c', s.Keyed → op ⟨s, c⟩ = .ok a ⟨s', c'⟩ → s'.table = s.table ∧ s'.Keyed

theorem KeepsKeyed.of_returns {α : Type} {op : GoM NfSets σ α}
    (hop : ∀ s c a w', op ⟨s, c⟩ = .ok a w' → w'.obj = s) : KeepsKeyed op := by
  intro s c a s' c' hs h
  cases hop s c a _ h
  exact ⟨rfl, hs⟩

theorem KeepsKeyed.map {α β : Type} {op : GoM NfSets σ α} (g : α → β) (hop : KeepsKeyed op) :
    KeepsKeyed (g <$> op) := by
  intro s c b s' c' hs h
  obtain ⟨a, ha, -⟩ := map_ok h
  exact hop s c a s' c' hs ha

theorem CreateSet_keepsKeyed (attrs : SetAttributes) (elements : List SetElement) (id : UInt32) :
    KeepsKeyed (NfSets.CreateSet conn attrs elements id) := by
  intro s c a s' c' hs h
  rcases NfSets.CreateSet_returns conn h with ⟨hw, -⟩ | ⟨hl, -, hw⟩ <;> cases hw
  · exact ⟨rfl, hs⟩
  · refine ⟨rfl, hs.free, fun k x hx => ?_⟩
    by_cases hk : k = attrs.name
    · subst hk
      rw [Finmap.lookup_insert] at hx
      cases hx
      exact ⟨rfl, rfl⟩
    · rw [Finmap.lookup_insert_of_ne _ hk] at hx
      exact hs.named k x hx

theorem DelSet_keepsKeyed (name : String) : KeepsKeyed (NfSets.DelSet conn name) := by
  intro s c a s' c' hs h
  rcases NfSets.DelSet_returns conn h with hw | ⟨-, -, hw⟩ <;> cases hw
  · exact ⟨rfl, hs⟩
  · refine ⟨rfl, hs.free, fun k x hx => ?_⟩
    by_cases hk : k = name
    · subst hk; simp [Finmap.lookup_erase] at hx
    · rw [Finmap.lookup_erase_ne hk] at hx
      exact hs.named k x hx

end SetCalls

/-! ## §4. Every call keeps the invariant -/

section Step

variable {σ : Type} (conn : NetNS σ)

theorem RecordOk.withSets {f : TableFamily} {n : String} {rec : NfTable} {s s' : NfSets}
    (hrec : RecordOk f n rec) (hs : rec.sets = some s) (ht : s'.table = s.table)
    (hk : s'.Keyed) : RecordOk f n { rec with sets := some s' } := by
  obtain ⟨s0, hs0, ht0, -⟩ := hrec.sets_bound
  rw [hs] at hs0
  cases hs0
  exact ⟨hrec.table_eq, hrec.chains_bound, ⟨s', rfl, ht.trans ht0, hk⟩⟩

/-- A set-store call through `TableSets` keeps the registry well formed. -/
theorem setCall_wellFormed {name : String} {f : TableFamily} {op : GoM NfSets σ (Option GoError)}
    (hop : KeepsKeyed op) {r : Registry} {c : σ} {a : Option GoError} {w' : World NfTables σ}
    (hr : r.WellFormed) (h : NfTables.setCall name f op ⟨⟨false, r⟩, c⟩ = .ok a w') :
    w'.obj.tables.WellFormed := by
  obtain ⟨-, hw | ⟨rec, s, s', c', hrec, hs, hop', hw⟩⟩ := NfTables.setCall_returns h <;>
    rw [hw]
  · exact hr
  · refine hr.modifyRecord fun rec' hrec' => ?_
    rw [hrec] at hrec'
    cases hrec'
    have hok := hr.records f name rec hrec
    obtain ⟨s0, hs0, -, hk0⟩ := hok.sets_bound
    rw [hs] at hs0
    cases hs0
    obtain ⟨ht, hk⟩ := hop s c a s' c' hk0 hop'
    exact hok.withSets hs ht hk

theorem sync_wellFormed {f : TableFamily} {r : Registry} {c : σ} {a : Option GoError}
    {w' : World NfTables σ} (hr : r.WellFormed)
    (h : NfTables.Sync conn f ⟨⟨false, r⟩, c⟩ = .ok a w') : w'.obj.tables.WellFormed := by
  obtain ⟨-, ⟨hw, -⟩ | ⟨ts, c1, hts⟩⟩ := NfTables.Sync_returns conn h
  · rw [hw]; exact hr
  · refine (NfTables.syncTables_preserves conn (fun r r' => r.WellFormed → r'.WellFormed)
      (fun _ h => h) (fun _ _ _ h₁ h₂ h => h₂ (h₁ h)) f ts ?_ false r c1 a w' hts).2 hr
    rintro t - r chains rfl - hr
    exact hr.insertRecord (syncedRecord_ok t chains)

/-- **Step lemma.** A call that returns, with or without an error, keeps the registry well
    formed. -/
theorem Call.run_wellFormed (call : Call) {w w' : World NfTables σ} {a : Option GoError}
    (hw : w.obj.tables.WellFormed) (h : call.run conn w = .ok a w') :
    w'.obj.tables.WellFormed := by
  obtain ⟨⟨l, r⟩, c⟩ := w
  cases l
  case true => rw [Call.run_held conn call h]; exact hw
  cases call
  case create name f => cases h; exact hw.create name f
  case createImm name f => cases h; exact hw.create name f
  case delete name f => rw [(NfTables.Delete_returns conn h).2]; exact hw.erase_prune
  case deleteImm name f => rw [NfTables.DeleteImm_returns conn h]; exact hw.erase_prune
  case exist name f =>
    obtain ⟨b, hb, -⟩ := map_ok h
    rw [NfTables.Exist_returns conn hb]; exact hw
  case get f =>
    obtain ⟨b, hb, -⟩ := map_ok h
    rw [NfTables.Get_returns conn hb]; exact hw
  case table name f =>
    obtain ⟨b, hb, -⟩ := map_ok h
    rw [NfTables.Table, NfTables.tableStore_run] at hb; cases hb; exact hw
  case tableChains name f =>
    obtain ⟨b, hb, -⟩ := map_ok h
    rw [NfTables.TableChains, NfTables.tableStore_run] at hb; cases hb; exact hw
  case tableSets name f =>
    obtain ⟨b, hb, -⟩ := map_ok h
    rw [NfTables.TableSets, NfTables.tableStore_run] at hb; cases hb; exact hw
  case sync f => exact sync_wellFormed conn hw h
  case createSet => exact setCall_wellFormed ((CreateSet_keepsKeyed conn _ _ _).map _) hw h
  case delSet => exact setCall_wellFormed (DelSet_keepsKeyed conn _) hw h
  case setExist =>
    exact setCall_wellFormed
      ((KeepsKeyed.of_returns fun _ _ _ _ h => NfSets.Exist_returns conn h).map _) hw h
  case getSetByName =>
    exact setCall_wellFormed
      ((KeepsKeyed.of_returns fun _ _ _ _ h => NfSets.GetSetByName_returns conn h).map _) hw h
  case getSets =>
    exact setCall_wellFormed
      ((KeepsKeyed.of_returns fun _ _ _ _ h => NfSets.GetSets_returns conn h).map _) hw h
  case getSetElements =>
    exact setCall_wellFormed
      ((KeepsKeyed.of_returns fun _ _ _ _ h => NfSets.GetSetElements_returns conn h).map _) hw h
  case setAddElements =>
    exact setCall_wellFormed
      (KeepsKeyed.of_returns fun _ _ _ _ h => NfSets.changeElements_returns conn h) hw h
  case setDelElements =>
    exact setCall_wellFormed
      (KeepsKeyed.of_returns fun _ _ _ _ h => NfSets.changeElements_returns conn h) hw h
  case syncSets =>
    exact setCall_wellFormed
      (KeepsKeyed.of_returns fun _ _ _ _ h => NfSets.Sync_returns conn h) hw h

end Step

/-- **Run lemma.** Every registry a client can reach, over any connection, is well
    formed. -/
theorem reachable_wellFormed {σ : Type} {conn : NetNS σ} {w : World NfTables σ}
    (h : Reachable conn w) : w.obj.tables.WellFormed := by
  induction h with
  | init c => exact Registry.wellFormed_empty
  | step call a _ hrun ih => exact Call.run_wellFormed conn call ih hrun

theorem reachable_wellFormed_after_create :
    Reachable (kernelConn [] fun _ => [])
        ⟨⟨false, (NfTables.create ∅ "filter" TableFamily.IPv4).1⟩,
          ⟨[], [.add ⟨"filter", TableFamily.IPv4⟩]⟩⟩ ∧
      (NfTables.create ∅ "filter" TableFamily.IPv4).1.WellFormed :=
  have h : Reachable (kernelConn [] fun _ => [])
      ⟨⟨false, (NfTables.create ∅ "filter" TableFamily.IPv4).1⟩,
        ⟨[], [.add ⟨"filter", TableFamily.IPv4⟩]⟩⟩ :=
    .step (Call.create "filter" TableFamily.IPv4) none (.init (⟨[], []⟩ : Kernel)) rfl
  ⟨h, reachable_wellFormed h⟩

end NfTablesLib
