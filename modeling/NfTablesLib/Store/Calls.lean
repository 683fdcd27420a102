/-
  NfTablesLib.Store.Calls — the public calls of both stores as one language, and what a
  call that returns has done to the registry.

  A client reaches a set store through the interface `TableSets` returns, so a set-store
  call is modelled as `TableSets` followed by the call on the store the record holds.
  `Reachable` collects the states a client sees between calls: a call that deadlocks or
  panics never returns, and a run of calls continues only after a call that returned,
  with or without an error.

  Main results: `syncTables_preserves` (one induction over `Sync`'s loop, reused for
  every relation the loop keeps) and the inversions `Sync_returns`, `setCall_returns`,
  `Call.run_held`.
-/
import NfTablesLib.Store.Tables

namespace NfTablesLib

open Nftables

/-- The error a call reports, if any. -/
def errOf {α : Type} : Except GoError α → Option GoError
  | .ok _ => none
  | .error err => some err

/-- The public calls of the table store (`Dump` aside), and the calls of the set store of
    table `(f, name)`. -/
inductive Call where
  | create (name : String) (f : TableFamily)
  | createImm (name : String) (f : TableFamily)
  | delete (name : String) (f : TableFamily)
  | deleteImm (name : String) (f : TableFamily)
  | exist (name : String) (f : TableFamily)
  | get (f : TableFamily)
  | table (name : String) (f : TableFamily)
  | tableChains (name : String) (f : TableFamily)
  | tableSets (name : String) (f : TableFamily)
  | sync (f : TableFamily)
  | createSet (name : String) (f : TableFamily) (attrs : SetAttributes)
      (elements : List SetElement) (id : UInt32)
  | delSet (name : String) (f : TableFamily) (set : String)
  | setExist (name : String) (f : TableFamily) (set : String)
  | getSetByName (name : String) (f : TableFamily) (set : String)
  | getSets (name : String) (f : TableFamily)
  | getSetElements (name : String) (f : TableFamily) (set : String)
  | setAddElements (name : String) (f : TableFamily) (set : String) (elements : List SetElement)
  | setDelElements (name : String) (f : TableFamily) (set : String) (elements : List SetElement)
  | syncSets (name : String) (f : TableFamily)

namespace NfTables

variable {σ : Type} (conn : NetNS σ)

/-- A call of the set store of table `(f, name)`, through the interface `TableSets`
    returns. -/
def setCall (name : String) (f : TableFamily) (op : GoM NfSets σ (Option GoError)) :
    GoM NfTables σ (Option GoError) := do
  match ← TableSets name f with
  | .error err => return some err
  | .ok _ => onSets f name op

end NfTables

open NfTables in
/-- A call, run against the table store; its result is the error it reports. -/
def Call.run {σ : Type} (conn : NetNS σ) : Call → GoM NfTables σ (Option GoError)
  | .create name f => Create conn name f
  | .createImm name f => CreateImm conn name f
  | .delete name f => Delete conn name f
  | .deleteImm name f => DeleteImm conn name f
  | .exist name f => (fun _ => none) <$> Exist conn name f
  | .get f => errOf <$> Get conn f
  | .table name f => errOf <$> NfTables.Table name f
  | .tableChains name f => errOf <$> TableChains name f
  | .tableSets name f => errOf <$> TableSets name f
  | .sync f => Sync conn f
  | .createSet name f attrs elements id =>
    setCall name f (errOf <$> NfSets.CreateSet conn attrs elements id)
  | .delSet name f set => setCall name f (NfSets.DelSet conn set)
  | .setExist name f set => setCall name f ((fun _ => none) <$> NfSets.Exist conn set)
  | .getSetByName name f set => setCall name f (errOf <$> NfSets.GetSetByName conn set)
  | .getSets name f => setCall name f (errOf <$> NfSets.GetSets conn)
  | .getSetElements name f set => setCall name f (errOf <$> NfSets.GetSetElements conn set)
  | .setAddElements name f set elements => setCall name f (NfSets.SetAddElements conn set elements)
  | .setDelElements name f set elements => setCall name f (NfSets.SetDelElements conn set elements)
  | .syncSets name f => setCall name f (NfSets.Sync conn)

/-- A client's calls made one after another, each once the previous one returned; `none`
    when one of them never returns. -/
def runCalls {σ : Type} (conn : NetNS σ) : List Call → World NfTables σ → Option (World NfTables σ)
  | [], w => some w
  | call :: calls, w =>
    match call.run conn w with
    | .ok _ w' => runCalls conn calls w'
    | .error _ _ => none

/-- The states a client sees between calls, from an empty table store over connection
    `conn`. -/
inductive Reachable {σ : Type} (conn : NetNS σ) : World NfTables σ → Prop where
  | init (c : σ) : Reachable conn ⟨⟨false, ∅⟩, c⟩
  | step {w w' : World NfTables σ} (call : Call) (a : Option GoError) :
      Reachable conn w → call.run conn w = .ok a w' → Reachable conn w'

/-! ## What `Sync` does -/

namespace NfTables

variable {σ : Type} (conn : NetNS σ)

/-- The record `Sync` leaves for a kernel table `t` the registry lacked, once its chain
    store has absorbed `chains`: its set store is still empty, since a set store's `Sync`
    that absorbs a set never returns. -/
def syncedRecord (t : Nftables.Table) (chains : List Chain) : NfTable :=
  ⟨t, some (NfChains.absorb chains (NfChains.newChains t)), some (NfSets.newSets t)⟩

theorem syncTable_returns {t : Nftables.Table} {l : Bool} {r : Registry} {c : σ}
    {a : Option GoError} {w' : World NfTables σ} (hnew : r.record t.family t.name = none)
    (h : syncTable conn t ⟨⟨l, r⟩, c⟩ = .ok a w') :
    ∃ chains, w'.obj = ⟨l, r.insertRecord t.family t.name (syncedRecord t chains)⟩ := by
  set r1 := r.insertRecord t.family t.name (freshRecord t.name t.family)
  have h1 : (r1.record t.family t.name).bind NfTable.chains = some (NfChains.newChains t) := by
    simp [r1, freshRecord]
  simp only [syncTable, bind_apply, modifyObj_apply, create_of_none _ _ _ hnew, onChains,
    onStore_run _ _ _ _ _ _ _ _ _ h1, NfChains.Sync_run] at h
  rcases hq : conn.listChains c with ⟨_ | chains, c1⟩ <;> simp only [hq] at h
  · cases h
    exact ⟨[], by simp [r1, syncedRecord, freshRecord, NfChains.absorb]⟩
  · set r2 := r.insertRecord t.family t.name (syncedRecord t chains)
    have h2 : (r2.record t.family t.name).bind NfTable.sets = some (NfSets.newSets t) := by
      simp [r2, syncedRecord]
    have hr2 : r1.modifyRecord t.family t.name
        (fun rec => { rec with chains := some (NfChains.absorb chains (NfChains.newChains t)) })
        = r2 := by
      simp [r1, r2, freshRecord, syncedRecord]
    simp only [hr2, onSets, onStore_run _ _ _ _ _ _ _ _ _ h2] at h
    cases hs : NfSets.Sync conn ⟨NfSets.newSets t, c1⟩ with
    | ok b w'' =>
      rw [hs] at h
      cases h
      refine ⟨chains, ?_⟩
      simp [NfSets.Sync_returns conn hs, r2, syncedRecord]
    | error e w'' => rw [hs] at h; cases h

/-- One induction over `Sync`'s loop over the kernel's listing `ts`: a reflexive,
    transitive relation that holds across every table of `ts` the loop registers holds across
    the whole loop, which leaves the mutex as it found it. -/
theorem syncTables_preserves (P : Registry → Registry → Prop) (hrefl : ∀ r, P r r)
    (htrans : ∀ r₁ r₂ r₃, P r₁ r₂ → P r₂ r₃ → P r₁ r₃) (f : TableFamily)
    (ts : List Nftables.Table)
    (hstep : ∀ t ∈ ts, ∀ r chains, t.family = f → r.record f t.name = none →
      P r (r.insertRecord f t.name (syncedRecord t chains)))
    (l : Bool) (r : Registry) (c : σ) (a : Option GoError)
    (w' : World NfTables σ) (h : syncTables conn f ts ⟨⟨l, r⟩, c⟩ = .ok a w') :
    w'.obj.locked = l ∧ P r w'.obj.tables := by
  induction ts generalizing r c with
  | nil => cases h; exact ⟨rfl, hrefl r⟩
  | cons t ts ih =>
    have ih' := ih fun t' ht' => hstep t' (List.mem_cons_of_mem _ ht')
    rw [syncTables_cons] at h
    split_ifs at h with hc
    · obtain ⟨hf, hnew⟩ := hc
      subst hf
      cases hs : syncTable conn t ⟨⟨l, r⟩, c⟩ with
      | ok b w1 =>
        obtain ⟨chains, hw1⟩ := syncTable_returns conn hnew hs
        obtain ⟨obj1, c1⟩ := w1
        cases hw1
        have hP := hstep t (List.mem_cons_self _ _) r chains rfl hnew
        rw [hs] at h
        cases b with
        | none =>
          obtain ⟨hl, hP'⟩ := ih' _ _ h
          exact ⟨hl, htrans _ _ _ hP hP'⟩
        | some err => cases h; exact ⟨rfl, hP⟩
      | error e w1 => rw [hs] at h; cases h
    · exact ih' r c h

theorem Sync_returns {f : TableFamily} {l : Bool} {r : Registry} {c : σ} {a : Option GoError}
    {w' : World NfTables σ} (h : Sync conn f ⟨⟨l, r⟩, c⟩ = .ok a w') :
    l = false ∧ ((w'.obj = ⟨true, r⟩ ∧ a.isSome) ∨
      ∃ ts c1, syncTables conn f ts ⟨⟨false, r⟩, c1⟩ = .ok a w') := by
  cases l
  · rw [Sync_run] at h
    split at h
    · cases h; exact ⟨rfl, .inl ⟨rfl, rfl⟩⟩
    · exact ⟨rfl, .inr ⟨_, _, h⟩⟩
  · cases h

theorem setCall_returns {name : String} {f : TableFamily} {op : GoM NfSets σ (Option GoError)}
    {l : Bool} {r : Registry} {c : σ} {a : Option GoError} {w' : World NfTables σ}
    (h : setCall name f op ⟨⟨l, r⟩, c⟩ = .ok a w') :
    l = false ∧ (w'.obj = ⟨false, r⟩ ∨
      ∃ rec s s' c', r.record f name = some rec ∧ rec.sets = some s ∧
        op ⟨s, c⟩ = .ok a ⟨s', c'⟩ ∧
        w'.obj = ⟨false, r.modifyRecord f name fun rec => { rec with sets := some s' }⟩) := by
  cases l
  · simp only [setCall, bind_apply, TableSets, tableStore_run] at h
    refine ⟨rfl, ?_⟩
    cases hr : r.record f name with
    | none => simp only [hr] at h; cases h; exact .inl rfl
    | some rec =>
      simp only [hr] at h
      cases hs : rec.sets with
      | none => simp [onSets, onStore, hr, hs] at h
      | some s =>
        have hb : (r.record f name).bind NfTable.sets = some s := by simp [hr, hs]
        rw [onSets, onStore_run _ _ _ _ _ _ _ _ _ hb] at h
        cases hop : op ⟨s, c⟩ with
        | ok b w'' =>
          rw [hop] at h
          cases h
          exact .inr ⟨rec, s, w''.obj, w''.conn, rfl, hs, hop, rfl⟩
        | error e w'' => rw [hop] at h; cases h
  · cases h

end NfTables

/-- With the table store's mutex held, only `Exist`, which takes no lock, returns. -/
theorem Call.run_held {σ : Type} (conn : NetNS σ) (call : Call) {r : Registry} {c : σ}
    {a : Option GoError} {w' : World NfTables σ} (h : call.run conn ⟨⟨true, r⟩, c⟩ = .ok a w') :
    w'.obj = ⟨true, r⟩ := by
  cases call
  case exist name f =>
    simp only [Call.run, map_apply] at h
    cases he : NfTables.Exist conn name f ⟨⟨true, r⟩, c⟩ with
    | ok b w'' => rw [he] at h; cases h; exact NfTables.Exist_returns conn he
    | error e w'' => rw [he] at h; cases h
  all_goals cases h

end NfTablesLib
