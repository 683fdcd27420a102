/-
  NfTablesLib.Store.Tables — the table store, `nfTables` (src/nftables.go).

  The store keeps a two-level registry, family → name → record, behind one mutex; each
  record holds its table and the table's chain and set stores.  `Create` registers a
  record (`create`) and enqueues the table; `Delete` drops the record, enqueues a delete
  when the kernel lists the table (`Exist`) and prunes an emptied family; the `Imm`
  forms flush.  `Sync` lists the kernel's tables under the lock, then, unlocked, registers
  every table of the family the registry lacks and syncs its chain and set stores.

  Main results: one lemma per call, giving its run on a store whose mutex is free
  (`Create_run`, `Delete_run`, `Sync_run`, ...), over the registry lemmas of §1.
-/
import NfTablesLib.Store.Sets

namespace NfTablesLib

open Nftables

/-! ## §1. Registry updates -/

namespace Registry

/-- `nft.tables[f][n] = rec`, the family bucket allocated when absent. -/
def insertRecord (r : Registry) (f : TableFamily) (n : String) (rec : NfTable) : Registry :=
  r.insert f (((r.lookup f).getD ∅).insert n rec)

/-- `delete(nft.tables[f], n)`: a no-op when the bucket or the name is absent. -/
def eraseRecord (r : Registry) (f : TableFamily) (n : String) : Registry :=
  match r.lookup f with
  | some bucket => r.insert f (bucket.erase n)
  | none => r

/-- `if len(nft.tables[f]) == 0 { delete(nft.tables, f) }`. -/
def prune (r : Registry) (f : TableFamily) : Registry :=
  if mapLen ((r.lookup f).getD ∅) = 0 then r.erase f else r

/-- Rewrites the record at `(f, n)`, if there is one. -/
def modifyRecord (r : Registry) (f : TableFamily) (n : String) (g : NfTable → NfTable) :
    Registry :=
  match r.record f n with
  | some rec => r.insertRecord f n (g rec)
  | none => r

variable (r : Registry) (f g : TableFamily) (n m : String) {b : Finmap fun _ : String => NfTable}

theorem lookup_insertRecord (rec : NfTable) :
    (r.insertRecord f n rec).lookup g =
      if g = f then some (((r.lookup f).getD ∅).insert n rec) else r.lookup g := by
  split_ifs with hg
  · subst hg; exact Finmap.lookup_insert _
  · exact Finmap.lookup_insert_of_ne _ hg

theorem lookup_eraseRecord (hg : g ≠ f) : (r.eraseRecord f n).lookup g = r.lookup g := by
  unfold eraseRecord
  split
  · exact Finmap.lookup_insert_of_ne _ hg
  · rfl

theorem lookup_prune (hg : g ≠ f) : (r.prune f).lookup g = r.lookup g := by
  unfold prune
  split_ifs
  · exact Finmap.lookup_erase_ne hg
  · rfl

/-- After `prune f`, the family `f` has no bucket or a non-empty one. -/
theorem lookup_prune_self (hb : (r.prune f).lookup f = some b) : b ≠ ∅ := by
  unfold prune at hb
  split_ifs at hb with h
  · simp [Finmap.lookup_erase] at hb
  · rintro rfl
    simp [hb, mapLen, Finmap.keys_empty] at h

@[simp] theorem record_insertRecord (rec : NfTable) :
    (r.insertRecord f n rec).record g m = if g = f ∧ m = n then some rec else r.record g m := by
  by_cases hg : g = f
  · subst hg
    by_cases hm : m = n
    · subst hm; simp [record, insertRecord, Finmap.lookup_insert]
    · cases h : r.lookup g <;>
        simp [record, insertRecord, h, hm, Finmap.lookup_insert, Finmap.lookup_insert_of_ne _ hm]
  · simp [record, insertRecord, Finmap.lookup_insert_of_ne _ hg, hg]

@[simp] theorem record_eraseRecord :
    (r.eraseRecord f n).record g m = if g = f ∧ m = n then none else r.record g m := by
  unfold eraseRecord
  split
  · next bucket h =>
    by_cases hg : g = f
    · subst hg
      by_cases hm : m = n
      · subst hm; simp [record, Finmap.lookup_erase]
      · simp [record, h, hm, Finmap.lookup_erase_ne hm]
    · simp [record, Finmap.lookup_insert_of_ne _ hg, hg]
  · next h =>
    split_ifs with hgm
    · obtain ⟨rfl, rfl⟩ := hgm; simp [record, h]
    · rfl

theorem mapLen_eq_zero {α β : Type} [DecidableEq α] (b : Finmap fun _ : α => β) :
    mapLen b = 0 ↔ b = ∅ := by
  rw [mapLen, Finset.card_eq_zero]
  constructor
  · intro h
    refine Finmap.ext_lookup fun x => ?_
    rw [Finmap.lookup_empty, Finmap.lookup_eq_none, ← Finmap.mem_keys, h]
    exact Finset.not_mem_empty x
  · rintro rfl
    exact Finmap.keys_empty

@[simp] theorem record_prune : (r.prune f).record g m = r.record g m := by
  unfold prune
  split_ifs with h
  · by_cases hg : g = f
    · subst hg
      cases hb : r.lookup g <;> simp_all [record, mapLen_eq_zero, Finmap.lookup_empty]
    · simp [record, Finmap.lookup_erase_ne hg]
  · rfl

@[simp] theorem record_modifyRecord (h : NfTable → NfTable) :
    (r.modifyRecord f n h).record g m =
      if g = f ∧ m = n then (r.record f n).map h else r.record g m := by
  unfold modifyRecord
  split
  · next rec hr => simp only [record_insertRecord, Option.map_some', hr]
  · next hr =>
    split_ifs with hgm
    · obtain ⟨rfl, rfl⟩ := hgm; simp [hr]
    · rfl

theorem insertRecord_insertRecord (rec rec' : NfTable) :
    (r.insertRecord f n rec).insertRecord f n rec' = r.insertRecord f n rec' := by
  refine Finmap.ext_lookup fun g => ?_
  simp only [lookup_insertRecord]
  split_ifs <;> simp [Finmap.insert_insert]

@[simp] theorem modifyRecord_insertRecord (rec : NfTable) (h : NfTable → NfTable) :
    (r.insertRecord f n rec).modifyRecord f n h = r.insertRecord f n (h rec) := by
  simp [modifyRecord, insertRecord_insertRecord]

end Registry

/-! ## §2. The chain store -/

namespace NfChains

variable {σ : Type} (conn : NetNS σ)

/-- Modelled from the spec: `newChains` (chains.go is absent from src/), an empty chain
    store for table `t`. -/
def newChains (t : Table) : NfChains := ⟨t, ∅⟩

/-- Modelled from the spec: the chains of the kernel's listing that belong to the store's
    table and that it does not know yet are added by name. -/
def absorb (chains : List Chain) (nfc : NfChains) : NfChains :=
  chains.foldl (fun nfc ch =>
    if ch.table = nfc.table ∧ ch.name ∉ nfc.chains then
      { nfc with chains := nfc.chains.insert ch.name ch }
    else nfc) nfc

/-- Modelled from the spec: the chain store's `Sync` lists the kernel's chains and absorbs
    those of its table. -/
def Sync : GoM NfChains σ (Option GoError) := do
  match ← callConn conn.listChains with
  | .error err => return some err
  | .ok chains =>
    modifyObj (absorb chains)
    return none

theorem absorb_table (chains : List Chain) (nfc : NfChains) :
    (absorb chains nfc).table = nfc.table := by
  induction chains generalizing nfc with
  | nil => rfl
  | cons ch chains ih =>
    simp only [absorb, List.foldl_cons] at ih ⊢
    split_ifs <;> rw [ih]

theorem Sync_run (nfc : NfChains) (c : σ) :
    Sync conn ⟨nfc, c⟩ =
      match conn.listChains c with
      | (.error err, c1) => .ok (some err) ⟨nfc, c1⟩
      | (.ok chains, c1) => .ok none ⟨absorb chains nfc, c1⟩ := by
  simp only [Sync, bind_apply, callConn_apply]
  rcases conn.listChains c with ⟨_ | _, c1⟩ <;> rfl

end NfChains

/-! ## §3. The table store -/

namespace NfTables

variable {σ : Type} (conn : NetNS σ)

/-- `nft.Lock()`. -/
def Lock : GoM NfTables σ Unit := mutexLock NfTables.locked fun s b => { s with locked := b }

/-- `nft.Unlock()`. -/
def Unlock : GoM NfTables σ Unit :=
  mutexUnlock NfTables.locked fun s b => { s with locked := b }

/-- The record `create` allocates for `(f, n)`: the table with fresh chain and set stores
    bound to it. -/
def freshRecord (n : String) (f : TableFamily) : NfTable :=
  let t : Table := ⟨n, f⟩
  ⟨t, some (NfChains.newChains t), some (NfSets.newSets t)⟩

/-- `create`: the record of `(f, n)` is kept when it has both stores; otherwise a fresh one
    is registered, in a bucket allocated if the family has none.  Returns the registry and
    the record. -/
def create (r : Registry) (n : String) (f : TableFamily) : Registry × NfTable :=
  match r.record f n with
  | some rec =>
    if rec.chains.isSome && rec.sets.isSome then (r, rec)
    else (r.insertRecord f n (freshRecord n f), freshRecord n f)
  | none => (r.insertRecord f n (freshRecord n f), freshRecord n f)

/-- `get`: the names of the kernel's tables of family `f`. -/
def get (f : TableFamily) : GoM NfTables σ (Except GoError (List String)) := do
  match ← callConn conn.listTables with
  | .error err => return .error err
  | .ok tables => return .ok ((tables.filter fun t => t.family = f).map Table.name)

/-- `Get`: `get` under the lock. -/
def Get (f : TableFamily) : GoM NfTables σ (Except GoError (List String)) := do
  Lock
  let tables ← get conn f
  Unlock
  return tables

/-- `Exist`: the registry has the table, or the kernel lists it.  It takes no lock. -/
def Exist (name : String) (f : TableFamily) : GoM NfTables σ Bool := do
  if ((← getObj).tables.record f name).isSome then return true
  else
    match ← get conn f with
    | .error _ => return false
    | .ok tables => return decide (name ∈ tables)

/-- `Create`: register the record and enqueue its table. -/
def Create (name : String) (f : TableFamily) : GoM NfTables σ (Option GoError) := do
  Lock
  let r := create (← getObj).tables name f
  modifyObj fun nft => { nft with tables := r.1 }
  callConn fun c => ((), conn.addTable r.2.table c)
  Unlock
  return none

/-- `CreateImm`: `Create` followed by a flush; `EEXIST` counts as success. -/
def CreateImm (name : String) (f : TableFamily) : GoM NfTables σ (Option GoError) := do
  Lock
  let r := create (← getObj).tables name f
  modifyObj fun nft => { nft with tables := r.1 }
  callConn fun c => ((), conn.addTable r.2.table c)
  let err ← callConn conn.flush
  Unlock
  return if err = some .eexist then none else err

/-- `Delete`: drop the record, enqueue a delete if the kernel lists the table, and prune
    the family if its bucket is now empty. -/
def Delete (name : String) (f : TableFamily) : GoM NfTables σ (Option GoError) := do
  Lock
  modifyObj fun nft => { nft with tables := nft.tables.eraseRecord f name }
  if ← Exist conn name f then
    callConn fun c => ((), conn.delTable ⟨name, f⟩ c)
  modifyObj fun nft => { nft with tables := nft.tables.prune f }
  Unlock
  return none

/-- `DeleteImm`: `Delete` followed by a flush. -/
def DeleteImm (name : String) (f : TableFamily) : GoM NfTables σ (Option GoError) := do
  match ← Delete conn name f with
  | some err => return some err
  | none => callConn conn.flush

/-- Runs an operation of a store held by record `(f, n)` (`nt.Sets().Sync()`, or a call
    through the interface `TableSets` returned), writing the store back into the record;
    a `nil` store panics. -/
def onStore {S α : Type} (get : NfTable → Option S) (put : NfTable → S → NfTable)
    (f : TableFamily) (n : String) (op : GoM S σ α) : GoM NfTables σ α := fun w =>
  match (w.obj.tables.record f n).bind get with
  | none => .error .nilDeref w
  | some s =>
    let back (w' : World S σ) : World NfTables σ :=
      ⟨{ w.obj with tables := w.obj.tables.modifyRecord f n fun rec => put rec w'.obj }, w'.conn⟩
    match op ⟨s, w.conn⟩ with
    | .ok a w' => .ok a (back w')
    | .error e w' => .error e (back w')

/-- An operation of the chain store of record `(f, n)`. -/
def onChains {α : Type} : TableFamily → String → GoM NfChains σ α → GoM NfTables σ α :=
  onStore NfTable.chains fun rec s => { rec with chains := some s }

/-- An operation of the set store of record `(f, n)`. -/
def onSets {α : Type} : TableFamily → String → GoM NfSets σ α → GoM NfTables σ α :=
  onStore NfTable.sets fun rec s => { rec with sets := some s }

/-- One table of `Sync`'s loop that the registry lacks: `nt := nft.create(t.Name,
    t.Family)`, then `nt`'s chain store and set store are synced. -/
def syncTable (t : Table) : GoM NfTables σ (Option GoError) := do
  modifyObj fun nft => { nft with tables := (create nft.tables t.name t.family).1 }
  match ← onChains t.family t.name (NfChains.Sync conn) with
  | some err => return some err
  | none => onSets t.family t.name (NfSets.Sync conn)

/-- `Sync`'s loop, run without the lock, over the kernel's tables. -/
def syncTables (f : TableFamily) : List Table → GoM NfTables σ (Option GoError)
  | [] => return none
  | t :: tables => do
    if t.family = f ∧ ((← getObj).tables.record f t.name).isNone then
      match ← syncTable conn t with
      | some err => return some err
      | none => syncTables f tables
    else syncTables f tables

/-- `Sync`: list the kernel's tables under the lock, then run `syncTables` unlocked.  A
    failed listing returns with the lock still held. -/
def Sync (f : TableFamily) : GoM NfTables σ (Option GoError) := do
  Lock
  match ← callConn conn.listTables with
  | .error err => return some err
  | .ok tables =>
    Unlock
    syncTables conn f tables

/-- `Table`, `TableChains` and `TableSets`: a store of a registered table, under the
    lock. -/
def tableStore {α : Type} (store : NfTable → α) (name : String) (f : TableFamily) :
    GoM NfTables σ (Except GoError α) := do
  Lock
  let t := (← getObj).tables.record f name
  Unlock
  match t with
  | some t => return .ok (store t)
  | none =>
    return .error (.text ("table " ++ name ++ " of type " ++ toString f.val ++ " does not exist"))

/-- `TableChains`. -/
def TableChains : String → TableFamily → GoM NfTables σ (Except GoError (Option NfChains)) :=
  tableStore NfTable.chains

/-- `TableSets`. -/
def TableSets : String → TableFamily → GoM NfTables σ (Except GoError (Option NfSets)) :=
  tableStore NfTable.sets

/-! ## §4. What each call does

`create` first, then one lemma per call, run on a store whose mutex is free. -/

section Create

variable (r : Registry) (n : String) (f : TableFamily)

theorem create_of_record {rec : NfTable} (h : r.record f n = some rec)
    (hc : rec.chains.isSome) (hs : rec.sets.isSome) : create r n f = (r, rec) := by
  simp [create, h, hc, hs]

theorem create_of_none (h : r.record f n = none) :
    create r n f = (r.insertRecord f n (freshRecord n f), freshRecord n f) := by
  simp [create, h]

@[simp] theorem create_record (g : TableFamily) (m : String) :
    (create r n f).1.record g m = if g = f ∧ m = n then some (create r n f).2 else r.record g m := by
  unfold create
  split
  · next rec hr =>
    split_ifs with hcs hgm
    · obtain ⟨rfl, rfl⟩ := hgm; exact hr
    · rfl
    all_goals simp_all
  · simp

end Create

/-- The names `get` reports are those of the listed tables of family `f`. -/
theorem mem_listed (ts : List Table) (name : String) (f : TableFamily) :
    name ∈ (ts.filter fun t => t.family = f).map Table.name ↔ (⟨name, f⟩ : Table) ∈ ts := by
  simp only [List.mem_map, List.mem_filter, decide_eq_true_eq]
  constructor
  · rintro ⟨⟨n, g⟩, ⟨h, rfl⟩, rfl⟩; exact h
  · intro h; exact ⟨_, ⟨h, rfl⟩, rfl⟩

theorem Exist_run (name : String) (f : TableFamily) (nft : NfTables) (c : σ) :
    Exist conn name f ⟨nft, c⟩ =
      if (nft.tables.record f name).isSome then .ok true ⟨nft, c⟩
      else match conn.listTables c with
        | (.error _, c1) => .ok false ⟨nft, c1⟩
        | (.ok ts, c1) => .ok (decide ((⟨name, f⟩ : Table) ∈ ts)) ⟨nft, c1⟩ := by
  simp only [Exist, bind_apply, getObj_apply]
  split_ifs
  · rfl
  · simp only [get, bind_apply, callConn_apply]
    rcases conn.listTables c with ⟨_ | ts, c1⟩
    · rfl
    · simp only [pure_apply, mem_listed]

theorem Exist_returns {name : String} {f : TableFamily} {nft : NfTables} {c : σ} {b : Bool}
    {w' : World NfTables σ} (h : Exist conn name f ⟨nft, c⟩ = .ok b w') : w'.obj = nft := by
  rw [Exist_run] at h
  split_ifs at h
  · cases h; rfl
  · split at h <;> cases h <;> rfl

theorem get_returns {f : TableFamily} {nft : NfTables} {c : σ}
    {a : Except GoError (List String)} {w' : World NfTables σ}
    (h : get conn f ⟨nft, c⟩ = .ok a w') : w'.obj = nft := by
  simp only [get, bind_apply, callConn_apply] at h
  rcases hq : conn.listTables c with ⟨_ | _, c1⟩ <;> simp only [hq] at h <;> cases h <;> rfl

theorem Get_returns {f : TableFamily} {r : Registry} {c : σ}
    {a : Except GoError (List String)} {w' : World NfTables σ}
    (h : Get conn f ⟨⟨false, r⟩, c⟩ = .ok a w') : w'.obj = ⟨false, r⟩ := by
  simp only [Get, Lock, Unlock, bind_apply, mutexLock_apply, Bool.false_eq_true, if_false] at h
  cases hg : get conn f ⟨⟨true, r⟩, c⟩ with
  | ok b w'' =>
    obtain ⟨obj, c1⟩ := w''
    cases get_returns conn hg
    rw [hg] at h
    cases h; rfl
  | error e w'' => rw [hg] at h; cases h

theorem Create_run (name : String) (f : TableFamily) (r : Registry) (c : σ) :
    Create conn name f ⟨⟨false, r⟩, c⟩ =
      .ok none ⟨⟨false, (create r name f).1⟩, conn.addTable (create r name f).2.table c⟩ := rfl

theorem CreateImm_run (name : String) (f : TableFamily) (r : Registry) (c : σ) :
    CreateImm conn name f ⟨⟨false, r⟩, c⟩ =
      let flushed := conn.flush (conn.addTable (create r name f).2.table c)
      .ok (if flushed.1 = some .eexist then none else flushed.1)
        ⟨⟨false, (create r name f).1⟩, flushed.2⟩ := rfl

theorem Delete_run (name : String) (f : TableFamily) (r : Registry) (c : σ) :
    Delete conn name f ⟨⟨false, r⟩, c⟩ =
      let r' := (r.eraseRecord f name).prune f
      match conn.listTables c with
      | (.error _, c1) => .ok none ⟨⟨false, r'⟩, c1⟩
      | (.ok ts, c1) =>
        .ok none ⟨⟨false, r'⟩, if (⟨name, f⟩ : Table) ∈ ts then conn.delTable ⟨name, f⟩ c1 else c1⟩ := by
  simp only [Delete, Lock, Unlock, bind_apply, mutexLock_apply, modifyObj_apply, Exist_run,
    Registry.record_eraseRecord, and_self, if_true, Option.isSome_none, Bool.false_eq_true,
    if_false]
  rcases conn.listTables c with ⟨_ | ts, c1⟩
  · rfl
  · by_cases h : (⟨name, f⟩ : Table) ∈ ts <;> simp [h]

theorem Delete_returns {name : String} {f : TableFamily} {r : Registry} {c : σ}
    {a : Option GoError} {w' : World NfTables σ}
    (h : Delete conn name f ⟨⟨false, r⟩, c⟩ = .ok a w') :
    a = none ∧ w'.obj = ⟨false, (r.eraseRecord f name).prune f⟩ := by
  rw [Delete_run] at h
  split at h <;> cases h <;> exact ⟨rfl, rfl⟩

theorem DeleteImm_run (name : String) (f : TableFamily) (w : World NfTables σ) :
    DeleteImm conn name f w =
      match Delete conn name f w with
      | .ok none w' => .ok (conn.flush w'.conn).1 { w' with conn := (conn.flush w'.conn).2 }
      | .ok (some err) w' => .ok (some err) w'
      | .error e w' => .error e w' := by
  simp only [DeleteImm, bind_apply]
  rcases Delete conn name f w with (_ | _) | _ <;> rfl

theorem DeleteImm_returns {name : String} {f : TableFamily} {r : Registry} {c : σ}
    {a : Option GoError} {w' : World NfTables σ}
    (h : DeleteImm conn name f ⟨⟨false, r⟩, c⟩ = .ok a w') :
    w'.obj = ⟨false, (r.eraseRecord f name).prune f⟩ := by
  rw [DeleteImm_run] at h
  cases hd : Delete conn name f ⟨⟨false, r⟩, c⟩ with
  | ok b w'' =>
    obtain ⟨rfl, hw⟩ := Delete_returns conn hd
    rw [hd] at h
    cases h
    exact hw
  | error e w'' => rw [hd] at h; cases h

theorem tableStore_run {α : Type} (store : NfTable → α) (name : String) (f : TableFamily)
    (r : Registry) (c : σ) :
    tableStore store name f ⟨⟨false, r⟩, c⟩ =
      .ok (match r.record f name with
        | some t => .ok (store t)
        | none => .error (.text ("table " ++ name ++ " of type " ++ toString f.val ++
            " does not exist"))) ⟨⟨false, r⟩, c⟩ := by
  simp only [tableStore, Lock, Unlock, bind_apply, getObj_apply, mutexLock_apply,
    mutexUnlock_apply, Bool.false_eq_true, if_false, if_true]
  cases r.record f name <;> rfl

theorem onStore_run {S α : Type} (get : NfTable → Option S) (put : NfTable → S → NfTable)
    (f : TableFamily) (n : String) (op : GoM S σ α) (l : Bool) (r : Registry) (c : σ) (s : S)
    (h : (r.record f n).bind get = some s) :
    onStore get put f n op ⟨⟨l, r⟩, c⟩ =
      match op ⟨s, c⟩ with
      | .ok a w' => .ok a ⟨⟨l, r.modifyRecord f n fun rec => put rec w'.obj⟩, w'.conn⟩
      | .error e w' => .error e ⟨⟨l, r.modifyRecord f n fun rec => put rec w'.obj⟩, w'.conn⟩ := by
  simp only [onStore, h]

theorem Sync_run (f : TableFamily) (r : Registry) (c : σ) :
    Sync conn f ⟨⟨false, r⟩, c⟩ =
      match conn.listTables c with
      | (.error err, c1) => .ok (some err) ⟨⟨true, r⟩, c1⟩
      | (.ok ts, c1) => syncTables conn f ts ⟨⟨false, r⟩, c1⟩ := by
  simp only [Sync, Lock, bind_apply, mutexLock_apply, callConn_apply, Bool.false_eq_true,
    if_false]
  rcases conn.listTables c with ⟨_ | ts, c1⟩ <;> rfl

theorem syncTables_cons (f : TableFamily) (t : Table) (ts : List Table) (nft : NfTables)
    (c : σ) :
    syncTables conn f (t :: ts) ⟨nft, c⟩ =
      if t.family = f ∧ nft.tables.record f t.name = none then
        match syncTable conn t ⟨nft, c⟩ with
        | .ok none w' => syncTables conn f ts w'
        | .ok (some err) w' => .ok (some err) w'
        | .error e w' => .error e w'
      else syncTables conn f ts ⟨nft, c⟩ := by
  simp only [syncTables, bind_apply, getObj_apply, Option.isNone_iff_eq_none]
  split_ifs
  · simp only [bind_apply]
    rcases syncTable conn t ⟨nft, c⟩ with (_ | _) | _ <;> rfl
  · rfl

/-- `Table`: the chain store of a registered table, as `TableChains`. -/
def Table : String → TableFamily → GoM NfTables σ (Except GoError (Option NfChains)) :=
  tableStore NfTable.chains

end NfTables

end NfTablesLib
