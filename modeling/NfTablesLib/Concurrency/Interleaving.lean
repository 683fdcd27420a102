/-
  NfTablesLib.Concurrency.Interleaving — concurrent calls of the stores, as threads that
  take atomic steps in any order.

  A thread is a call in progress: what it is (`Op`) and where it is (`Pc`).  Its steps run
  on the world the store's operations run on, over any connection, one lock, unlock,
  registry or set-map access, or connection call at a time.  A read and the decision taken
  on it are one step, and so is the table store's `Exist`, which only removes
  interleavings.  A `Lock` of a held mutex blocks: the thread takes no step.  The chain and
  set syncs that `Sync` runs on a table it creates are left out.

  Main results:
    * run alone, the steps compose to the store's operations: `syncSteps_refine_Sync`
      (over a kernel that lists no chains or sets), `deleteSteps_refine_Delete`,
      `delSetSteps_refine_DelSet`, `changeSteps_refine_changeElements`;
    * `soloTable_never_panics` — a table-store call with no other call interleaved never
      writes into an absent family bucket;
    * `soloSet_hands_known` — a set-store call with no other call interleaved never hands
      the connection a nil set;
    * `interleaved_calls_break_store` — two interleavings of two clients, one ending in a
      write into a pruned family bucket, one handing the connection a nil set.
-/
import NfTablesLib.Store.Tables
import NfTablesLib.Store.Kernel

namespace NfTablesLib

open Nftables

/-! ## §1. Schedules -/

namespace Interleaving

variable {S T : Type} (step : S → T → Option (S × T))

/-- Thread `i` takes its next step; `none` when there is no such thread, or it is blocked
    or finished. -/
def schedule (c : S × List T) (i : Nat) : Option (S × List T) :=
  match c.2[i]? with
  | none => none
  | some th => (step c.1 th).map fun p => (p.1, c.2.set i p.2)

/-- The threads take steps in the order the schedule names them. -/
def runTrace : S × List T → List Nat → Option (S × List T)
  | c, [] => some c
  | c, i :: is => (schedule step c i).bind (runTrace · is)

theorem runTrace_append (c : S × List T) (is js : List Nat) :
    runTrace step c (is ++ js) = (runTrace step c is).bind (runTrace step · js) := by
  induction is generalizing c with
  | nil => rfl
  | cons i is ih =>
    simp only [List.cons_append, runTrace]
    cases schedule step c i <;> simp [ih]

/-- One step of a lone thread. -/
theorem schedule_solo (s : S) (th : T) :
    schedule step (s, [th]) 0 = (step s th).map fun p => (p.1, [p.2]) := rfl

/-- A lone thread's schedule, one step at a time. -/
theorem runTrace_solo_cons (s : S) (th : T) (is : List Nat) :
    runTrace step (s, [th]) (0 :: is) = (step s th).bind fun p => runTrace step (p.1, [p.2]) is := by
  simp only [runTrace, schedule_solo, Option.bind_map]; rfl

/-- **Run lemma.** A property of a lone thread with the shared state, kept by every step,
    holds after every schedule of that thread alone. -/
theorem runTrace_solo (P : S → T → Prop) (hstep : ∀ s th s' th', P s th →
    step s th = some (s', th') → P s' th') :
    ∀ (is : List Nat) (s : S) (th : T) (c : S × List T), P s th →
      runTrace step (s, [th]) is = some c → ∃ s' th', c = (s', [th']) ∧ P s' th'
  | [], s, th, c, hP, h => by cases h; exact ⟨s, th, rfl, hP⟩
  | i :: is, s, th, c, hP, h => by
    simp only [runTrace, schedule] at h
    rcases i with _ | i
    · cases hs : step s th with
      | none => simp [hs] at h
      | some p =>
        obtain ⟨s', th'⟩ := p
        simp only [List.getElem?_cons_zero, hs, Option.map_some', Option.bind_some,
          List.set_cons_zero] at h
        exact runTrace_solo P hstep is s' th' c (hstep s th s' th' hP hs) h
    · simp at h

end Interleaving

/-! ## §2. The table store -/

namespace TableThreads

/-- A call of the table store. -/
inductive Op where
  | sync (f : TableFamily)
  | delete (name : String) (f : TableFamily)

/-- Where a call is. -/
inductive Pc where
  /-- `nft.Lock()`. -/
  | lock
  /-- `Sync`: `ListTables()` under the lock. -/
  | list
  /-- `Sync`: `nft.Unlock()`, with the kernel's listing. -/
  | unlock (ts : List Table)
  /-- `Sync`: the loop head, over the rest of the listing, without the lock. -/
  | loop (ts : List Table)
  /-- `Sync`'s `create`: the family bucket is looked up, and allocated if absent. -/
  | alloc (t : Table) (ts : List Table)
  /-- `Sync`'s `create`: `nft.tables[f][name] = ...`. -/
  | write (t : Table) (ts : List Table)
  /-- `Delete`: the record is dropped. -/
  | erase
  /-- `Delete`: `Exist`, and the delete enqueued if the table exists. -/
  | exist
  /-- `Delete`: an emptied bucket is pruned. -/
  | prune
  /-- `Delete`: `nft.Unlock()`. -/
  | release
  /-- The call returned `result`. -/
  | done (result : Option GoError)
  /-- The thread wrote into an absent bucket: a nil-map write panics. -/
  | panicked
  deriving DecidableEq

/-- A call in progress. -/
structure Thread where
  op : Op
  pc : Pc

variable {σ : Type} (conn : NetNS σ)

/-- One atomic step of `Sync(f)`.  A failed listing returns with the lock held. -/
def syncStep (f : TableFamily) (w : World NfTables σ) : Pc → Option (World NfTables σ × Pc)
  | .lock => if w.obj.locked then none else some (⟨{ w.obj with locked := true }, w.conn⟩, .list)
  | .list =>
    match conn.listTables w.conn with
    | (.error err, c) => some (⟨w.obj, c⟩, .done (some err))
    | (.ok ts, c) => some (⟨w.obj, c⟩, .unlock ts)
  | .unlock ts => some (⟨{ w.obj with locked := false }, w.conn⟩, .loop ts)
  | .loop [] => some (w, .done none)
  | .loop (t :: ts) =>
    some (w, if t.family = f ∧ (w.obj.tables.record f t.name).isNone then .alloc t ts
      else .loop ts)
  | .alloc t ts =>
    some <| match w.obj.tables.lookup t.family with
      | none => (⟨{ w.obj with tables := w.obj.tables.insert t.family ∅ }, w.conn⟩, .write t ts)
      | some bucket =>
        (w, if (bucket.lookup t.name).any (fun r => r.chains.isSome && r.sets.isSome)
          then .loop ts else .write t ts)
  | .write t ts =>
    some <| match w.obj.tables.lookup t.family with
      | none => (w, .panicked)
      | some bucket =>
        let bucket' := bucket.insert t.name (NfTables.freshRecord t.name t.family)
        (⟨{ w.obj with tables := w.obj.tables.insert t.family bucket' }, w.conn⟩, .loop ts)
  | _ => none

/-- One atomic step of `Delete(name, f)`. -/
def deleteStep (name : String) (f : TableFamily) (w : World NfTables σ) :
    Pc → Option (World NfTables σ × Pc)
  | .lock => if w.obj.locked then none else some (⟨{ w.obj with locked := true }, w.conn⟩, .erase)
  | .erase => some (⟨{ w.obj with tables := w.obj.tables.eraseRecord f name }, w.conn⟩, .exist)
  | .exist =>
    match NfTables.Exist conn name f w with
    | .ok true w' => some (⟨w'.obj, conn.delTable ⟨name, f⟩ w'.conn⟩, .prune)
    | .ok false w' => some (w', .prune)
    | .error _ _ => none
  | .prune => some (⟨{ w.obj with tables := w.obj.tables.prune f }, w.conn⟩, .release)
  | .release => some (⟨{ w.obj with locked := false }, w.conn⟩, .done none)
  | _ => none

/-- One atomic step of a thread. -/
def step (w : World NfTables σ) (th : Thread) : Option (World NfTables σ × Thread) :=
  (match th.op with
    | .sync f => syncStep conn f w th.pc
    | .delete name f => deleteStep conn name f w th.pc).map
    fun (p : World NfTables σ × Pc) => (p.1, { th with pc := p.2 })

/-! ### One step from each point -/

section Steps

variable (l : Bool) (r : Registry) (c : σ)

@[simp] theorem step_sync_lock (f : TableFamily) :
    step conn ⟨⟨false, r⟩, c⟩ ⟨.sync f, .lock⟩ = some (⟨⟨true, r⟩, c⟩, ⟨.sync f, .list⟩) := rfl

@[simp] theorem step_list (f : TableFamily) :
    step conn ⟨⟨l, r⟩, c⟩ ⟨.sync f, .list⟩ =
      match conn.listTables c with
      | (.error err, c') => some (⟨⟨l, r⟩, c'⟩, ⟨.sync f, .done (some err)⟩)
      | (.ok ts, c') => some (⟨⟨l, r⟩, c'⟩, ⟨.sync f, .unlock ts⟩) := by
  simp only [step, syncStep]; rcases conn.listTables c with ⟨_ | _, c'⟩ <;> rfl

@[simp] theorem step_unlock (f : TableFamily) (ts : List Table) :
    step conn ⟨⟨l, r⟩, c⟩ ⟨.sync f, .unlock ts⟩ = some (⟨⟨false, r⟩, c⟩, ⟨.sync f, .loop ts⟩) :=
  rfl

variable (name : String) (f : TableFamily)

@[simp] theorem step_delete_lock :
    step conn ⟨⟨false, r⟩, c⟩ ⟨.delete name f, .lock⟩ =
      some (⟨⟨true, r⟩, c⟩, ⟨.delete name f, .erase⟩) := rfl

@[simp] theorem step_erase :
    step conn ⟨⟨l, r⟩, c⟩ ⟨.delete name f, .erase⟩ =
      some (⟨⟨l, r.eraseRecord f name⟩, c⟩, ⟨.delete name f, .exist⟩) := rfl

@[simp] theorem step_exist :
    step conn ⟨⟨l, r⟩, c⟩ ⟨.delete name f, .exist⟩ =
      match NfTables.Exist conn name f ⟨⟨l, r⟩, c⟩ with
      | .ok true w' => some (⟨w'.obj, conn.delTable ⟨name, f⟩ w'.conn⟩, ⟨.delete name f, .prune⟩)
      | .ok false w' => some (w', ⟨.delete name f, .prune⟩)
      | .error _ _ => none := by
  simp only [step, deleteStep]
  rcases NfTables.Exist conn name f ⟨⟨l, r⟩, c⟩ with ⟨_ | _, w'⟩ | ⟨_, w'⟩ <;> rfl

@[simp] theorem step_prune :
    step conn ⟨⟨l, r⟩, c⟩ ⟨.delete name f, .prune⟩ =
      some (⟨⟨l, r.prune f⟩, c⟩, ⟨.delete name f, .release⟩) := rfl

@[simp] theorem step_release :
    step conn ⟨⟨l, r⟩, c⟩ ⟨.delete name f, .release⟩ =
      some (⟨⟨false, r⟩, c⟩, ⟨.delete name f, .done none⟩) := rfl

end Steps

/-! ### A call run alone -/

/-- What a thread running alone keeps: at `Sync`'s write its family bucket is there, and it
    has not panicked. -/
def SoloOk (w : World NfTables σ) : Pc → Prop
  | .write t _ => (w.obj.tables.lookup t.family).isSome
  | .panicked => False
  | _ => True

theorem syncStep_soloOk {f : TableFamily} {w w' : World NfTables σ} {pc pc' : Pc}
    (hok : SoloOk w pc) (h : syncStep conn f w pc = some (w', pc')) : SoloOk w' pc' := by
  cases pc with
  | list => simp only [syncStep] at h; split at h <;> cases h <;> trivial
  | alloc t ts =>
    simp only [syncStep] at h
    split at h <;> cases h
    · simp [SoloOk]
    · split <;> simp [SoloOk, *]
  | write t ts =>
    simp only [syncStep] at h
    split at h <;> cases h
    · simp [SoloOk, *] at hok
    · trivial
  | loop ts => cases ts <;> simp only [syncStep] at h <;> cases h <;> (try split) <;> trivial
  | lock => simp only [syncStep] at h; split at h <;> cases h; trivial
  | _ => simp only [syncStep] at h; cases h <;> trivial

theorem deleteStep_soloOk {name : String} {f : TableFamily} {w w' : World NfTables σ}
    {pc pc' : Pc} (h : deleteStep conn name f w pc = some (w', pc')) : SoloOk w' pc' := by
  cases pc <;> simp only [deleteStep] at h <;> (try split at h) <;> cases h <;> trivial

theorem step_soloOk {w w' : World NfTables σ} {th th' : Thread} (hok : SoloOk w th.pc)
    (h : step conn w th = some (w', th')) : SoloOk w' th'.pc := by
  obtain ⟨op, pc⟩ := th
  cases op <;> simp only [step, Option.map_eq_some'] at h <;>
    obtain ⟨⟨w₁, pc₁⟩, hs, he⟩ := h <;> cases he
  · exact syncStep_soloOk conn hok hs
  · exact deleteStep_soloOk conn hs

/-- **A call with no other call interleaved never panics**: run alone from any state, over
    any connection, `Sync`'s write always finds its family bucket. -/
theorem soloTable_never_panics (w : World NfTables σ) (op : Op) (is : List Nat)
    {c : World NfTables σ × List Thread}
    (h : Interleaving.runTrace (step conn) (w, [⟨op, .lock⟩]) is = some c) :
    ∃ w' th', c = (w', [th']) ∧ th'.pc ≠ .panicked := by
  obtain ⟨w', th', rfl, hok⟩ := Interleaving.runTrace_solo (step conn)
    (fun w th => SoloOk w th.pc) (fun _ _ _ _ => step_soloOk conn) is w ⟨op, .lock⟩ c trivial h
  exact ⟨w', th', rfl, fun hp => by rw [hp] at hok; exact hok⟩

/-- `Sync` of the IPv4 tables run alone, from an empty registry, over a kernel that lists the
    table `filter`: through the write of its record and back to the loop, it has not
    panicked. -/
theorem soloTable_never_panics_sync :
    ∃ c, Interleaving.runTrace (step (kernelConn [] fun _ => []))
        (⟨⟨false, ∅⟩, ⟨[⟨"filter", TableFamily.IPv4⟩], []⟩⟩, [⟨.sync TableFamily.IPv4, .lock⟩])
        [0, 0, 0, 0, 0, 0, 0] = some c ∧
      ∃ w' th', c = (w', [th']) ∧ th'.pc ≠ .panicked :=
  ⟨_, rfl, soloTable_never_panics (kernelConn [] fun _ => [])
    ⟨⟨false, ∅⟩, ⟨[⟨"filter", TableFamily.IPv4⟩], []⟩⟩ (.sync TableFamily.IPv4)
    [0, 0, 0, 0, 0, 0, 0] rfl⟩

/-- **The steps of `Delete` compose to the store's `Delete`**: run alone from a free mutex,
    over any connection, a `Delete` thread returns in five steps what `NfTables.Delete`
    returns, on the same world. -/
theorem deleteSteps_refine_Delete (name : String) (f : TableFamily) (r : Registry) (c : σ) :
    ∃ w', Interleaving.runTrace (step conn) (⟨⟨false, r⟩, c⟩, [⟨.delete name f, .lock⟩])
        [0, 0, 0, 0, 0] = some (w', [⟨.delete name f, .done none⟩]) ∧
      NfTables.Delete conn name f ⟨⟨false, r⟩, c⟩ = .ok none w' := by
  simp only [NfTables.Delete_run, Interleaving.runTrace_solo_cons, step_delete_lock, step_erase,
    step_exist, NfTables.Exist_run, Registry.record_eraseRecord, and_self, if_true,
    Option.isSome_none, Bool.false_eq_true, if_false, Option.some_bind]
  rcases conn.listTables c with ⟨_ | ts, c1⟩
  · exact ⟨_, rfl, rfl⟩
  · by_cases hm : (⟨name, f⟩ : Table) ∈ ts <;> simp [hm, Interleaving.runTrace]

/-! ### `Sync` over a kernel that lists no chains or sets

There the chain and set syncs of a created table change nothing, so the steps the model
keeps are all of `Sync`. -/

/-- `syncTable` over a kernel with no chains or sets registers a fresh record. -/
theorem syncTable_bare (t : Table) (l : Bool) (r : Registry) (k : Kernel)
    (h : r.record t.family t.name = none) :
    NfTables.syncTable (kernelConn [] fun _ => []) t ⟨⟨l, r⟩, k⟩ =
      .ok none ⟨⟨l, r.insertRecord t.family t.name (NfTables.freshRecord t.name t.family)⟩, k⟩ := by
  set r1 := r.insertRecord t.family t.name (NfTables.freshRecord t.name t.family)
  have h1 : (r1.record t.family t.name).bind NfTable.chains = some (NfChains.newChains t) := by
    simp [r1, NfTables.freshRecord]
  have h2 : (r1.record t.family t.name).bind NfTable.sets = some (NfSets.newSets t) := by
    simp [r1, NfTables.freshRecord]
  simp only [NfTables.syncTable, bind_apply, modifyObj_apply, NfTables.create_of_none _ _ _ h,
    NfTables.onChains, NfTables.onStore_run _ _ _ _ _ _ _ _ _ h1, NfChains.Sync_run]
  have hc : r1.modifyRecord t.family t.name
      (fun rec => { rec with chains := some (NfChains.newChains t) }) = r1 := by
    simp [r1, NfTables.freshRecord]
  have hs : r1.modifyRecord t.family t.name
      (fun rec => { rec with sets := some ⟨t, false, ∅⟩ }) = r1 := by
    simp [r1, NfTables.freshRecord, NfSets.newSets]
  have hl : (kernelConn [] fun _ => []).listChains k = (.ok [], k) := rfl
  have hg : (kernelConn [] fun _ => []).getSets t k = (.ok [], k) := rfl
  simp only [hl, NfChains.absorb, List.foldl_nil, hc, NfTables.onSets,
    NfTables.onStore_run _ _ _ _ _ _ _ _ _ h2, NfSets.newSets, NfSets.Sync_run, hg]
  simp only [NfSets.firstUnknown, List.find?_nil, hs]

/-- One step at the loop head: the table is taken up when it is of the family and the
    registry lacks it. -/
theorem loop_step (f : TableFamily) (t : Table) (ts : List Table) (w : World NfTables σ) :
    Interleaving.runTrace (step conn) (w, [⟨.sync f, .loop (t :: ts)⟩]) [0] =
      some (w, [⟨.sync f, if t.family = f ∧ (w.obj.tables.record f t.name).isNone then .alloc t ts
        else .loop ts⟩]) := rfl

/-- Run alone on a table the registry lacks, the two steps of `create` register a fresh
    record, as `insertRecord` does. -/
theorem allocWrite_insertRecord (f : TableFamily) (t : Table) (ts : List Table)
    (w : World NfTables σ) (h : w.obj.tables.record t.family t.name = none) :
    Interleaving.runTrace (step conn) (w, [⟨.sync f, .alloc t ts⟩]) [0, 0] =
      some (⟨⟨w.obj.locked, w.obj.tables.insertRecord t.family t.name
          (NfTables.freshRecord t.name t.family)⟩, w.conn⟩, [⟨.sync f, .loop ts⟩]) := by
  cases hb : w.obj.tables.lookup t.family with
  | none =>
    simp only [Interleaving.runTrace, Interleaving.schedule, List.length_singleton,
      Nat.lt_add_one, List.getElem?_eq_getElem, List.getElem_cons_zero, List.set_cons_zero, step,
      syncStep, hb, Option.map_some', Option.isNone_iff_eq_none, Option.map_map, Option.bind_some,
      Option.some_bind, Finmap.lookup_insert, Finmap.insert_insert, Function.comp_apply,
      Registry.insertRecord, Option.getD_none]
  | some b =>
    have hn : b.lookup t.name = none := by simpa [Registry.record, hb] using h
    simp only [Interleaving.runTrace, Interleaving.schedule, List.length_singleton,
      Nat.lt_add_one, List.getElem?_eq_getElem, List.getElem_cons_zero, List.set_cons_zero, step,
      syncStep, hb, hn, Option.any_none, Bool.false_eq_true, ↓reduceIte, Option.map_some',
      Option.isNone_iff_eq_none, Option.map_map, Option.bind_some, Option.some_bind,
      Function.comp_apply, Registry.insertRecord, Option.getD_some]

/-- **Run lemma for `Sync`'s loop**: run alone over a kernel with no chains or sets, the
    loop steps from any registry return what `syncTables` returns, on the same world. -/
theorem loopSteps_refine_syncTables (f : TableFamily) (ts : List Table) (l : Bool)
    (r : Registry) (k : Kernel) :
    ∃ n r', Interleaving.runTrace (step (kernelConn [] fun _ => []))
        (⟨⟨l, r⟩, k⟩, [⟨.sync f, .loop ts⟩]) (List.replicate n 0) =
          some (⟨⟨l, r'⟩, k⟩, [⟨.sync f, .done none⟩]) ∧
      NfTables.syncTables (kernelConn [] fun _ => []) f ts ⟨⟨l, r⟩, k⟩ = .ok none ⟨⟨l, r'⟩, k⟩ := by
  induction ts generalizing r with
  | nil => exact ⟨1, r, rfl, rfl⟩
  | cons t ts ih =>
    rw [NfTables.syncTables_cons]
    by_cases hc : t.family = f ∧ r.record f t.name = none
    · obtain ⟨rfl, hr⟩ := hc
      obtain ⟨n, r', hrun, hseq⟩ :=
        ih (r.insertRecord t.family t.name (NfTables.freshRecord t.name t.family))
      refine ⟨1 + 2 + n, r', ?_, ?_⟩
      · rw [List.replicate_add, List.replicate_add, Interleaving.runTrace_append,
          Interleaving.runTrace_append, show List.replicate 1 0 = [0] from rfl, loop_step]
        simp only [Option.isNone_iff_eq_none, hr, and_self, if_true, Option.some_bind]
        rw [show List.replicate 2 0 = [0, 0] from rfl,
          allocWrite_insertRecord _ t.family t ts ⟨⟨l, r⟩, k⟩ hr, Option.some_bind]
        exact hrun
      · rw [if_pos ⟨rfl, hr⟩, syncTable_bare _ _ _ _ hr]
        exact hseq
    · obtain ⟨n, r', hrun, hseq⟩ := ih r
      refine ⟨1 + n, r', ?_, ?_⟩
      · rw [List.replicate_add, Interleaving.runTrace_append,
          show List.replicate 1 0 = [0] from rfl, loop_step]
        simp only [Option.isNone_iff_eq_none, hc, if_false, Option.some_bind]
        exact hrun
      · rw [if_neg hc]
        exact hseq

/-- **The steps of `Sync` compose to the store's `Sync`**: run alone from a free mutex over
    a kernel with no chains or sets, a `Sync` thread returns what `NfTables.Sync` returns,
    on the same world. -/
theorem syncSteps_refine_Sync (f : TableFamily) (r : Registry) (k : Kernel) :
    ∃ n w', Interleaving.runTrace (step (kernelConn [] fun _ => []))
        (⟨⟨false, r⟩, k⟩, [⟨.sync f, .lock⟩]) (List.replicate n 0) =
          some (w', [⟨.sync f, .done none⟩]) ∧
      NfTables.Sync (kernelConn [] fun _ => []) f ⟨⟨false, r⟩, k⟩ = .ok none w' := by
  obtain ⟨n, r', hrun, hseq⟩ := loopSteps_refine_syncTables f k.tables false r k
  refine ⟨3 + n, ⟨⟨false, r'⟩, k⟩, ?_, ?_⟩
  · rw [List.replicate_add, Interleaving.runTrace_append]
    exact hrun
  · rw [NfTables.Sync_run]
    exact hseq

end TableThreads

/-! ## §3. The set store of a table -/

namespace SetThreads

/-- A call of the set store on one set.  `SetAddElements` (`add`) and `SetDelElements`
    differ in the connection call only. -/
inductive Op where
  | delSet (name : String)
  | changeElements (add : Bool) (name : String) (elements : List SetElement)

/-- The set a call acts on. -/
def Op.name : Op → String
  | .delSet name | .changeElements _ name _ => name

/-- What a call returns when `Exist` says no. -/
def Op.notFound : Op → Option GoError
  | .delSet _ => none
  | .changeElements _ name _ => some (.text ("set " ++ name ++ " does not exist"))

/-- Where a call is. -/
inductive Pc where
  /-- `Exist`: `nfs.Lock()`. -/
  | lock
  /-- `Exist`: the map lookup, then `nfs.Unlock()`. -/
  | check
  /-- `Exist`: `conn.GetSetByName`. -/
  | get
  /-- `nfs.sets[name]`, read without the lock. -/
  | read
  /-- The connection call (`DelSet`, `SetAddElements` or `SetDelElements`) with the set
      read. -/
  | call (s : Option Set)
  /-- `conn.Flush()`. -/
  | flush
  /-- `DelSet`: `nfs.Lock()` before the removal. -/
  | relock
  /-- `DelSet`: `delete(nfs.sets, name)`. -/
  | erase
  /-- `DelSet`: the deferred `nfs.Unlock()`. -/
  | release
  /-- The call returned `result`. -/
  | done (result : Option GoError)
  deriving DecidableEq

/-- A call in progress. -/
structure Thread where
  op : Op
  pc : Pc

variable {σ : Type} (conn : NetNS σ)

/-- The connection call of `op` with the set `s`. -/
def Op.connCall (op : Op) (s : Option Set) (c : σ) : Option GoError × σ :=
  match op with
  | .delSet _ => (none, conn.delSet s c)
  | .changeElements true _ elements => conn.setAddElements s elements c
  | .changeElements false _ elements => conn.setDeleteElements s elements c

/-- One atomic step of a call. -/
def opStep (op : Op) (w : World NfSets σ) : Pc → Option (World NfSets σ × Pc)
  | .lock => if w.obj.locked then none else some (⟨{ w.obj with locked := true }, w.conn⟩, .check)
  | .check =>
    some (⟨{ w.obj with locked := false }, w.conn⟩,
      if op.name ∈ w.obj.sets then .get else .done op.notFound)
  | .get =>
    match conn.getSetByName w.obj.table op.name w.conn with
    | (.error _, c) => some (⟨w.obj, c⟩, .done op.notFound)
    | (.ok _, c) => some (⟨w.obj, c⟩, .read)
  | .read => some (w, .call (w.obj.sets.lookup op.name))
  | .call s =>
    match op.connCall conn s w.conn with
    | (some err, c) => some (⟨w.obj, c⟩, .done (some err))
    | (none, c) => some (⟨w.obj, c⟩, .flush)
  | .flush =>
    some (⟨w.obj, (conn.flush w.conn).2⟩,
      match op, (conn.flush w.conn).1 with
      | .delSet _, none => .relock
      | _, e => .done e)
  | .relock => if w.obj.locked then none else some (⟨{ w.obj with locked := true }, w.conn⟩, .erase)
  | .erase => some (⟨{ w.obj with sets := w.obj.sets.erase op.name }, w.conn⟩, .release)
  | .release => some (⟨{ w.obj with locked := false }, w.conn⟩, .done none)
  | .done _ => none

/-- One atomic step of a thread. -/
def step (w : World NfSets σ) (th : Thread) : Option (World NfSets σ × Thread) :=
  (opStep conn th.op w th.pc).map fun (p : World NfSets σ × Pc) => (p.1, { th with pc := p.2 })

/-! ### One step from each point

A call's step from each `Pc`, on a store `⟨t, l, m⟩`: what runs of a call are computed
from. -/

section Steps

variable (op : Op) (t : Table) (l : Bool) (m : Finmap fun _ : String => Set) (c : σ)

@[simp] theorem step_lock :
    step conn ⟨⟨t, false, m⟩, c⟩ ⟨op, .lock⟩ = some (⟨⟨t, true, m⟩, c⟩, ⟨op, .check⟩) := rfl

@[simp] theorem step_check :
    step conn ⟨⟨t, l, m⟩, c⟩ ⟨op, .check⟩ =
      some (⟨⟨t, false, m⟩, c⟩, ⟨op, if op.name ∈ m then .get else .done op.notFound⟩) := rfl

@[simp] theorem step_get :
    step conn ⟨⟨t, l, m⟩, c⟩ ⟨op, .get⟩ =
      match conn.getSetByName t op.name c with
      | (.error _, c') => some (⟨⟨t, l, m⟩, c'⟩, ⟨op, .done op.notFound⟩)
      | (.ok _, c') => some (⟨⟨t, l, m⟩, c'⟩, ⟨op, .read⟩) := by
  simp only [step, opStep]; rcases conn.getSetByName t op.name c with ⟨_ | _, c'⟩ <;> rfl

@[simp] theorem step_read :
    step conn ⟨⟨t, l, m⟩, c⟩ ⟨op, .read⟩ =
      some (⟨⟨t, l, m⟩, c⟩, ⟨op, .call (m.lookup op.name)⟩) := rfl

@[simp] theorem step_call (s : Option Set) :
    step conn ⟨⟨t, l, m⟩, c⟩ ⟨op, .call s⟩ =
      match op.connCall conn s c with
      | (some err, c') => some (⟨⟨t, l, m⟩, c'⟩, ⟨op, .done (some err)⟩)
      | (none, c') => some (⟨⟨t, l, m⟩, c'⟩, ⟨op, .flush⟩) := by
  simp only [step, opStep]; rcases op.connCall conn s c with ⟨_ | _, c'⟩ <;> rfl

@[simp] theorem step_flush :
    step conn ⟨⟨t, l, m⟩, c⟩ ⟨op, .flush⟩ =
      some (⟨⟨t, l, m⟩, (conn.flush c).2⟩, ⟨op, match op, (conn.flush c).1 with
        | .delSet _, none => .relock
        | _, e => .done e⟩) := rfl

@[simp] theorem step_relock :
    step conn ⟨⟨t, false, m⟩, c⟩ ⟨op, .relock⟩ = some (⟨⟨t, true, m⟩, c⟩, ⟨op, .erase⟩) := rfl

@[simp] theorem step_erase :
    step conn ⟨⟨t, l, m⟩, c⟩ ⟨op, .erase⟩ =
      some (⟨⟨t, l, m.erase op.name⟩, c⟩, ⟨op, .release⟩) := rfl

@[simp] theorem step_release :
    step conn ⟨⟨t, l, m⟩, c⟩ ⟨op, .release⟩ = some (⟨⟨t, false, m⟩, c⟩, ⟨op, .done none⟩) := rfl

end Steps

/-! ### A call run alone -/

/-- What a call running alone keeps: past `Exist`'s check the set is in the map, and the set
    it hands the connection is not nil. -/
def SoloOk (name : String) (w : World NfSets σ) : Pc → Prop
  | .get | .read => name ∈ w.obj.sets
  | .call s => s.isSome
  | _ => True

theorem opStep_soloOk {op : Op} {w w' : World NfSets σ} {pc pc' : Pc}
    (hok : SoloOk op.name w pc) (h : opStep conn op w pc = some (w', pc')) :
    SoloOk op.name w' pc' := by
  cases pc with
  | check => simp only [opStep] at h; cases h; split <;> simp_all [SoloOk]
  | get => simp only [opStep] at h; split at h <;> cases h <;> first | exact hok | trivial
  | read => simp only [opStep] at h; cases h; simpa [SoloOk, Finmap.lookup_isSome] using hok
  | _ => simp only [opStep] at h; (try split at h) <;> cases h <;> trivial

theorem step_soloOk {w w' : World NfSets σ} {th th' : Thread}
    (hok : SoloOk th.op.name w th.pc) (h : step conn w th = some (w', th')) :
    SoloOk th'.op.name w' th'.pc := by
  simp only [step, Option.map_eq_some'] at h
  obtain ⟨⟨w₁, pc₁⟩, hs, he⟩ := h
  cases he
  exact opStep_soloOk conn hok hs

/-- **A call with no other call interleaved hands the connection no nil set**: run alone
    from any state, over any connection, `Exist`'s check still holds when the set is
    read. -/
theorem soloSet_hands_known (w : World NfSets σ) (op : Op) (is : List Nat)
    {c : World NfSets σ × List Thread}
    (h : Interleaving.runTrace (step conn) (w, [⟨op, .lock⟩]) is = some c) :
    ∃ w' th', c = (w', [th']) ∧ th'.pc ≠ .call none := by
  obtain ⟨w', th', rfl, hok⟩ := Interleaving.runTrace_solo (step conn)
    (fun w th => SoloOk th.op.name w th.pc) (fun _ _ _ _ => step_soloOk conn) is w ⟨op, .lock⟩ c
    trivial h
  exact ⟨w', th', rfl, fun hp => by simp [hp, SoloOk] at hok⟩

/-- The set `hosts` of table `filter`. -/
def hostsSet : Set := NfSets.newSet ⟨"filter", TableFamily.IPv4⟩ hostsAttrs 0

/-- `DelSet "hosts"` run alone to its end, on a store and a kernel that both hold the set
    `hosts`: it never hands the connection a nil set. -/
theorem soloSet_hands_known_delSet :
    ∃ c, Interleaving.runTrace (step (kernelConn [] fun _ => [hostsSet]))
        (⟨⟨⟨"filter", TableFamily.IPv4⟩, false, Finmap.singleton "hosts" hostsSet⟩, ⟨[], []⟩⟩,
          [⟨.delSet "hosts", .lock⟩])
        (List.replicate 9 0) = some c ∧
      ∃ w' th', c = (w', [th']) ∧ th'.pc ≠ .call none :=
  ⟨_, rfl, soloSet_hands_known (kernelConn [] fun _ => [hostsSet])
    ⟨⟨⟨"filter", TableFamily.IPv4⟩, false, Finmap.singleton "hosts" hostsSet⟩, ⟨[], []⟩⟩
    (.delSet "hosts") (List.replicate 9 0) rfl⟩

/-- **The steps of `DelSet` compose to the store's `DelSet`**: run alone from a free mutex,
    over any connection, a `DelSet` thread returns what `NfSets.DelSet` returns, on the
    same world. -/
theorem delSetSteps_refine_DelSet (name : String) (t : Table)
    (m : Finmap fun _ : String => Set) (c : σ) :
    ∃ n w' a, Interleaving.runTrace (step conn) (⟨⟨t, false, m⟩, c⟩, [⟨.delSet name, .lock⟩])
        (List.replicate n 0) = some (w', [⟨.delSet name, .done a⟩]) ∧
      NfSets.DelSet conn name ⟨⟨t, false, m⟩, c⟩ = .ok a w' := by
  rw [NfSets.DelSet_run]
  by_cases hm : name ∈ m
  · rw [if_pos hm]
    rcases hg : conn.getSetByName t name c with ⟨_ | s, c1⟩
    · refine ⟨3, _, _, ?_, rfl⟩
      simp only [List.replicate, Interleaving.runTrace_solo_cons, step_lock, step_check, step_get,
        Op.name, hm, hg, if_true, Option.some_bind, Interleaving.runTrace.eq_1, Op.notFound]
    · dsimp only
      rcases hf : conn.flush (conn.delSet (m.lookup name) c1) with ⟨_ | err, c2⟩
      · refine ⟨9, _, _, ?_, rfl⟩
        simp only [List.replicate, Interleaving.runTrace_solo_cons, step_lock, step_check, step_get,
          step_read, step_call, step_flush, step_relock, step_erase, step_release, Op.name,
          Op.connCall, hm, hg, hf, if_true, Option.some_bind, Interleaving.runTrace.eq_1]
      · refine ⟨6, _, _, ?_, rfl⟩
        simp only [List.replicate, Interleaving.runTrace_solo_cons, step_lock, step_check, step_get,
          step_read, step_call, step_flush, Op.name, Op.connCall, hm, hg, hf, if_true,
          Option.some_bind, Interleaving.runTrace.eq_1]
  · rw [if_neg hm]
    refine ⟨2, _, _, ?_, rfl⟩
    simp only [List.replicate, Interleaving.runTrace_solo_cons, step_lock, step_check, Op.name,
      hm, if_false, Option.some_bind, Interleaving.runTrace.eq_1, Op.notFound]

theorem connCall_changeElements (add : Bool) (name : String) (elements : List SetElement)
    (s : Option Set) (c : σ) :
    (Op.changeElements add name elements).connCall conn s c =
      (if add then conn.setAddElements else conn.setDeleteElements) s elements c := by
  cases add <;> rfl

/-- **The steps of an element change compose to the store's `changeElements`**: run alone
    from a free mutex, over any connection, a `SetAddElements` or `SetDelElements` thread
    returns what the store's call returns, on the same world. -/
theorem changeSteps_refine_changeElements (add : Bool) (name : String)
    (elements : List SetElement) (t : Table) (m : Finmap fun _ : String => Set) (c : σ) :
    ∃ n w' a, Interleaving.runTrace (step conn)
        (⟨⟨t, false, m⟩, c⟩, [⟨.changeElements add name elements, .lock⟩]) (List.replicate n 0) =
          some (w', [⟨.changeElements add name elements, .done a⟩]) ∧
      NfSets.changeElements conn (if add then conn.setAddElements else conn.setDeleteElements)
        name elements ⟨⟨t, false, m⟩, c⟩ = .ok a w' := by
  rw [NfSets.changeElements_run]
  by_cases hm : name ∈ m
  · rw [if_pos hm]
    rcases hg : conn.getSetByName t name c with ⟨_ | s, c1⟩
    · refine ⟨3, _, _, ?_, rfl⟩
      simp only [List.replicate, Interleaving.runTrace_solo_cons, step_lock, step_check, step_get,
        Op.name, hm, hg, if_true, Option.some_bind, Interleaving.runTrace.eq_1, Op.notFound]
    · dsimp only
      rw [← connCall_changeElements]
      rcases hq : (Op.changeElements add name elements).connCall conn (m.lookup name) c1 with
        ⟨_ | err, c2⟩
      · refine ⟨6, _, _, ?_, rfl⟩
        simp only [List.replicate, Interleaving.runTrace_solo_cons, step_lock, step_check, step_get,
          step_read, step_call, step_flush, Op.name, hm, hg, hq, if_true, Option.some_bind,
          Interleaving.runTrace.eq_1]
      · refine ⟨5, _, _, ?_, rfl⟩
        simp only [List.replicate, Interleaving.runTrace_solo_cons, step_lock, step_check, step_get,
          step_read, step_call, Op.name, hm, hg, hq, if_true, Option.some_bind,
          Interleaving.runTrace.eq_1]
  · rw [if_neg hm]
    refine ⟨2, _, _, ?_, rfl⟩
    simp only [List.replicate, Interleaving.runTrace_solo_cons, step_lock, step_check, Op.name,
      hm, if_false, Option.some_bind, Interleaving.runTrace.eq_1, Op.notFound]

end SetThreads

/-! ## §4. Two clients -/

/-- Client 0 syncs the IPv4 tables while client 1 deletes table `x`; the registry holds
    `x`, and the kernel lists `x` and `y`. -/
def tableRace : World NfTables Kernel × List TableThreads.Thread :=
  (⟨⟨false, Finmap.singleton TableFamily.IPv4
      (Finmap.singleton "x" (NfTables.freshRecord "x" TableFamily.IPv4))⟩,
    ⟨[⟨"x", TableFamily.IPv4⟩, ⟨"y", TableFamily.IPv4⟩], []⟩⟩,
   [⟨.sync TableFamily.IPv4, .lock⟩, ⟨.delete "x" TableFamily.IPv4, .lock⟩])

/-- A kernel that holds the sets `sets` of the table and records every set handed to
    `DelSet`, `SetAddElements` or `SetDelElements`. -/
def handedLog (sets : List Set) : NetNS (List (Option Set)) where
  addTable _ log := log
  delTable _ log := log
  flush log := (none, log)
  listTables log := (.ok [], log)
  listChains log := (.ok [], log)
  addSet _ _ log := (none, log)
  delSet s log := log ++ [s]
  getSets _ log := (.ok sets, log)
  getSetByName _ name log :=
    match sets.find? fun s => s.name = name with
    | some s => (.ok s, log)
    | none => (.error (.conn ("no set " ++ name)), log)
  getSetElements _ log := (.ok [], log)
  setAddElements s _ log := (none, log ++ [s])
  setDeleteElements s _ log := (none, log ++ [s])

/-- The set `blocklist` of table `filter`. -/
def filterBlocklist : Set :=
  NfSets.newSet ⟨"filter", TableFamily.IPv4⟩
    ⟨"blocklist", false, false, false, 0, false, TypeIPAddr, TypeInvalid⟩ 1

/-- Two clients delete `blocklist`, which the store and the kernel both hold. -/
def setRace : World NfSets (List (Option Set)) × List SetThreads.Thread :=
  (⟨⟨⟨"filter", TableFamily.IPv4⟩, false, Finmap.singleton "blocklist" filterBlocklist⟩, []⟩,
   [⟨.delSet "blocklist", .lock⟩, ⟨.delSet "blocklist", .lock⟩])

/-- Client 0's `create` checks the IPv4 bucket, client 1 deletes `x` and prunes the
    emptied bucket, and client 0's write into it panics; two `DelSet`s that both passed
    `Exist` hand the connection the set and then a nil set. -/
theorem interleaved_calls_break_store :
    (Interleaving.runTrace (TableThreads.step (kernelConn [] fun _ => [])) tableRace
        [0, 0, 0, 0, 0, 0, 1, 1, 1, 1, 1, 0]).map (fun c => c.2.map TableThreads.Thread.pc) =
      some [.panicked, .done none] ∧
    (Interleaving.runTrace (SetThreads.step (handedLog [filterBlocklist])) setRace
        [0, 0, 0, 1, 1, 1, 0, 0, 0, 0, 0, 0, 1, 1]).map (fun c => c.1.conn) =
      some [some filterBlocklist, none] :=
  ⟨by decide, by decide⟩

end NfTablesLib
