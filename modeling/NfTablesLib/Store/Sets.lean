/-
  NfTablesLib.Store.Sets — the set store of one table, `nfSets` (src/nfsets.go).

  The store keeps the table's sets by name behind its own mutex.  `CreateSet` enqueues
  the new set, flushes, then registers it; `DelSet` and the element calls first check
  that the set is known both locally and to the kernel (`Exist`); `Sync` absorbs the
  kernel's sets the store does not know.  `Sync` locks the mutex a second time where
  it should unlock it.
-/
import NfTablesLib.Store.Basic

namespace NfTablesLib

open Nftables

/-- `SetAttributes` (src/nfsets.go). -/
structure SetAttributes where
  name : String
  constant : Bool
  isMap : Bool
  hasTimeout : Bool
  /-- `time.Duration`, in nanoseconds. -/
  timeout : Int
  interval : Bool
  keyType : SetDatatype
  dataType : SetDatatype
  deriving DecidableEq, Repr

/-- A plain set of IPv4 addresses named `hosts`. -/
def hostsAttrs : SetAttributes := ⟨"hosts", false, false, false, 0, false, TypeIPAddr, TypeInvalid⟩

namespace NfSets

variable {σ : Type} (conn : NetNS σ)

/-- `nfs.Lock()`. -/
def Lock : GoM NfSets σ Unit := mutexLock NfSets.locked fun s b => { s with locked := b }

/-- `nfs.Unlock()`. -/
def Unlock : GoM NfSets σ Unit := mutexUnlock NfSets.locked fun s b => { s with locked := b }

/-- `newSets`: an empty set store for table `t`. -/
def newSets (t : Table) : NfSets := ⟨t, false, ∅⟩

/-- The set `CreateSet` builds for table `t`; `id` is its draw of `rand.Intn(0xffff)`. -/
def newSet (t : Table) (attrs : SetAttributes) (id : UInt32) : Set :=
  { table := some t, id, name := attrs.name, anonymous := false, constant := attrs.constant,
    interval := attrs.interval, isMap := attrs.isMap, hasTimeout := attrs.hasTimeout,
    timeout := if attrs.hasTimeout ∧ attrs.timeout ≠ 0 then attrs.timeout else 0,
    keyType := attrs.keyType, dataType := attrs.dataType }

/-- The element list `CreateSet` assembles in `se`: for an interval set of addresses, an
    interval-end element on the zero address of the table's family, then the caller's
    elements.  `CreateSet` never passes it on. -/
def intervalElements (t : Table) (attrs : SetAttributes) (elements : List SetElement) :
    List SetElement :=
  let se :=
    if attrs.interval ∧ (attrs.keyType = TypeIPAddr ∨ attrs.keyType = TypeIP6Addr) then
      if t.family = TableFamily.IPv4 then [{ key := List.replicate 4 0, intervalEnd := true }]
      else [{ key := List.replicate 16 0, intervalEnd := true }]
    else []
  se ++ elements

/-- `CreateSet`: enqueue the set with `elements`, flush, and register it by name. -/
def CreateSet (attrs : SetAttributes) (elements : List SetElement) (id : UInt32) :
    GoM NfSets σ (Except GoError Set) := do
  let s := newSet (← getObj).table attrs id
  if let some err := (← callConn (conn.addSet s elements)) then return .error err
  if let some err := (← callConn conn.flush) then return .error err
  Lock
  modifyObj fun nfs => { nfs with sets := nfs.sets.insert attrs.name s }
  Unlock
  return .ok s

/-- `Exist`: the set is known locally and the kernel finds it by name. -/
def Exist (name : String) : GoM NfSets σ Bool := do
  Lock
  let ok := decide (name ∈ (← getObj).sets)
  Unlock
  if !ok then return false
  match ← callConn (conn.getSetByName (← getObj).table name) with
  | .error _ => return false
  | .ok _ => return true

/-- `GetSetByName`: the kernel's set of that name, if the store knows it. -/
def GetSetByName (name : String) : GoM NfSets σ (Except GoError Set) := do
  Lock
  let ok := decide (name ∈ (← getObj).sets)
  Unlock
  if !ok then return .error (.text ("set " ++ name ++ " is not found"))
  match ← callConn (conn.getSetByName (← getObj).table name) with
  | .error _ => return .error (.text ("set " ++ name ++ " is not found"))
  | .ok s => return .ok s

/-- `DelSet`: a set known locally and to the kernel is deleted, flushed, and removed
    from the store; any other name is a no-op. -/
def DelSet (name : String) : GoM NfSets σ (Option GoError) := do
  if ← Exist conn name then
    let nfs ← getObj
    callConn fun c => ((), conn.delSet (nfs.sets.lookup name) c)
    if let some err := (← callConn conn.flush) then return some err
    Lock
    modifyObj fun nfs => { nfs with sets := nfs.sets.erase name }
    Unlock
  return none

/-- `GetSets`: the kernel's sets of the table. -/
def GetSets : GoM NfSets σ (Except GoError (List Set)) := do
  callConn (conn.getSets (← getObj).table)

/-- `GetSetElements`: the kernel's elements of a set the store knows. -/
def GetSetElements (name : String) : GoM NfSets σ (Except GoError (List SetElement)) := do
  if ← Exist conn name then
    callConn (conn.getSetElements ((← getObj).sets.lookup name))
  else return .error (.text ("set " ++ name ++ " does not exist"))

/-- `SetAddElements` and `SetDelElements`: enqueue `op` on a set the store knows, then
    flush. -/
def changeElements (op : Option Set → List SetElement → σ → Option GoError × σ)
    (name : String) (elements : List SetElement) : GoM NfSets σ (Option GoError) := do
  if ← Exist conn name then
    if let some err := (← callConn (op ((← getObj).sets.lookup name) elements)) then
      return some err
    if let some err := (← callConn conn.flush) then return some err
    return none
  return some (.text ("set " ++ name ++ " does not exist"))

/-- `SetAddElements`. -/
def SetAddElements (name : String) (elements : List SetElement) :
    GoM NfSets σ (Option GoError) :=
  changeElements conn conn.setAddElements name elements

/-- `SetDelElements`. -/
def SetDelElements (name : String) (elements : List SetElement) :
    GoM NfSets σ (Option GoError) :=
  changeElements conn conn.setDeleteElements name elements

/-- `Sync`'s loop over the kernel's sets: a set the store does not know is written under
    `Lock`, followed by a second `Lock` where `Unlock` belongs. -/
def syncLoop : List Set → GoM NfSets σ Unit
  | [] => pure ()
  | set :: sets => do
    if set.name ∉ (← getObj).sets then
      Lock
      modifyObj fun nfs => { nfs with sets := nfs.sets.insert set.name set }
      Lock
    syncLoop sets

/-- `Sync`: absorb the kernel's sets of the table that the store does not know. -/
def Sync : GoM NfSets σ (Option GoError) := do
  match ← callConn (conn.getSets (← getObj).table) with
  | .error err => return some err
  | .ok sets =>
    syncLoop sets
    return none

/-! ## What each call does

Each lemma runs one call on a store whose mutex is free. -/

theorem Lock_locked (t : Table) (m : Finmap fun _ : String => Set) (c : σ) :
    (Lock : GoM NfSets σ Unit) ⟨⟨t, true, m⟩, c⟩ = .error .deadlock ⟨⟨t, true, m⟩, c⟩ := rfl

theorem Exist_run (name : String) (t : Table) (m : Finmap fun _ : String => Set) (c : σ) :
    Exist conn name ⟨⟨t, false, m⟩, c⟩ =
      if name ∈ m then
        .ok (conn.getSetByName t name c).1.toBool ⟨⟨t, false, m⟩, (conn.getSetByName t name c).2⟩
      else .ok false ⟨⟨t, false, m⟩, c⟩ := by
  by_cases h : name ∈ m <;>
    simp only [Exist, Lock, Unlock, bind_apply, getObj_apply, mutexLock_apply, mutexUnlock_apply,
      callConn_apply, pure_apply, pure_bind, h, decide_eq_false_iff_not, Bool.not_eq_eq_eq_not,
      Bool.not_true, ite_not, Bool.false_eq_true, ↓reduceIte]
  cases (conn.getSetByName t name c).1 <;> rfl

theorem CreateSet_run (attrs : SetAttributes) (elements : List SetElement) (id : UInt32)
    (t : Table) (m : Finmap fun _ : String => Set) (c : σ) :
    CreateSet conn attrs elements id ⟨⟨t, false, m⟩, c⟩ =
      match conn.addSet (newSet t attrs id) elements c with
      | (some err, c1) => .ok (.error err) ⟨⟨t, false, m⟩, c1⟩
      | (none, c1) =>
        match conn.flush c1 with
        | (some err, c2) => .ok (.error err) ⟨⟨t, false, m⟩, c2⟩
        | (none, c2) => .ok (.ok (newSet t attrs id))
            ⟨⟨t, false, m.insert attrs.name (newSet t attrs id)⟩, c2⟩ := by
  simp only [CreateSet, Lock, Unlock, bind_apply, getObj_apply, callConn_apply]
  rcases conn.addSet (newSet t attrs id) elements c with ⟨_ | err, c1⟩ <;> simp
  rcases conn.flush c1 with ⟨_ | err, c2⟩ <;> simp

theorem GetSetByName_run (name : String) (t : Table) (m : Finmap fun _ : String => Set)
    (c : σ) :
    GetSetByName conn name ⟨⟨t, false, m⟩, c⟩ =
      if name ∈ m then
        match conn.getSetByName t name c with
        | (.error _, c1) => .ok (.error (.text ("set " ++ name ++ " is not found"))) ⟨⟨t, false, m⟩, c1⟩
        | (.ok s, c1) => .ok (.ok s) ⟨⟨t, false, m⟩, c1⟩
      else .ok (.error (.text ("set " ++ name ++ " is not found"))) ⟨⟨t, false, m⟩, c⟩ := by
  by_cases h : name ∈ m <;>
    simp only [GetSetByName, Lock, Unlock, bind_apply, getObj_apply, mutexLock_apply,
      mutexUnlock_apply, callConn_apply, pure_apply, pure_bind, h, decide_eq_false_iff_not,
      Bool.not_eq_eq_eq_not, Bool.not_true, ite_not, Bool.false_eq_true, ↓reduceIte]
  rcases conn.getSetByName t name c with ⟨_ | _, c1⟩ <;> rfl

theorem DelSet_run (name : String) (t : Table) (m : Finmap fun _ : String => Set) (c : σ) :
    DelSet conn name ⟨⟨t, false, m⟩, c⟩ =
      if name ∈ m then
        match conn.getSetByName t name c with
        | (.error _, c1) => .ok none ⟨⟨t, false, m⟩, c1⟩
        | (.ok _, c1) =>
          match conn.flush (conn.delSet (m.lookup name) c1) with
          | (some err, c2) => .ok (some err) ⟨⟨t, false, m⟩, c2⟩
          | (none, c2) => .ok none ⟨⟨t, false, m.erase name⟩, c2⟩
      else .ok none ⟨⟨t, false, m⟩, c⟩ := by
  simp only [DelSet, bind_apply, Exist_run]
  split_ifs
  · rcases conn.getSetByName t name c with ⟨_ | _, c1⟩
    · rfl
    · simp only [Except.toBool, Lock, Unlock, getObj_apply, callConn_apply, mutexLock_apply,
        mutexUnlock_apply]
      rcases h : conn.flush (conn.delSet (m.lookup name) c1) with ⟨_ | err, c2⟩ <;> simp [h]
  · rfl

theorem GetSets_run (t : Table) (m : Finmap fun _ : String => Set) (c : σ) :
    GetSets conn ⟨⟨t, false, m⟩, c⟩ =
      .ok (conn.getSets t c).1 ⟨⟨t, false, m⟩, (conn.getSets t c).2⟩ := rfl

theorem GetSetElements_run (name : String) (t : Table) (m : Finmap fun _ : String => Set)
    (c : σ) :
    GetSetElements conn name ⟨⟨t, false, m⟩, c⟩ =
      if name ∈ m then
        match conn.getSetByName t name c with
        | (.error _, c1) =>
          .ok (.error (.text ("set " ++ name ++ " does not exist"))) ⟨⟨t, false, m⟩, c1⟩
        | (.ok _, c1) =>
          .ok (conn.getSetElements (m.lookup name) c1).1
            ⟨⟨t, false, m⟩, (conn.getSetElements (m.lookup name) c1).2⟩
      else .ok (.error (.text ("set " ++ name ++ " does not exist"))) ⟨⟨t, false, m⟩, c⟩ := by
  simp only [GetSetElements, bind_apply, Exist_run]
  split_ifs
  · rcases conn.getSetByName t name c with ⟨_ | _, c1⟩ <;> rfl
  · rfl

theorem changeElements_run (op : Option Set → List SetElement → σ → Option GoError × σ)
    (name : String) (elements : List SetElement) (t : Table)
    (m : Finmap fun _ : String => Set) (c : σ) :
    changeElements conn op name elements ⟨⟨t, false, m⟩, c⟩ =
      if name ∈ m then
        match conn.getSetByName t name c with
        | (.error _, c1) =>
          .ok (some (.text ("set " ++ name ++ " does not exist"))) ⟨⟨t, false, m⟩, c1⟩
        | (.ok _, c1) =>
          match op (m.lookup name) elements c1 with
          | (some err, c2) => .ok (some err) ⟨⟨t, false, m⟩, c2⟩
          | (none, c2) => .ok (conn.flush c2).1 ⟨⟨t, false, m⟩, (conn.flush c2).2⟩
      else .ok (some (.text ("set " ++ name ++ " does not exist"))) ⟨⟨t, false, m⟩, c⟩ := by
  simp only [changeElements, bind_apply, Exist_run]
  split_ifs
  · rcases conn.getSetByName t name c with ⟨_ | _, c1⟩
    · rfl
    · simp only [Except.toBool, if_true, bind_apply, getObj_apply, callConn_apply]
      rcases h : op (m.lookup name) elements c1 with ⟨_ | err, c2⟩ <;> simp [h]
      rcases conn.flush c2 with ⟨_ | _, c3⟩ <;> rfl
  · rfl

/-- The first set of the listing that the store does not know. -/
def firstUnknown (m : Finmap fun _ : String => Set) (sets : List Set) : Option Set :=
  sets.find? fun s => decide (s.name ∉ m)

theorem syncLoop_run (t : Table) (m : Finmap fun _ : String => Set) (c : σ) (sets : List Set) :
    syncLoop sets ⟨⟨t, false, m⟩, c⟩ =
      match firstUnknown m sets with
      | none => .ok () ⟨⟨t, false, m⟩, c⟩
      | some s => .error .deadlock ⟨⟨t, true, m.insert s.name s⟩, c⟩ := by
  induction sets with
  | nil => rfl
  | cons s sets ih =>
    simp only [syncLoop, firstUnknown, List.find?_cons, bind_apply, getObj_apply]
    by_cases hs : s.name ∈ m
    · simpa [hs, firstUnknown] using ih
    · simp [hs, Lock]

theorem Sync_run (t : Table) (m : Finmap fun _ : String => Set) (c : σ) :
    Sync conn ⟨⟨t, false, m⟩, c⟩ =
      match conn.getSets t c with
      | (.error err, c1) => .ok (some err) ⟨⟨t, false, m⟩, c1⟩
      | (.ok sets, c1) =>
        match firstUnknown m sets with
        | none => .ok none ⟨⟨t, false, m⟩, c1⟩
        | some s => .error .deadlock ⟨⟨t, true, m.insert s.name s⟩, c1⟩ := by
  simp only [Sync, bind_apply, getObj_apply, callConn_apply]
  rcases conn.getSets t c with ⟨_ | sets, c1⟩
  · rfl
  · simp only [bind_apply, syncLoop_run]
    cases firstUnknown m sets <;> rfl

/-! ## The same calls on a store whose mutex is held

Every call that takes the mutex before its first connection call blocks at once;
`CreateSet` blocks only after its flush, and `Sync` only at a set it does not know. -/

section Held

variable (t : Table) (m : Finmap fun _ : String => Set) (c : σ)

theorem Exist_held (name : String) :
    Exist conn name ⟨⟨t, true, m⟩, c⟩ = .error .deadlock ⟨⟨t, true, m⟩, c⟩ := rfl

theorem GetSetByName_held (name : String) :
    GetSetByName conn name ⟨⟨t, true, m⟩, c⟩ = .error .deadlock ⟨⟨t, true, m⟩, c⟩ := rfl

theorem DelSet_held (name : String) :
    DelSet conn name ⟨⟨t, true, m⟩, c⟩ = .error .deadlock ⟨⟨t, true, m⟩, c⟩ := rfl

theorem GetSetElements_held (name : String) :
    GetSetElements conn name ⟨⟨t, true, m⟩, c⟩ = .error .deadlock ⟨⟨t, true, m⟩, c⟩ := rfl

theorem changeElements_held (op : Option Set → List SetElement → σ → Option GoError × σ)
    (name : String) (elements : List SetElement) :
    changeElements conn op name elements ⟨⟨t, true, m⟩, c⟩ =
      .error .deadlock ⟨⟨t, true, m⟩, c⟩ := rfl

theorem CreateSet_held (attrs : SetAttributes) (elements : List SetElement) (id : UInt32) :
    CreateSet conn attrs elements id ⟨⟨t, true, m⟩, c⟩ =
      match conn.addSet (newSet t attrs id) elements c with
      | (some err, c1) => .ok (.error err) ⟨⟨t, true, m⟩, c1⟩
      | (none, c1) =>
        match conn.flush c1 with
        | (some err, c2) => .ok (.error err) ⟨⟨t, true, m⟩, c2⟩
        | (none, c2) => .error .deadlock ⟨⟨t, true, m⟩, c2⟩ := by
  simp only [CreateSet, Lock, bind_apply, getObj_apply, callConn_apply]
  rcases conn.addSet (newSet t attrs id) elements c with ⟨_ | err, c1⟩ <;> simp
  rcases conn.flush c1 with ⟨_ | err, c2⟩ <;> simp

theorem syncLoop_held (sets : List Set) :
    syncLoop sets ⟨⟨t, true, m⟩, c⟩ =
      match firstUnknown m sets with
      | none => .ok () ⟨⟨t, true, m⟩, c⟩
      | some _ => .error .deadlock ⟨⟨t, true, m⟩, c⟩ := by
  induction sets with
  | nil => rfl
  | cons s sets ih =>
    simp only [syncLoop, firstUnknown, List.find?_cons, bind_apply, getObj_apply]
    by_cases hs : s.name ∈ m
    · simpa [hs, firstUnknown] using ih
    · simp [hs, Lock]

theorem Sync_held :
    Sync conn ⟨⟨t, true, m⟩, c⟩ =
      match conn.getSets t c with
      | (.error err, c1) => .ok (some err) ⟨⟨t, true, m⟩, c1⟩
      | (.ok sets, c1) =>
        match firstUnknown m sets with
        | none => .ok none ⟨⟨t, true, m⟩, c1⟩
        | some _ => .error .deadlock ⟨⟨t, true, m⟩, c1⟩ := by
  simp only [Sync, bind_apply, getObj_apply, callConn_apply]
  rcases conn.getSets t c with ⟨_ | sets, c1⟩
  · rfl
  · simp only [bind_apply, syncLoop_held]
    cases firstUnknown m sets <;> rfl

end Held

/-! ## What a returning call leaves

From any store: only `CreateSet` and `DelSet` change it, and only on success from a free
mutex; every other call that returns leaves the store as it found it. -/

section Returns

variable {α : Type} {s : NfSets} {c : σ} {w' : World NfSets σ}

theorem Exist_returns {name : String} {a : Bool} (h : Exist conn name ⟨s, c⟩ = .ok a w') :
    w'.obj = s := by
  obtain ⟨t, _ | _, m⟩ := s
  · rw [Exist_run] at h
    split_ifs at h <;> cases h <;> rfl
  · cases h

theorem GetSetByName_returns {name : String} {a : Except GoError Set}
    (h : GetSetByName conn name ⟨s, c⟩ = .ok a w') : w'.obj = s := by
  obtain ⟨t, _ | _, m⟩ := s
  · rw [GetSetByName_run] at h
    split_ifs at h
    · split at h <;> cases h <;> rfl
    · cases h; rfl
  · cases h

theorem GetSets_returns {a : Except GoError (List Set)} (h : GetSets conn ⟨s, c⟩ = .ok a w') :
    w'.obj = s := by
  cases h; rfl

theorem GetSetElements_returns {name : String} {a : Except GoError (List SetElement)}
    (h : GetSetElements conn name ⟨s, c⟩ = .ok a w') : w'.obj = s := by
  obtain ⟨t, _ | _, m⟩ := s
  · rw [GetSetElements_run] at h
    split_ifs at h
    · split at h <;> cases h <;> rfl
    · cases h; rfl
  · cases h

theorem changeElements_returns {op : Option Set → List SetElement → σ → Option GoError × σ}
    {name : String} {elements : List SetElement} {a : Option GoError}
    (h : changeElements conn op name elements ⟨s, c⟩ = .ok a w') : w'.obj = s := by
  obtain ⟨t, _ | _, m⟩ := s
  · rw [changeElements_run] at h
    split_ifs at h
    · split at h
      · cases h; rfl
      · split at h <;> cases h <;> rfl
    · cases h; rfl
  · cases h

theorem Sync_returns {a : Option GoError} (h : Sync conn ⟨s, c⟩ = .ok a w') : w'.obj = s := by
  obtain ⟨t, _ | _, m⟩ := s
  · rw [Sync_run] at h
    split at h
    · cases h; rfl
    · split at h <;> cases h; rfl
  · rw [Sync_held] at h
    split at h
    · cases h; rfl
    · split at h <;> cases h; rfl

theorem CreateSet_returns {attrs : SetAttributes} {elements : List SetElement} {id : UInt32}
    {a : Except GoError Set} (h : CreateSet conn attrs elements id ⟨s, c⟩ = .ok a w') :
    (w'.obj = s ∧ ∃ err, a = .error err) ∨
      (s.locked = false ∧ a = .ok (newSet s.table attrs id) ∧
        w'.obj = { s with sets := s.sets.insert attrs.name (newSet s.table attrs id) }) := by
  obtain ⟨t, l, m⟩ := s
  cases l
  · rw [CreateSet_run] at h
    split at h
    · cases h; exact .inl ⟨rfl, _, rfl⟩
    · split at h <;> cases h
      · exact .inl ⟨rfl, _, rfl⟩
      · exact .inr ⟨rfl, rfl, rfl⟩
  · rw [CreateSet_held] at h
    split at h
    · cases h; exact .inl ⟨rfl, _, rfl⟩
    · split at h <;> cases h
      exact .inl ⟨rfl, _, rfl⟩

theorem DelSet_returns {name : String} {a : Option GoError}
    (h : DelSet conn name ⟨s, c⟩ = .ok a w') :
    w'.obj = s ∨ (s.locked = false ∧ a = none ∧ w'.obj = { s with sets := s.sets.erase name }) := by
  obtain ⟨t, _ | _, m⟩ := s
  · rw [DelSet_run] at h
    split_ifs at h
    · split at h
      · cases h; exact .inl rfl
      · split at h <;> cases h
        · exact .inl rfl
        · exact .inr ⟨rfl, rfl, rfl⟩
    · cases h; exact .inl rfl
  · cases h

end Returns

end NfSets

end NfTablesLib
