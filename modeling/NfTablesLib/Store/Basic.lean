/-
  NfTablesLib.Store.Basic — the state of the two stores, the connection they call and the
  language their operations are written in.

  An operation runs against a `World`: its store object (the table store `NfTables`, or
  one table's set store `NfSets`) and the connection's state.  It is an `EStateM` program:
  it returns a value, or stops without returning.  A call stops when it locks a mutex it
  already holds (a deadlock: Go's `sync.Mutex` is not reentrant), unlocks a free mutex or
  writes into a nil map (both runtime panics).

  The connection (`NetNS`) is absent from src/; every call is a function of the
  connection's state, so a theorem about every `NetNS` and every state is about every
  sequence of answers the kernel can give.
-/
import NfTablesLib.Types

namespace NfTablesLib

open Nftables

/-! ## §1. The connection -/

/-- Modelled from the spec: the connection (`NetNS`, absent from src/) as the stores use
    it.  The `add`/`del` calls enqueue an operation; `Flush` applies what is queued; the
    `list`/`get` calls query the kernel.  A call may read and change the connection's
    state `σ`, and answers with Go's `error` where the interface has one. -/
structure NetNS (σ : Type) where
  addTable : Table → σ → σ
  delTable : Table → σ → σ
  flush : σ → Option GoError × σ
  listTables : σ → Except GoError (List Table) × σ
  listChains : σ → Except GoError (List Chain) × σ
  addSet : Set → List SetElement → σ → Option GoError × σ
  delSet : Option Set → σ → σ
  getSets : Table → σ → Except GoError (List Set) × σ
  getSetByName : Table → String → σ → Except GoError Set × σ
  getSetElements : Option Set → σ → Except GoError (List SetElement) × σ
  setAddElements : Option Set → List SetElement → σ → Option GoError × σ
  setDeleteElements : Option Set → List SetElement → σ → Option GoError × σ

/-! ## §2. The stores -/

/-- `nfSets`: the set store of one table; `locked` is its embedded `sync.Mutex`. -/
structure NfSets where
  table : Table
  locked : Bool
  sets : Finmap fun _ : String => Set
  deriving DecidableEq

/-- Modelled from the spec: the chain store (chains.go is absent from src/), as much of
    it as the table store reaches: its table and its chains by name. -/
structure NfChains where
  table : Table
  chains : Finmap fun _ : String => Chain
  deriving DecidableEq

/-- `nfTable`: a table with its chain and set stores (a `nil` interface is `none`). -/
structure NfTable where
  table : Table
  chains : Option NfChains
  sets : Option NfSets
  deriving DecidableEq

/-- The registry: family → name → table record. -/
abbrev Registry := Finmap fun _ : TableFamily => Finmap fun _ : String => NfTable

/-- `nfTables`: the registry and its `sync.Mutex`. -/
structure NfTables where
  locked : Bool
  tables : Registry
  deriving DecidableEq

/-- Go's `len` of a map. -/
def mapLen {α β : Type} [DecidableEq α] (m : Finmap fun _ : α => β) : Nat := m.keys.card

/-- Erasing a key just inserted into a map that lacked it gives the map back. -/
theorem Finmap.erase_insert_of_not_mem {α β : Type} [DecidableEq α] {m : Finmap fun _ : α => β}
    {k : α} (h : k ∉ m) (v : β) : (m.insert k v).erase k = m :=
  Finmap.ext_lookup fun k' => by
    by_cases hk : k' = k
    · subst hk; rw [Finmap.lookup_erase, Finmap.lookup_eq_none.mpr h]
    · rw [Finmap.lookup_erase_ne hk, Finmap.lookup_insert_of_ne _ hk]

/-- `nft.tables[f][n]`: a lookup through a possibly absent family bucket. -/
def Registry.record (r : Registry) (f : TableFamily) (n : String) : Option NfTable :=
  (r.lookup f).bind fun bucket => bucket.lookup n

/-! ## §3. Operations -/

/-- How a call stops without returning. -/
inductive Stop where
  /-- `Lock` of a mutex the caller already holds: the call blocks forever. -/
  | deadlock
  /-- `Unlock` of a free mutex: a fatal runtime error. -/
  | unlockOfUnlocked
  /-- A write through a nil map or a method call on a nil interface: a runtime panic. -/
  | nilDeref
  deriving DecidableEq, Repr

/-- What an operation runs against: its store object and the connection's state. -/
structure World (S σ : Type) where
  obj : S
  conn : σ

/-- An operation on a store object of type `S` over a connection of state `σ`. -/
abbrev GoM (S σ α : Type) := EStateM Stop (World S σ) α

section Primitives

variable {S σ α : Type}

/-- The store object. -/
def getObj : GoM S σ S := fun w => .ok w.obj w

/-- Updates the store object. -/
def modifyObj (f : S → S) : GoM S σ Unit := fun w => .ok () { w with obj := f w.obj }

/-- One call of the connection. -/
def callConn (f : σ → α × σ) : GoM S σ α := fun w => .ok (f w.conn).1 { w with conn := (f w.conn).2 }

/-- `Lock` of the mutex `held` reads and `setHeld` writes. -/
def mutexLock (held : S → Bool) (setHeld : S → Bool → S) : GoM S σ Unit := fun w =>
  if held w.obj then .error .deadlock w else .ok () { w with obj := setHeld w.obj true }

/-- `Unlock` of the mutex `held` reads and `setHeld` writes. -/
def mutexUnlock (held : S → Bool) (setHeld : S → Bool → S) : GoM S σ Unit := fun w =>
  if held w.obj then .ok () { w with obj := setHeld w.obj false } else .error .unlockOfUnlocked w

/-! Running a program one step at a time: these unfold the primitives and `bind`, so
that `simp` evaluates an operation on a given world. -/

@[simp] theorem bind_apply {β : Type} (x : GoM S σ α) (f : α → GoM S σ β) (w : World S σ) :
    (x >>= f) w = match x w with
      | .ok a w' => f a w'
      | .error e w' => .error e w' := by
  simp only [bind, EStateM.bind]; cases x w <;> rfl

@[simp] theorem map_apply {β : Type} (f : α → β) (x : GoM S σ α) (w : World S σ) :
    (f <$> x) w = match x w with
      | .ok a w' => .ok (f a) w'
      | .error e w' => .error e w' := by
  simp only [Functor.map, EStateM.map]; cases x w <;> rfl

@[simp] theorem mutexLock_apply (held : S → Bool) (setHeld : S → Bool → S) (w : World S σ) :
    (mutexLock held setHeld : GoM S σ Unit) w =
      if held w.obj then .error .deadlock w else .ok () { w with obj := setHeld w.obj true } := rfl

@[simp] theorem mutexUnlock_apply (held : S → Bool) (setHeld : S → Bool → S) (w : World S σ) :
    (mutexUnlock held setHeld : GoM S σ Unit) w =
      if held w.obj then .ok () { w with obj := setHeld w.obj false }
      else .error .unlockOfUnlocked w := rfl

@[simp] theorem pure_apply (a : α) (w : World S σ) : (pure a : GoM S σ α) w = .ok a w := rfl

@[simp] theorem getObj_apply (w : World S σ) : (getObj : GoM S σ S) w = .ok w.obj w := rfl

@[simp] theorem modifyObj_apply (f : S → S) (w : World S σ) :
    (modifyObj f : GoM S σ Unit) w = .ok () { w with obj := f w.obj } := rfl

@[simp] theorem callConn_apply (f : σ → α × σ) (w : World S σ) :
    (callConn f : GoM S σ α) w = .ok (f w.conn).1 { w with conn := (f w.conn).2 } := rfl

/-- A mapped program returns exactly when the program does. -/
theorem map_ok {β : Type} {g : α → β} {x : GoM S σ α} {w w' : World S σ} {b : β}
    (h : (g <$> x) w = .ok b w') : ∃ a, x w = .ok a w' ∧ g a = b := by
  rw [map_apply] at h
  split at h
  · cases h; exact ⟨_, ‹_›, rfl⟩
  · cases h

end Primitives

end NfTablesLib
