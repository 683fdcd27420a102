/-
  NfTablesLib.Properties.SetStore — what `CreateSet` hands the connection.

  `CreateSet` assembles `se`, the interval-end element an interval set of addresses needs
  followed by the caller's elements, and then enqueues the set with the caller's elements
  alone.  A connection that records its add-set calls makes this visible.

  Main results:
    * `CreateSet_enqueues` — over the recording connection, for every input: the add-set
      call carries the caller's elements and the set registered is the set enqueued;
    * `CreateSet_enqueues_without_interval_end` — the same at an interval IPv4 set, where
      `se` would have carried the zero address.
-/
import NfTablesLib.Store.Sets

namespace NfTablesLib

open Nftables

/-- A connection that records every add-set call and accepts every request. -/
def recorder : NetNS (List (Set × List SetElement)) where
  addTable _ log := log
  delTable _ log := log
  flush log := (none, log)
  listTables log := (.ok [], log)
  listChains log := (.ok [], log)
  addSet s elements log := (none, log ++ [(s, elements)])
  delSet _ log := log
  getSets _ log := (.ok [], log)
  getSetByName _ name log := (.error (.conn ("no set " ++ name)), log)
  getSetElements _ log := (.ok [], log)
  setAddElements _ _ log := (none, log)
  setDeleteElements _ _ log := (none, log)

/-- Over the recording connection, `CreateSet` enqueues the set it builds with the caller's
    elements, and registers that same set under its name. -/
theorem CreateSet_enqueues (attrs : SetAttributes) (elements : List SetElement) (id : UInt32)
    (t : Table) (m : Finmap fun _ : String => Set) (log : List (Set × List SetElement)) :
    NfSets.CreateSet recorder attrs elements id ⟨⟨t, false, m⟩, log⟩ =
      .ok (.ok (NfSets.newSet t attrs id))
        ⟨⟨t, false, m.insert attrs.name (NfSets.newSet t attrs id)⟩,
          log ++ [(NfSets.newSet t attrs id, elements)]⟩ := by
  rw [NfSets.CreateSet_run]; rfl

/-- The attributes of an interval set of IPv4 addresses. -/
def hostRanges : SetAttributes :=
  { name := "hosts", constant := false, isMap := false, hasTimeout := false, timeout := 0,
    interval := true, keyType := TypeIPAddr, dataType := TypeInvalid }

theorem CreateSet_enqueues_without_interval_end :
    NfSets.CreateSet recorder hostRanges [] 0 ⟨⟨⟨"filter", TableFamily.IPv4⟩, false, ∅⟩, []⟩ =
        .ok (.ok (NfSets.newSet ⟨"filter", TableFamily.IPv4⟩ hostRanges 0))
          ⟨⟨⟨"filter", TableFamily.IPv4⟩, false,
              (∅ : Finmap fun _ : String => Set).insert "hosts"
                (NfSets.newSet ⟨"filter", TableFamily.IPv4⟩ hostRanges 0)⟩,
            [(NfSets.newSet ⟨"filter", TableFamily.IPv4⟩ hostRanges 0, [])]⟩ ∧
      NfSets.intervalElements ⟨"filter", TableFamily.IPv4⟩ hostRanges [] =
        [{ key := [0, 0, 0, 0], intervalEnd := true }] ∧
      NfSets.intervalElements ⟨"filter", TableFamily.INet⟩ hostRanges [] =
        [{ key := List.replicate 16 0, intervalEnd := true }] :=
  ⟨CreateSet_enqueues _ _ _ _ _ _, rfl, rfl⟩

end NfTablesLib
