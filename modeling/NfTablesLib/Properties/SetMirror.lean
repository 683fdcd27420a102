/-
  NfTablesLib.Properties.SetMirror — a set store against the kernel's sets, over the kernel
  connection of `Store.SetKernel`.

  Every call of the set store that changes the kernel flushes at once, and only changes its
  own map once the flush succeeded, so the store keeps holding, under each name, exactly the
  kernel's set of its table with that name.  With that, no call blocks: `Sync` finds
  nothing to absorb, so the second `Lock` it takes after absorbing a set is never reached.

  Main results:
    * `SetCall.run_mirrors` — one call returns and keeps the mirror;
    * `setStore_mirrors_kernel` — every run of set calls from a mirroring store returns,
      and the store still mirrors the kernel;
    * `createSet_delSet_restores` — `DelSet` after `CreateSet` of a new name gives back the
      store and the kernel it started from;
    * `setStore_views_agree` — after any run from a new store, `GetSets` lists exactly the
      sets the store holds and `GetSetByName` returns the store's set by name.
-/
import NfTablesLib.Store.Calls
import NfTablesLib.Store.SetKernel

namespace NfTablesLib

open Nftables

/-! ## §1. A client's calls on one set store -/

/-- The calls of the set store of one table. -/
inductive SetCall where
  | createSet (attrs : SetAttributes) (elements : List SetElement) (id : UInt32)
  | delSet (name : String)
  | exist (name : String)
  | getSetByName (name : String)
  | getSets
  | getSetElements (name : String)
  | setAddElements (name : String) (elements : List SetElement)
  | setDelElements (name : String) (elements : List SetElement)
  | sync

/-- A set call, run against the store; its result is the error it reports. -/
def SetCall.run {σ : Type} (conn : NetNS σ) : SetCall → GoM NfSets σ (Option GoError)
  | .createSet attrs elements id => errOf <$> NfSets.CreateSet conn attrs elements id
  | .delSet name => NfSets.DelSet conn name
  | .exist name => (fun _ => none) <$> NfSets.Exist conn name
  | .getSetByName name => errOf <$> NfSets.GetSetByName conn name
  | .getSets => errOf <$> NfSets.GetSets conn
  | .getSetElements name => errOf <$> NfSets.GetSetElements conn name
  | .setAddElements name elements => NfSets.SetAddElements conn name elements
  | .setDelElements name elements => NfSets.SetDelElements conn name elements
  | .sync => NfSets.Sync conn

/-- A client's set calls made one after another, each once the previous one returned;
    `none` when one of them never returns. -/
def runSetCalls {σ : Type} (conn : NetNS σ) :
    List SetCall → World NfSets σ → Option (World NfSets σ)
  | [], w => some w
  | call :: calls, w =>
    match call.run conn w with
    | .ok _ w' => runSetCalls conn calls w'
    | .error _ _ => none

/-! ## §2. The mirror -/

/-- The store mirrors the kernel: its mutex is free, nothing is queued, and it holds under
    each name exactly the kernel's set of its table with that name. -/
structure SetMirror (w : World NfSets SetKernel) : Prop where
  free : w.obj.locked = false
  flushed : w.conn.queue = []
  agree : ∀ name, w.obj.sets.lookup name = findSet w.conn.sets w.obj.table name

section Mirror

variable {t : Table} {m : Finmap fun _ : String => Set} {ks : List Set} {name : String}

theorem setKernelConn_getSetByName_conn (t : Table) (name : String) (k : SetKernel) :
    (setKernelConn.getSetByName t name k).2 = k := by
  simp only [setKernelConn]
  split <;> rfl

@[simp] theorem setKernelConn_getSetElements (s : Option Set) (k : SetKernel) :
    setKernelConn.getSetElements s k = (.ok [], k) := rfl

/-- Under the mirror, the kernel answers `GetSetByName` for a name the store holds with the
    store's own set. -/
theorem SetMirror.getSetByName (hm : ∀ name, m.lookup name = findSet ks t name)
    (hmem : name ∈ m) :
    ∃ x, m.lookup name = some x ∧ findSet ks t name = some x ∧
      setKernelConn.getSetByName t name ⟨ks, []⟩ = (.ok x, ⟨ks, []⟩) := by
  obtain ⟨x, hx⟩ := Finmap.mem_iff.mp hmem
  have hk : findSet ks t name = some x := (hm name).symm.trans hx
  exact ⟨x, hx, hk, setKernelConn_getSetByName_some _ _ _ hk⟩

/-- Under the mirror, every kernel set of the store's table has its name in the store, so
    `Sync` finds nothing to absorb. -/
theorem SetMirror.firstUnknown (hm : ∀ name, m.lookup name = findSet ks t name) :
    NfSets.firstUnknown m (ks.filter fun s => s.table = some t) = none := by
  rw [NfSets.firstUnknown, List.find?_eq_none]
  intro x hx
  simp only [List.mem_filter, decide_eq_true_eq] at hx
  have hk : findSet ks t x.name ≠ none := fun h =>
    findSet_eq_none.mp h x hx.1 ⟨hx.2, rfl⟩
  rw [← hm] at hk
  simpa using Finmap.lookup_isSome.mp (Option.isSome_iff_ne_none.mpr hk)

theorem SetMirror.createSet (hm : ∀ name, m.lookup name = findSet ks t name)
    (attrs : SetAttributes) (id : UInt32) (name : String) :
    (m.insert attrs.name (NfSets.newSet t attrs id)).lookup name =
      findSet ((SetOp.add (NfSets.newSet t attrs id)).apply ks) t name := by
  rw [findSet_apply_add]
  by_cases hn : name = attrs.name
  · subst hn
    simp [Finmap.lookup_insert, NfSets.newSet]
  · rw [Finmap.lookup_insert_of_ne _ hn, if_neg fun h => hn h.2.symm, hm]

theorem SetMirror.delSet (hm : ∀ name, m.lookup name = findSet ks t name) {x : Set}
    (hk : findSet ks t name = some x) (name' : String) :
    (m.erase name).lookup name' = findSet ((SetOp.del x).apply ks) t name' := by
  obtain ⟨-, hxt, hxn⟩ := findSet_some hk
  rw [findSet_apply_del]
  by_cases hn : name' = name
  · subst hn
    rw [Finmap.lookup_erase, if_pos ⟨hxt, hxn⟩]
  · rw [Finmap.lookup_erase_ne hn, if_neg fun h => hn (h.2.symm.trans hxn), hm]

end Mirror

/-- A new set store mirrors a kernel with no sets. -/
theorem setMirror_newSets (t : Table) : SetMirror ⟨NfSets.newSets t, ⟨[], []⟩⟩ :=
  ⟨rfl, rfl, fun _ => by simp [NfSets.newSets, findSet, Finmap.lookup_empty]⟩

/-! ## §3. What one call does, and every call keeps the mirror -/

/-- **What one set call does on a mirroring store.**  It returns, and either leaves the world
    as it was, or is a `CreateSet` that adds the new set to the map and, flushed, to the
    kernel, or a `DelSet` of a set the map holds that removes it from both. -/
theorem SetCall.run_cases (call : SetCall) {w : World NfSets SetKernel} (hm : SetMirror w) :
    ∃ a w', call.run setKernelConn w = .ok a w' ∧
      (w' = w ∨
        (∃ attrs id, w' = ⟨{ w.obj with
            sets := w.obj.sets.insert attrs.name (NfSets.newSet w.obj.table attrs id) },
          ⟨(SetOp.add (NfSets.newSet w.obj.table attrs id)).apply w.conn.sets, []⟩⟩) ∨
        (∃ name x, w.obj.sets.lookup name = some x ∧
          w' = ⟨{ w.obj with sets := w.obj.sets.erase name }, ⟨(SetOp.del x).apply w.conn.sets, []⟩⟩)) := by
  obtain ⟨⟨t, l, m⟩, ⟨ks, q⟩⟩ := w
  obtain ⟨hl, hq, hagree⟩ := hm
  simp only at hl hq hagree
  subst hl hq
  cases call with
  | createSet attrs elements id =>
    simp only [SetCall.run, map_apply, NfSets.CreateSet_run, setKernelConn_addSet,
      setKernelConn_flush, List.nil_append, pending_single]
    exact ⟨_, _, rfl, .inr (.inl ⟨attrs, id, rfl⟩)⟩
  | delSet name =>
    simp only [SetCall.run, NfSets.DelSet_run]
    by_cases hmem : name ∈ m
    · obtain ⟨x, hx, -, hg⟩ := SetMirror.getSetByName hagree hmem
      simp only [if_pos hmem, hg, hx, setKernelConn_delSet, setKernelConn_flush, List.nil_append,
        pending_single]
      exact ⟨_, _, rfl, .inr (.inr ⟨name, x, hx, rfl⟩)⟩
    · rw [if_neg hmem]; exact ⟨_, _, rfl, .inl rfl⟩
  | exist name =>
    simp only [SetCall.run, map_apply, NfSets.Exist_run, setKernelConn_getSetByName_conn]
    split_ifs <;> exact ⟨_, _, rfl, .inl rfl⟩
  | getSetByName name =>
    simp only [SetCall.run, map_apply, NfSets.GetSetByName_run]
    by_cases hmem : name ∈ m
    · obtain ⟨x, -, -, hg⟩ := SetMirror.getSetByName hagree hmem
      simp only [if_pos hmem, hg]; exact ⟨_, _, rfl, .inl rfl⟩
    · rw [if_neg hmem]; exact ⟨_, _, rfl, .inl rfl⟩
  | getSets =>
    simp only [SetCall.run, map_apply, NfSets.GetSets_run, setKernelConn_getSets]
    exact ⟨_, _, rfl, .inl rfl⟩
  | getSetElements name =>
    simp only [SetCall.run, map_apply, NfSets.GetSetElements_run]
    by_cases hmem : name ∈ m
    · obtain ⟨x, -, -, hg⟩ := SetMirror.getSetByName hagree hmem
      simp only [if_pos hmem, hg, setKernelConn_getSetElements]; exact ⟨_, _, rfl, .inl rfl⟩
    · rw [if_neg hmem]; exact ⟨_, _, rfl, .inl rfl⟩
  | setAddElements name elements | setDelElements name elements =>
    simp only [SetCall.run, NfSets.SetAddElements, NfSets.SetDelElements, NfSets.changeElements_run]
    by_cases hmem : name ∈ m
    · obtain ⟨x, -, -, hg⟩ := SetMirror.getSetByName hagree hmem
      simp only [if_pos hmem, hg, setKernelConn_flush, pending_nil_queue]
      exact ⟨_, _, rfl, .inl rfl⟩
    · rw [if_neg hmem]; exact ⟨_, _, rfl, .inl rfl⟩
  | sync =>
    simp only [SetCall.run, NfSets.Sync_run, setKernelConn_getSets, SetMirror.firstUnknown hagree]
    exact ⟨_, _, rfl, .inl rfl⟩

/-- **Step lemma.** From a store that mirrors the kernel, every set call returns and leaves
    a store that mirrors the kernel. -/
theorem SetCall.run_mirrors (call : SetCall) {w : World NfSets SetKernel} (hm : SetMirror w) :
    ∃ a w', call.run setKernelConn w = .ok a w' ∧ SetMirror w' := by
  obtain ⟨a, w', h, hw⟩ := call.run_cases hm
  refine ⟨a, w', h, ?_⟩
  rcases hw with rfl | ⟨attrs, id, rfl⟩ | ⟨name, x, hx, rfl⟩
  · exact hm
  · exact ⟨hm.free, rfl, SetMirror.createSet hm.agree attrs id⟩
  · exact ⟨hm.free, rfl, SetMirror.delSet hm.agree ((hm.agree name).symm.trans hx)⟩

/-- One induction over a client's calls: an invariant that every call keeps, returning, holds
    after every run, which returns. -/
theorem runSetCalls_preserves (P : World NfSets SetKernel → Prop)
    (hstep : ∀ (call : SetCall) w, P w → ∃ a w', call.run setKernelConn w = .ok a w' ∧ P w') :
    ∀ (calls : List SetCall) w, P w → ∃ w', runSetCalls setKernelConn calls w = some w' ∧ P w'
  | [], w, hw => ⟨w, rfl, hw⟩
  | call :: calls, w, hw => by
    obtain ⟨a, w₁, h₁, hw₁⟩ := hstep call w hw
    simp only [runSetCalls, h₁]
    exact runSetCalls_preserves P hstep calls w₁ hw₁

/-- **The set store mirrors the kernel.**  From a store that holds under each name exactly
    the kernel's set of its table with that name, with its mutex free and nothing queued,
    every run of set calls over the kernel returns, and the store it leaves mirrors the
    kernel the same way. -/
theorem setStore_mirrors_kernel (calls : List SetCall) (w : World NfSets SetKernel)
    (hm : SetMirror w) : ∃ w', runSetCalls setKernelConn calls w = some w' ∧ SetMirror w' :=
  runSetCalls_preserves SetMirror (fun call _ => call.run_mirrors) calls w hm

theorem setStore_mirrors_kernel_hosts :
    SetMirror ⟨NfSets.newSets ⟨"filter", TableFamily.IPv4⟩, ⟨[], []⟩⟩ ∧
      ∃ w', runSetCalls setKernelConn [.createSet hostsAttrs [] 0, .sync, .delSet "hosts"]
          ⟨NfSets.newSets ⟨"filter", TableFamily.IPv4⟩, ⟨[], []⟩⟩ = some w' ∧ SetMirror w' :=
  ⟨setMirror_newSets _, setStore_mirrors_kernel _ _ (setMirror_newSets _)⟩

/-! ## §4. `DelSet` undoes `CreateSet` -/

/-- **`DelSet` undoes `CreateSet` of a new name.**  From a store that mirrors the kernel
    and holds no set of that name, `CreateSet` followed by `DelSet` of its name both return,
    and give back the store and the kernel they started from. -/
theorem createSet_delSet_restores (attrs : SetAttributes) (elements : List SetElement)
    (id : UInt32) {w : World NfSets SetKernel} (hm : SetMirror w) (hn : attrs.name ∉ w.obj.sets) :
    runSetCalls setKernelConn [.createSet attrs elements id, .delSet attrs.name] w = some w := by
  obtain ⟨⟨t, l, m⟩, ⟨ks, q⟩⟩ := w
  obtain ⟨hl, hq, hagree⟩ := hm
  simp only at hl hq hagree hn
  subst hl hq
  have hk : findSet ks t attrs.name = none := by
    rw [← hagree]; exact Finmap.lookup_eq_none.mpr hn
  -- the kernel finds the new set, and deleting it again gives back its sets
  have hg : setKernelConn.getSetByName t attrs.name
      ⟨(SetOp.add (NfSets.newSet t attrs id)).apply ks, []⟩ =
        (.ok (NfSets.newSet t attrs id), ⟨(SetOp.add (NfSets.newSet t attrs id)).apply ks, []⟩) :=
    setKernelConn_getSetByName_some _ _ _ (by rw [findSet_apply_add, if_pos ⟨rfl, rfl⟩])
  have hdel : (SetOp.del (NfSets.newSet t attrs id)).apply
      ((SetOp.add (NfSets.newSet t attrs id)).apply ks) = ks :=
    apply_del_add_of_absent hk rfl rfl
  simp only [runSetCalls, SetCall.run, map_apply, NfSets.CreateSet_run, setKernelConn_addSet,
    setKernelConn_flush, List.nil_append, pending_single, NfSets.DelSet_run,
    if_pos (Finmap.mem_insert.mpr (.inl rfl)), hg, Finmap.lookup_insert, setKernelConn_delSet,
    hdel, Finmap.erase_insert_of_not_mem hn]

theorem createSet_delSet_restores_hosts :
    SetMirror ⟨NfSets.newSets ⟨"filter", TableFamily.IPv4⟩, ⟨[], []⟩⟩ ∧
      hostsAttrs.name ∉ (NfSets.newSets ⟨"filter", TableFamily.IPv4⟩).sets ∧
      runSetCalls setKernelConn [.createSet hostsAttrs [] 0, .delSet hostsAttrs.name]
          ⟨NfSets.newSets ⟨"filter", TableFamily.IPv4⟩, ⟨[], []⟩⟩ =
        some ⟨NfSets.newSets ⟨"filter", TableFamily.IPv4⟩, ⟨[], []⟩⟩ :=
  have hn : hostsAttrs.name ∉ (NfSets.newSets ⟨"filter", TableFamily.IPv4⟩).sets :=
    Finmap.not_mem_empty
  ⟨setMirror_newSets _, hn, createSet_delSet_restores _ _ _ (setMirror_newSets _) hn⟩

/-! ## §5. What the store reports -/

/-- Under the mirror, with one kernel set per table and name, the kernel's sets of the
    store's table are exactly the sets the store holds. -/
theorem SetMirror.lists {t : Table} {m : Finmap fun _ : String => Set} {ks : List Set}
    (hm : ∀ name, m.lookup name = findSet ks t name) (hn : KeysNodup ks) (s : Set) :
    s ∈ ks.filter (fun s => s.table = some t) ↔ ∃ name, m.lookup name = some s := by
  simp only [List.mem_filter, decide_eq_true_eq]
  constructor
  · rintro ⟨hs, hst⟩
    obtain ⟨x, hx⟩ : ∃ x, findSet ks t s.name = some x :=
      Option.ne_none_iff_exists'.mp fun h => findSet_eq_none.mp h s hs ⟨hst, rfl⟩
    obtain ⟨hxk, hxt, hxn⟩ := findSet_some hx
    have hxs : x = s := List.inj_on_of_nodup_map hn hxk hs (by rw [hxt, hxn, hst])
    exact ⟨s.name, (hm _).trans (hxs ▸ hx)⟩
  · rintro ⟨name, h⟩
    obtain ⟨hs, hst, -⟩ := findSet_some ((hm name).symm.trans h)
    exact ⟨hs, hst⟩

/-- A set call on a mirroring store, over a kernel with one set per table and name, leaves
    both. -/
theorem SetCall.run_keeps_listing (call : SetCall) {w : World NfSets SetKernel}
    (hw : SetMirror w ∧ KeysNodup w.conn.sets) :
    ∃ a w', call.run setKernelConn w = .ok a w' ∧ SetMirror w' ∧ KeysNodup w'.conn.sets := by
  obtain ⟨a, w', h, hm'⟩ := call.run_mirrors hw.1
  obtain ⟨a', w'', h', hc⟩ := call.run_cases hw.1
  rw [h] at h'
  cases h'
  refine ⟨a, w', h, hm', ?_⟩
  rcases hc with rfl | ⟨attrs, id, rfl⟩ | ⟨name, x, -, rfl⟩
  · exact hw.2
  · exact keysNodup_apply (.add _) hw.2
  · exact keysNodup_apply (.del x) hw.2

/-- **The store's views agree with its map.**  After any run of set calls on a new set store
    over the kernel, every call having returned, `GetSets` lists exactly the sets the store
    holds, and `GetSetByName` returns the store's set for each name it holds and
    "set <name> is not found" for every other. -/
theorem setStore_views_agree (t : Table) (calls : List SetCall) :
    ∃ w', runSetCalls setKernelConn calls ⟨NfSets.newSets t, ⟨[], []⟩⟩ = some w' ∧
      (∃ sets, NfSets.GetSets setKernelConn w' = .ok (.ok sets) w' ∧
        ∀ s, s ∈ sets ↔ ∃ name, w'.obj.sets.lookup name = some s) ∧
      ∀ name, NfSets.GetSetByName setKernelConn name w' =
        .ok (match w'.obj.sets.lookup name with
          | some s => .ok s
          | none => .error (.text ("set " ++ name ++ " is not found"))) w' := by
  obtain ⟨⟨⟨t', l, m⟩, ⟨ks, q⟩⟩, hrun, ⟨hl, hq, hagree⟩, hn⟩ :=
    runSetCalls_preserves _ (fun call _ hw => call.run_keeps_listing hw) calls _
      ⟨setMirror_newSets t, List.nodup_nil⟩
  simp only at hl hq hagree hn
  subst hl hq
  refine ⟨_, hrun, ⟨_, NfSets.GetSets_run .., SetMirror.lists hagree hn⟩, fun name => ?_⟩
  rw [NfSets.GetSetByName_run]
  by_cases hmem : name ∈ m
  · obtain ⟨x, hx, -, hg⟩ := SetMirror.getSetByName hagree hmem
    simp only [if_pos hmem, hg, hx]
  · simp only [if_neg hmem, Finmap.lookup_eq_none.mpr hmem]

end NfTablesLib
