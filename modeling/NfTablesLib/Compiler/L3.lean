/-
  NfTablesLib.Compiler.L3 — the L3 rule compiler (src/unnamed/part_000): `createL3` and the
  field compilers it calls.

  The compiler turns a rule's version, protocol, source and destination into expressions,
  in that order, and turns every address list into a constant lookup set whose elements
  are the listed addresses.  The expression builders are absent from src/ and are taken
  as parameters; so are the random set name and ID each list draws.

  Main results:
    * `processAddrList_ok` and `processIPAddr_list_set` — what a list compiles to: a
      constant, named set of the family's key type with one element per entry, keyed by
      the entry's address in the family's byte form;
    * `processIPAddr_prefix_and_family_lost` — a `/16` entry keys its network address
      alone and an IPv6 entry of an IPv4 rule keys nothing;
    * `createL3_fields_in_order` — for an IPv4 or IPv6 rule, `createL3` is the spec's
      composition of the populated fields, in order, with one exclusion flag and the
      address offsets 12/16 and 8/24: the first failing field fails the rule, and
      otherwise expressions and sets are concatenated, each list giving one set;
    * `createL3_other_family` — for any other family a compiled rule's sets keep the zero
      key type and every element an empty key;
    * `createL3_error_iff` — with builders that accept, `createL3` fails, whatever the
      family, exactly on an empty address list, with "unknown nftables.TableFamily";
    * `createL3_key_widths` — every key of a compiled rule's sets is as long as its set's
      key type, or empty.
-/
import NfTablesLib.Types

namespace NfTablesLib

open Nftables

/-! ## §1. Addresses -/

/-- Go's `net.IP.To4`: a 4-byte address as is, the IPv4 address inside a v4-mapped 16-byte
    address, and `nil` otherwise. -/
def To4 (ip : List UInt8) : List UInt8 :=
  if ip.length = 4 then ip
  else if ip.length = 16 ∧ ip.take 12 = List.replicate 10 0 ++ [0xff, 0xff] then ip.drop 12
  else []

/-- Go's `net.IP.To16`: a 4-byte address in its v4-mapped form, a 16-byte address as is,
    and `nil` otherwise. -/
def To16 (ip : List UInt8) : List UInt8 :=
  if ip.length = 4 then List.replicate 10 0 ++ [0xff, 0xff] ++ ip
  else if ip.length = 16 then ip
  else []

/-- Modelled from the spec: `IPAddr` (absent from src/), an address and, for a CIDR entry,
    its prefix length. -/
structure IPAddr where
  ip : List UInt8
  cidr : Bool
  mask : Option UInt8
  deriving DecidableEq, Repr

/-- Modelled from the spec: `IPAddrSpec`, an address list (`nil` is `none`) and a two-ended
    range. -/
structure IPAddrSpec where
  list : Option (List IPAddr)
  range : Option IPAddr × Option IPAddr
  deriving DecidableEq, Repr

/-- Modelled from the spec: the L3 part of a rule. -/
structure L3Rule where
  version : Option UInt8
  protocol : Option UInt32
  src : Option IPAddrSpec
  dst : Option IPAddrSpec
  deriving DecidableEq, Repr

/-- Modelled from the spec: the parts of a `Rule` the L3 compiler reads. -/
structure Rule where
  l3 : L3Rule
  exclude : Bool
  deriving DecidableEq, Repr

/-- Modelled from the spec: `nfSet`, a set and the elements to create it with. -/
structure NfSet where
  set : Set
  elements : List SetElement
  deriving DecidableEq, Repr

/-- The expression builders the compiler calls (`getExprForIPVersion`,
    `getExprForProtocol`, `getExprForListIPV2`, `getExprForRangeIP`), absent from src/,
    over an expression type `E`. -/
structure ExprBuilders (E : Type) where
  ipVersion : UInt8 → Bool → Except GoError (List E)
  protocol : TableFamily → UInt32 → Bool → Except GoError (List E)
  listIP : TableFamily → Set → UInt32 → Bool → Except GoError (List E)
  rangeIP : TableFamily → UInt32 → IPAddr × IPAddr → Bool → Except GoError (List E)

/-- The zero value of `nftables.SetDatatype`. -/
def zeroDatatype : SetDatatype := ⟨"", 0, 0⟩

/-- `%#02x`: `0x` and at least two lowercase hex digits. -/
def fmtHex (n : Nat) : String :=
  let ds := Nat.toDigits 16 n
  "0x" ++ String.mk (List.replicate (2 - ds.length) '0' ++ ds)

theorem ipv4_ne_ipv6 : TableFamily.IPv4 ≠ TableFamily.IPv6 := by decide

/-! ## §2. The field compilers -/

section Compiler

variable {E : Type} (b : ExprBuilders E)

/-- The set `processAddrList` builds: constant, named, not anonymous, with the key type
    still unset. -/
def listSet (name : String) (id : UInt32) : Set :=
  { table := none, id, name, anonymous := false, constant := true, interval := false,
    isMap := false, hasTimeout := false, timeout := 0, keyType := zeroDatatype,
    dataType := zeroDatatype }

/-- `processAddrList`: a constant lookup set named `name` with ID `id`, one element per
    entry keyed by its address in the family's byte form, and the expressions that match
    against it. -/
def processAddrList (l3proto : TableFamily) (offset : UInt32) (list : List IPAddr) (excl : Bool)
    (name : String) (id : UInt32) : Except GoError (List E × NfSet) :=
  let set := listSet name id
  let se : List SetElement := list.map fun _ => {}
  let se := if l3proto = TableFamily.IPv4 then list.map fun a => { key := To4 a.ip } else se
  let se := if l3proto = TableFamily.IPv6 then list.map fun a => { key := To16 a.ip } else se
  if se.length = 0 then .error (.text ("unknown nftables.TableFamily " ++ fmtHex l3proto.val.toNat))
  else
    match b.listIP l3proto set offset excl with
    | .error err => .error err
    | .ok re => .ok (re, ⟨set, se⟩)

/-- `processAddrRange`: range expressions and no set. -/
def processAddrRange (l3proto : TableFamily) (offset : UInt32) (rng : IPAddr × IPAddr)
    (excl : Bool) : Except GoError (List E × Option NfSet) :=
  match b.rangeIP l3proto offset rng excl with
  | .error err => .error err
  | .ok re => .ok (re, none)

/-- `processVersion`. -/
def processVersion (version : UInt8) (excl : Bool) : Except GoError (List E × Option NfSet) :=
  match b.ipVersion version excl with
  | .error err => .error err
  | .ok re => .ok (re, none)

/-- `processProtocol`. -/
def processProtocol (l3proto : TableFamily) (proto : UInt32) (excl : Bool) :
    Except GoError (List E × Option NfSet) :=
  match b.protocol l3proto proto excl with
  | .error err => .error err
  | .ok re => .ok (re, none)

/-- The header offset and key type `processIPAddr` picks for a family and a role; any other
    family leaves both at their zero values. -/
def addrLayout (l3proto : TableFamily) (src : Bool) : UInt32 × SetDatatype :=
  if l3proto = TableFamily.IPv4 then (if src then 12 else 16, TypeIPAddr)
  else if l3proto = TableFamily.IPv6 then (if src then 8 else 24, TypeIP6Addr)
  else (0, zeroDatatype)

/-- `processIPAddr`: the list's expressions and set, with the family's key type, then the
    range's expressions when both ends are given. -/
def processIPAddr (l3proto : TableFamily) (addrs : IPAddrSpec) (src exclude : Bool)
    (name : String) (id : UInt32) : Except GoError (List E × List NfSet) :=
  let (addrOffset, keyType) := addrLayout l3proto src
  let listPart : Except GoError (List E × List NfSet) :=
    match addrs.list with
    | none => .ok ([], [])
    | some list =>
      match processAddrList b l3proto addrOffset list exclude name id with
      | .error err => .error err
      | .ok (e, set) => .ok (e, [{ set with set := { set.set with keyType } }])
  match listPart with
  | .error err => .error err
  | .ok (re, sets) =>
    match addrs.range with
    | (some lo, some hi) =>
      match processAddrRange b l3proto addrOffset (lo, hi) exclude with
      | .error err => .error err
      | .ok (e, _) => .ok (re ++ e, sets)
    | _ => .ok (re, sets)

/-- `createL3`: the version, protocol, source and destination fields, compiled in that
    order with the rule's one exclusion flag; the first field that fails fails the rule.
    `srcDraw` and `dstDraw` are the name and ID each address list draws. -/
def createL3 (l3proto : TableFamily) (rule : Rule) (srcDraw dstDraw : String × UInt32) :
    Except GoError (List E × List NfSet) := do
  let re₁ ← match rule.l3.version with
    | none => pure []
    | some v => Prod.fst <$> processVersion b v rule.exclude
  let re₂ ← match rule.l3.protocol with
    | none => pure []
    | some p => Prod.fst <$> processProtocol b l3proto p rule.exclude
  let src ← match rule.l3.src with
    | none => pure ([], [])
    | some addrs => processIPAddr b l3proto addrs true rule.exclude srcDraw.1 srcDraw.2
  let dst ← match rule.l3.dst with
    | none => pure ([], [])
    | some addrs => processIPAddr b l3proto addrs false rule.exclude dstDraw.1 dstDraw.2
  pure (re₁ ++ re₂ ++ src.1 ++ dst.1, src.2 ++ dst.2)

/-! ## §3. What an address list compiles to -/

/-- The key of a listed address in a rule of family `l3proto`. -/
def familyKey (l3proto : TableFamily) (ip : List UInt8) : List UInt8 :=
  if l3proto = TableFamily.IPv6 then To16 ip
  else if l3proto = TableFamily.IPv4 then To4 ip
  else []

theorem processAddrList_eq (l3proto : TableFamily) (offset : UInt32) (list : List IPAddr)
    (excl : Bool) (name : String) (id : UInt32) :
    processAddrList b l3proto offset list excl name id =
      if list.length = 0 then
        .error (.text ("unknown nftables.TableFamily " ++ fmtHex l3proto.val.toNat))
      else
        match b.listIP l3proto (listSet name id) offset excl with
        | .error err => .error err
        | .ok re => .ok (re, ⟨listSet name id, list.map fun a => { key := familyKey l3proto a.ip }⟩) := by
  unfold processAddrList familyKey
  by_cases h6 : l3proto = TableFamily.IPv6 <;> by_cases h4 : l3proto = TableFamily.IPv4 <;>
    simp [h6, h4, ipv4_ne_ipv6]

theorem processAddrList_ok {l3proto : TableFamily} {offset : UInt32} {list : List IPAddr}
    {excl : Bool} {name : String} {id : UInt32} {re : List E} {nfset : NfSet}
    (h : processAddrList b l3proto offset list excl name id = .ok (re, nfset)) :
    nfset = ⟨listSet name id, list.map fun a => { key := familyKey l3proto a.ip }⟩ := by
  rw [processAddrList_eq] at h
  split_ifs at h
  split at h <;> cases h
  rfl

/-- A list compiles, when it compiles, to one set: the constant, named set of
    `processAddrList` with the key type of the rule's family, one element per entry keyed by
    the entry's address in the family's byte form, in list order. -/
theorem processIPAddr_list_set {l3proto : TableFamily} {addrs : IPAddrSpec} {list : List IPAddr}
    {src exclude : Bool} {name : String} {id : UInt32} {re : List E} {sets : List NfSet}
    (hl : addrs.list = some list)
    (h : processIPAddr b l3proto addrs src exclude name id = .ok (re, sets)) :
    sets = [⟨{ listSet name id with keyType := (addrLayout l3proto src).2 },
      list.map fun a => { key := familyKey l3proto a.ip }⟩] := by
  unfold processIPAddr at h
  rcases hlay : addrLayout l3proto src with ⟨off, kt⟩
  simp only [hlay, hl] at h
  cases hp : processAddrList b l3proto off list exclude name id with
  | error err => simp only [hp] at h; cases h
  | ok p =>
    obtain ⟨e, nfset⟩ := p
    cases processAddrList_ok b hp
    simp only [hp] at h
    split at h
    · split at h <;> cases h; rfl
    · cases h; rfl

/-- The source list of an IPv4 rule: the subnet `192.16.0.0/16` of the package's mock test,
    and the IPv6 address `2001:db8::1`. -/
def subnetAndV6 : IPAddrSpec :=
  { list := some [⟨[192, 16, 0, 0], true, some 16⟩,
      ⟨[0x20, 0x01, 0x0d, 0xb8, 0, 0, 0, 0, 0, 0, 0, 0, 0, 0, 0, 1], false, none⟩],
    range := (none, none) }

/-- Whatever the expression builders emit, the set an IPv4 rule gets for `subnetAndV6` is a
    plain, non-interval set in which the `/16` entry is the single key `192.16.0.0` and the
    IPv6 entry has an empty key. -/
theorem processIPAddr_prefix_and_family_lost {name : String} {id : UInt32} {re : List E}
    {sets : List NfSet}
    (h : processIPAddr b TableFamily.IPv4 subnetAndV6 true false name id = .ok (re, sets)) :
    sets = [⟨{ listSet name id with keyType := TypeIPAddr },
      [{ key := [192, 16, 0, 0] }, { key := [] }]⟩] ∧
      (listSet name id).interval = false := by
  rw [processIPAddr_list_set b rfl h]
  exact ⟨rfl, rfl⟩

/-! ## §4. The field order

The spec's reading of `createL3`, from its words: the populated fields in a fixed order,
each compiled with the rule's one exclusion flag and an address with its role's header
offset; the first field that fails fails the rule, and otherwise the fields' expressions
and sets are concatenated in field order. -/

/-- The spec's header offset of an address role: for IPv4 the source at byte 12 and the
    destination at 16, for IPv6 the source at 8 and the destination at 24. -/
def specAddrOffset (l3proto : TableFamily) (src : Bool) : UInt32 :=
  if l3proto = TableFamily.IPv4 then (if src then 12 else 16) else if src then 8 else 24

/-- The spec's key datatype of a family: the 4-byte address type for IPv4, the 16-byte one
    for IPv6. -/
def specKeyType (l3proto : TableFamily) : SetDatatype :=
  if l3proto = TableFamily.IPv4 then TypeIPAddr else TypeIP6Addr

/-- The spec's composition of compiled fields: they run in order, the first failure fails
    the whole, and otherwise their expressions and their sets are concatenated in order. -/
def composeFields :
    List (Except GoError (List E × List NfSet)) → Except GoError (List E × List NfSet)
  | [] => .ok ([], [])
  | field :: fields =>
    match field with
    | .error err => .error err
    | .ok (e, s) =>
      match composeFields fields with
      | .error err => .error err
      | .ok (es, ss) => .ok (e ++ es, s ++ ss)

/-- The spec's populated fields of one address role, in order: the list, compiled at the
    role's offset into expressions and one set of the family's key type, then the range,
    when both its ends are given, into expressions and no set. -/
def specAddrFields (l3proto : TableFamily) (addrs : IPAddrSpec) (src excl : Bool)
    (draw : String × UInt32) : List (Except GoError (List E × List NfSet)) :=
  let offset := specAddrOffset l3proto src
  (match addrs.list with
    | none => []
    | some list =>
      [(fun r => (r.1, [{ r.2 with set := { r.2.set with keyType := specKeyType l3proto } }])) <$>
        processAddrList b l3proto offset list excl draw.1 draw.2]) ++
  (match addrs.range with
    | (some lo, some hi) =>
      [(fun r => (r.1, [])) <$> processAddrRange b l3proto offset (lo, hi) excl]
    | _ => [])

/-- The spec's populated fields of an L3 rule in their fixed order (version, protocol,
    source, destination), each compiled with the rule's one exclusion flag. -/
def specL3Fields (l3proto : TableFamily) (rule : Rule) (srcDraw dstDraw : String × UInt32) :
    List (Except GoError (List E × List NfSet)) :=
  (match rule.l3.version with
    | none => []
    | some v => [(fun r => (r.1, [])) <$> processVersion b v rule.exclude]) ++
  (match rule.l3.protocol with
    | none => []
    | some p => [(fun r => (r.1, [])) <$> processProtocol b l3proto p rule.exclude]) ++
  (match rule.l3.src with
    | none => []
    | some addrs => specAddrFields b l3proto addrs true rule.exclude srcDraw) ++
  (match rule.l3.dst with
    | none => []
    | some addrs => specAddrFields b l3proto addrs false rule.exclude dstDraw)

theorem composeFields_nil : composeFields ([] : List (Except GoError (List E × List NfSet))) =
    pure ([], []) := rfl

theorem composeFields_cons (x : Except GoError (List E × List NfSet))
    (xs : List (Except GoError (List E × List NfSet))) :
    composeFields (x :: xs) =
      x >>= fun a => composeFields xs >>= fun c => pure (a.1 ++ c.1, a.2 ++ c.2) := by
  rcases x with err | ⟨e, s⟩
  · rfl
  · rw [composeFields]
    cases composeFields xs <;> rfl

theorem composeFields_append (xs ys : List (Except GoError (List E × List NfSet))) :
    composeFields (xs ++ ys) = composeFields xs >>= fun a =>
      composeFields ys >>= fun c => pure (a.1 ++ c.1, a.2 ++ c.2) := by
  induction xs with
  | nil => rw [List.nil_append]; cases composeFields ys <;> rfl
  | cons x xs ih =>
    rw [List.cons_append, composeFields_cons, composeFields_cons, ih]
    simp only [bind_assoc, pure_bind, List.append_assoc]

theorem composeFields_singleton (x : Except GoError (List E × List NfSet)) :
    composeFields [x] = x := by
  rcases x with err | ⟨e, s⟩ <;> simp [composeFields]

/-- The composition fails exactly when one of the fields does. -/
theorem composeFields_error_iff (fields : List (Except GoError (List E × List NfSet))) :
    (∃ err, composeFields fields = .error err) ↔ ∃ err, .error err ∈ fields := by
  induction fields with
  | nil => simp [composeFields]
  | cons x xs ih =>
    rcases x with err | ⟨e, s⟩
    · exact ⟨fun _ => ⟨err, List.mem_cons_self _ _⟩, fun _ => ⟨err, rfl⟩⟩
    · simp only [List.mem_cons, reduceCtorEq, false_or, ← ih, composeFields]
      cases composeFields xs <;> simp

/-- With no field failing, the composition concatenates the fields' results in order. -/
theorem composeFields_ok (results : List (List E × List NfSet)) :
    composeFields (results.map Except.ok : List (Except GoError _)) =
      .ok ((results.map Prod.fst).flatten, (results.map Prod.snd).flatten) := by
  induction results with
  | nil => rfl
  | cons r rs ih => simp only [List.map_cons, composeFields, ih, List.flatten_cons]

theorem addrLayout_eq_spec {l3proto : TableFamily}
    (hfam : l3proto = TableFamily.IPv4 ∨ l3proto = TableFamily.IPv6) (src : Bool) :
    addrLayout l3proto src = (specAddrOffset l3proto src, specKeyType l3proto) := by
  rcases hfam with rfl | rfl <;> cases src <;> rfl

/-- For IPv4 and IPv6, `processIPAddr` is the composition of the role's spec fields. -/
theorem processIPAddr_eq_compose {l3proto : TableFamily}
    (hfam : l3proto = TableFamily.IPv4 ∨ l3proto = TableFamily.IPv6) (addrs : IPAddrSpec)
    (src excl : Bool) (name : String) (id : UInt32) :
    processIPAddr b l3proto addrs src excl name id =
      composeFields (specAddrFields b l3proto addrs src excl (name, id)) := by
  rcases addrs with ⟨list, lo, hi⟩
  simp only [processIPAddr, specAddrFields, addrLayout_eq_spec hfam, composeFields_append]
  have hrange : ∀ a : List E × List NfSet, (match (lo, hi) with
      | (some lo, some hi) =>
        match processAddrRange b l3proto (specAddrOffset l3proto src) (lo, hi) excl with
        | .error err => .error err
        | .ok (e, _) => .ok (a.1 ++ e, a.2)
      | _ => .ok a) =
      composeFields (match (lo, hi) with
        | (some lo, some hi) =>
          [(fun r => (r.1, [])) <$>
            processAddrRange b l3proto (specAddrOffset l3proto src) (lo, hi) excl]
        | _ => []) >>= fun c => pure (a.1 ++ c.1, a.2 ++ c.2) := by
    intro a
    rcases lo with _ | lo <;> rcases hi with _ | hi
    case some.some =>
      dsimp only
      cases processAddrRange b l3proto (specAddrOffset l3proto src) (lo, hi) excl <;>
        simp [composeFields]
    all_goals simp [composeFields]
  rcases list with _ | list
  · exact hrange ([], [])
  · dsimp only
    rw [composeFields_singleton]
    cases processAddrList b l3proto (specAddrOffset l3proto src) list excl name id with
    | error err => rfl
    | ok p =>
      exact hrange (p.1, [{ p.2 with set := { p.2.set with keyType := specKeyType l3proto } }])

/-- Four binds against the composition of four groups of fields: an identity of the
    `Except` monad, whatever each field computes. -/
theorem bind_four_eq_compose (V P : Except GoError (List E))
    (S D : Except GoError (List E × List NfSet))
    (Vl Pl Sl Dl : List (Except GoError (List E × List NfSet)))
    (hV : composeFields Vl = (fun e => (e, [])) <$> V)
    (hP : composeFields Pl = (fun e => (e, [])) <$> P)
    (hS : composeFields Sl = S) (hD : composeFields Dl = D) :
    (V >>= fun re₁ => P >>= fun re₂ => S >>= fun s => D >>= fun d =>
        pure (re₁ ++ re₂ ++ s.1 ++ d.1, s.2 ++ d.2)) =
      composeFields (Vl ++ Pl ++ Sl ++ Dl) := by
  rw [composeFields_append, composeFields_append, composeFields_append, hV, hP, hS, hD]
  simp only [bind_map_left, bind_assoc, pure_bind, List.append_assoc, List.nil_append]

/-- `createL3` as four binds, one per field (its `do` block pushes each field's match
    outwards through a join point). -/
theorem createL3_eq_binds (l3proto : TableFamily) (rule : Rule)
    (srcDraw dstDraw : String × UInt32) :
    createL3 b l3proto rule srcDraw dstDraw =
      ((match rule.l3.version with
        | none => pure []
        | some v => Prod.fst <$> processVersion b v rule.exclude) >>= fun re₁ =>
      (match rule.l3.protocol with
        | none => pure []
        | some p => Prod.fst <$> processProtocol b l3proto p rule.exclude) >>= fun re₂ =>
      (match rule.l3.src with
        | none => pure ([], [])
        | some addrs => processIPAddr b l3proto addrs true rule.exclude srcDraw.1 srcDraw.2) >>=
        fun src =>
      (match rule.l3.dst with
        | none => pure ([], [])
        | some addrs => processIPAddr b l3proto addrs false rule.exclude dstDraw.1 dstDraw.2) >>=
        fun dst => pure (re₁ ++ re₂ ++ src.1 ++ dst.1, src.2 ++ dst.2)) := by
  obtain ⟨⟨version, protocol, src, dst⟩, excl⟩ := rule
  cases version <;> cases protocol <;> cases src <;> cases dst <;> rfl

/-- For IPv4 and IPv6, `createL3` is the composition of the rule's spec fields. -/
theorem createL3_eq_compose {l3proto : TableFamily}
    (hfam : l3proto = TableFamily.IPv4 ∨ l3proto = TableFamily.IPv6) (rule : Rule)
    (srcDraw dstDraw : String × UInt32) :
    createL3 b l3proto rule srcDraw dstDraw =
      composeFields (specL3Fields b l3proto rule srcDraw dstDraw) := by
  rw [createL3_eq_binds]
  refine bind_four_eq_compose _ _ _ _ _ _ _ _ ?version ?protocol ?src ?dst
  case version =>
    cases rule.l3.version
    · rfl
    · rw [composeFields_singleton, Functor.map_map]
  case protocol =>
    cases rule.l3.protocol
    · rfl
    · rw [composeFields_singleton, Functor.map_map]
  case src =>
    cases rule.l3.src
    · rfl
    · exact (processIPAddr_eq_compose b hfam _ _ _ _ _).symm
  case dst =>
    cases rule.l3.dst
    · rfl
    · exact (processIPAddr_eq_compose b hfam _ _ _ _ _).symm

/-- **`createL3` compiles the populated fields in the spec's order.**  For a rule of family
    IPv4 or IPv6, every exclusion flag and every draw of the lists' set names and IDs,
    `createL3` is the spec's composition of the spec's fields: it fails exactly when a
    populated field's compiler fails, and otherwise returns the fields' expressions and
    sets concatenated in field order (version, protocol, source list, source range,
    destination list, destination range), each list giving one set and each range none. -/
theorem createL3_fields_in_order (l3proto : TableFamily)
    (hfam : l3proto = TableFamily.IPv4 ∨ l3proto = TableFamily.IPv6) (rule : Rule)
    (srcDraw dstDraw : String × UInt32) :
    createL3 b l3proto rule srcDraw dstDraw =
        composeFields (specL3Fields b l3proto rule srcDraw dstDraw) ∧
      ((∃ err, createL3 b l3proto rule srcDraw dstDraw = .error err) ↔
        ∃ err, .error err ∈ specL3Fields b l3proto rule srcDraw dstDraw) ∧
      ∀ results : List (List E × List NfSet),
        specL3Fields b l3proto rule srcDraw dstDraw = results.map Except.ok →
        createL3 b l3proto rule srcDraw dstDraw =
          .ok ((results.map Prod.fst).flatten, (results.map Prod.snd).flatten) := by
  rw [createL3_eq_compose b hfam]
  exact ⟨rfl, composeFields_error_iff _, fun results h => h ▸ composeFields_ok results⟩

end Compiler

/-- Builders that emit no expression and never fail. -/
def silentBuilders : ExprBuilders Unit :=
  ⟨fun _ _ => .ok [], fun _ _ _ => .ok [], fun _ _ _ _ => .ok [], fun _ _ _ _ => .ok []⟩

theorem processIPAddr_prefix_and_family_lost_src :
    processIPAddr silentBuilders TableFamily.IPv4 subnetAndV6 true false "set-0" 1 =
        .ok ([], [⟨{ listSet "set-0" 1 with keyType := TypeIPAddr },
          [{ key := [192, 16, 0, 0] }, { key := [] }]⟩]) ∧
      (listSet "set-0" 1).interval = false :=
  ⟨rfl, (@processIPAddr_prefix_and_family_lost Unit silentBuilders "set-0" 1 [] _ rfl).2⟩

/-- Builders that emit one expression naming the field and the byte offset it reads. -/
def taggedBuilders : ExprBuilders (String × UInt32) :=
  ⟨fun v _ => .ok [("version", v.toUInt32)], fun _ p _ => .ok [("protocol", p)],
    fun _ _ off _ => .ok [("list", off)], fun _ off _ _ => .ok [("range", off)]⟩

/-- An IPv4 rule with every field populated: version 4, protocol 6, a source list and a
    source range, and a destination list. -/
def fullL3Rule : Rule :=
  ⟨⟨some 4, some 6,
    some ⟨some [⟨[10, 0, 0, 1], false, none⟩],
      (some ⟨[10, 0, 0, 2], false, none⟩, some ⟨[10, 0, 0, 9], false, none⟩)⟩,
    some ⟨some [⟨[10, 0, 0, 3], false, none⟩], (none, none)⟩⟩, true⟩

theorem createL3_fields_in_order_full :
    (TableFamily.IPv4 = TableFamily.IPv4 ∨ TableFamily.IPv4 = TableFamily.IPv6) ∧
      createL3 taggedBuilders TableFamily.IPv4 fullL3Rule ("src", 1) ("dst", 2) =
        .ok ([("version", 4), ("protocol", 6), ("list", 12), ("range", 12), ("list", 16)],
          [⟨{ listSet "src" 1 with keyType := TypeIPAddr }, [{ key := [10, 0, 0, 1] }]⟩,
            ⟨{ listSet "dst" 2 with keyType := TypeIPAddr }, [{ key := [10, 0, 0, 3] }]⟩]) :=
  ⟨.inl rfl, (createL3_fields_in_order taggedBuilders TableFamily.IPv4 (.inl rfl) fullL3Rule
    ("src", 1) ("dst", 2)).2.2
    [([("version", 4)], []), ([("protocol", 6)], []),
      ([("list", 12)],
        [⟨{ listSet "src" 1 with keyType := TypeIPAddr }, [{ key := [10, 0, 0, 1] }]⟩]),
      ([("range", 12)], []),
      ([("list", 16)],
        [⟨{ listSet "dst" 2 with keyType := TypeIPAddr }, [{ key := [10, 0, 0, 3] }]⟩])]
    rfl⟩

/-! ## §5. Families other than IPv4 and IPv6

`createL3` never looks at the family itself: `processIPAddr` picks an offset and a key type
for IPv4 and IPv6 and leaves both at their zero values otherwise, and `processAddrList`
keys an entry only for IPv4 and IPv6.  Its one error of its own is "unknown
nftables.TableFamily", and that is reported for an empty list, whatever the family. -/

section Families

variable {E : Type} {b : ExprBuilders E}

variable (b) in
/-- Expression builders that accept every input, so that only the compiler's own checks can
    fail a field. -/
structure ExprBuilders.Accepts : Prop where
  ipVersion : ∀ v x, ∃ e, b.ipVersion v x = .ok e
  protocol : ∀ f p x, ∃ e, b.protocol f p x = .ok e
  listIP : ∀ f s o x, ∃ e, b.listIP f s o x = .ok e
  rangeIP : ∀ f o r x, ∃ e, b.rangeIP f o r x = .ok e

theorem silentBuilders_accepts : silentBuilders.Accepts :=
  ⟨fun _ _ => ⟨_, rfl⟩, fun _ _ _ => ⟨_, rfl⟩, fun _ _ _ _ => ⟨_, rfl⟩, fun _ _ _ _ => ⟨_, rfl⟩⟩

variable (b) in
/-- `processIPAddr` as two binds: the list, at the family's offset and with its key type,
    then the range at the same offset, which adds expressions and no set. -/
theorem processIPAddr_eq_binds (l3proto : TableFamily) (addrs : IPAddrSpec) (src exclude : Bool)
    (name : String) (id : UInt32) :
    processIPAddr b l3proto addrs src exclude name id =
      ((match addrs.list with
        | none => pure ([], [])
        | some list =>
          (fun r => (r.1, [{ r.2 with set := { r.2.set with keyType := (addrLayout l3proto src).2 } }])) <$>
            processAddrList b l3proto (addrLayout l3proto src).1 list exclude name id) >>= fun a =>
      (fun e => (a.1 ++ e, a.2)) <$>
        match addrs.range with
        | (some lo, some hi) =>
          Prod.fst <$> processAddrRange b l3proto (addrLayout l3proto src).1 (lo, hi) exclude
        | _ => pure []) := by
  obtain ⟨list, lo, hi⟩ := addrs
  unfold processIPAddr
  dsimp only
  have hrange : ∀ a : List E × List NfSet, (match (lo, hi) with
      | (some lo, some hi) =>
        match processAddrRange b l3proto (addrLayout l3proto src).1 (lo, hi) exclude with
        | .error err => .error err
        | .ok (e, _) => .ok (a.1 ++ e, a.2)
      | _ => .ok a : Except GoError (List E × List NfSet)) = (fun e => (a.1 ++ e, a.2)) <$>
        (match (lo, hi) with
        | (some lo, some hi) =>
          Prod.fst <$> processAddrRange b l3proto (addrLayout l3proto src).1 (lo, hi) exclude
        | _ => pure []) := by
    intro a
    rcases lo with _ | lo <;> rcases hi with _ | hi
    case some.some =>
      dsimp only
      rcases processAddrRange b l3proto (addrLayout l3proto src).1 (lo, hi) exclude
        with _ | ⟨e, s⟩ <;> rfl
    all_goals exact congrArg Except.ok (Prod.ext (List.append_nil _).symm rfl)
  rcases list with _ | list
  · exact hrange ([], [])
  · dsimp only
    rcases processAddrList b l3proto (addrLayout l3proto src).1 list exclude name id
      with _ | ⟨e, s⟩
    · rfl
    · exact hrange (e, [{ s with set := { s.set with keyType := (addrLayout l3proto src).2 } }])

/-- A list compiles only when it is not empty, whatever the family and the builders. -/
theorem processAddrList_ne_nil {l3proto : TableFamily} {offset : UInt32} {list : List IPAddr}
    {excl : Bool} {name : String} {id : UInt32} {r : List E × NfSet}
    (h : processAddrList b l3proto offset list excl name id = .ok r) : list ≠ [] := by
  rintro rfl
  simp [processAddrList_eq] at h

variable (b) in
/-- An empty list is the one input `processAddrList` rejects itself, with the error that
    names the family as unknown, whatever the family. -/
theorem processAddrList_nil (l3proto : TableFamily) (offset : UInt32) (excl : Bool)
    (name : String) (id : UInt32) :
    processAddrList b l3proto offset [] excl name id =
      .error (.text ("unknown nftables.TableFamily " ++ fmtHex l3proto.val.toNat)) := by
  rw [processAddrList_eq]
  rfl

/-- Every set `processIPAddr` returns is the set of its list, which is not empty. -/
theorem processIPAddr_set_mem {l3proto : TableFamily} {addrs : IPAddrSpec} {src exclude : Bool}
    {name : String} {id : UInt32} {re : List E} {sets : List NfSet} {s : NfSet}
    (h : processIPAddr b l3proto addrs src exclude name id = .ok (re, sets)) (hs : s ∈ sets) :
    ∃ list, addrs.list = some list ∧ list ≠ [] ∧
      s = ⟨{ listSet name id with keyType := (addrLayout l3proto src).2 },
        list.map fun a => { key := familyKey l3proto a.ip }⟩ := by
  obtain ⟨a, ha, hr⟩ := (except_bind_ok _ _ _).mp ((processIPAddr_eq_binds b _ _ _ _ _ _).symm.trans h)
  obtain ⟨_, _, hsets⟩ := (except_map_ok _ _ _).mp hr
  rcases hl : addrs.list with _ | list
  · simp only [hl] at ha
    cases ha
    cases hsets
    cases hs
  · refine ⟨list, rfl, ?_, by simpa [processIPAddr_list_set b hl h] using hs⟩
    simp only [hl] at ha
    obtain ⟨r, hr, -⟩ := (except_map_ok _ _ _).mp ha
    exact processAddrList_ne_nil hr

/-- Every set an address role's part of `createL3` returns is the set of the role's list,
    which is not empty. -/
theorem addrPart_set_mem {l3proto : TableFamily} {o : Option IPAddrSpec} {src exclude : Bool}
    {name : String} {id : UInt32} {r : List E × List NfSet} {s : NfSet}
    (h : (match o with
      | none => pure ([], [])
      | some addrs => processIPAddr b l3proto addrs src exclude name id :
        Except GoError (List E × List NfSet)) = .ok r) (hs : s ∈ r.2) :
    ∃ list, list ≠ [] ∧
      s = ⟨{ listSet name id with keyType := (addrLayout l3proto src).2 },
        list.map fun a : IPAddr => { key := familyKey l3proto a.ip }⟩ := by
  cases o with
  | none => cases h; cases hs
  | some addrs =>
    obtain ⟨list, -, hl, rfl⟩ := processIPAddr_set_mem h hs
    exact ⟨list, hl, rfl⟩

/-- What `createL3` builds, for every family: each set of a compiled rule is the set of one
    of its non-empty address lists, the constant list set of the role's draw with the key type
    `addrLayout` gives the role, and one element per entry keyed by `familyKey`. -/
theorem createL3_set_mem {l3proto : TableFamily} {rule : Rule} {srcDraw dstDraw : String × UInt32}
    {re : List E} {sets : List NfSet} {s : NfSet}
    (h : createL3 b l3proto rule srcDraw dstDraw = .ok (re, sets)) (hs : s ∈ sets) :
    ∃ src list, list ≠ [] ∧ ∃ draw ∈ [srcDraw, dstDraw],
      s = ⟨{ listSet draw.1 draw.2 with keyType := (addrLayout l3proto src).2 },
        list.map fun a : IPAddr => { key := familyKey l3proto a.ip }⟩ := by
  rw [createL3_eq_binds] at h
  obtain ⟨_, -, h₁⟩ := (except_bind_ok _ _ _).mp h
  obtain ⟨_, -, h₂⟩ := (except_bind_ok _ _ _).mp h₁
  obtain ⟨a, ha, h₃⟩ := (except_bind_ok _ _ _).mp h₂
  obtain ⟨d, hd, h₄⟩ := (except_bind_ok _ _ _).mp h₃
  cases h₄
  rcases List.mem_append.mp hs with hs | hs
  · obtain ⟨list, hl, rfl⟩ := addrPart_set_mem ha hs
    exact ⟨true, list, hl, srcDraw, by simp, rfl⟩
  · obtain ⟨list, hl, rfl⟩ := addrPart_set_mem hd hs
    exact ⟨false, list, hl, dstDraw, by simp, rfl⟩

section Other

variable {l3proto : TableFamily} (hfam : l3proto ≠ TableFamily.IPv4 ∧ l3proto ≠ TableFamily.IPv6)
include hfam

theorem addrLayout_other (src : Bool) : addrLayout l3proto src = (0, zeroDatatype) := by
  simp [addrLayout, hfam.1, hfam.2]

theorem familyKey_other (ip : List UInt8) : familyKey l3proto ip = [] := by
  simp [familyKey, hfam.1, hfam.2]

/-- **A rule of another family compiles to sets that match nothing.**  For a table family
    other than IPv4 and IPv6, every set `createL3` returns keeps the zero key type and is not
    empty, and every one of its elements has an empty key. -/
theorem createL3_other_family (rule : Rule) (srcDraw dstDraw : String × UInt32) {re : List E}
    {sets : List NfSet} (h : createL3 b l3proto rule srcDraw dstDraw = .ok (re, sets)) :
    ∀ s ∈ sets, s.set.keyType = zeroDatatype ∧ s.elements ≠ [] ∧ ∀ e ∈ s.elements, e.key = [] := by
  intro s hs
  obtain ⟨src, list, hl, -, -, rfl⟩ := createL3_set_mem h hs
  refine ⟨by rw [addrLayout_other hfam], by simpa using hl, ?_⟩
  simp [familyKey_other hfam]

end Other

/-- The rule with every field populated, compiled in a table of family `inet`: every field
    compiles, the lists and the range at offset 0, into sets of the zero key type whose
    elements have empty keys. -/
theorem createL3_other_family_inet :
    (TableFamily.INet ≠ TableFamily.IPv4 ∧ TableFamily.INet ≠ TableFamily.IPv6) ∧
      createL3 taggedBuilders TableFamily.INet fullL3Rule ("src", 1) ("dst", 2) =
        .ok ([("version", 4), ("protocol", 6), ("list", 0), ("range", 0), ("list", 0)],
          [⟨{ listSet "src" 1 with keyType := zeroDatatype }, [{ key := [] }]⟩,
            ⟨{ listSet "dst" 2 with keyType := zeroDatatype }, [{ key := [] }]⟩]) ∧
      ∀ s ∈ [(⟨{ listSet "src" 1 with keyType := zeroDatatype }, [{ key := [] }]⟩ : NfSet),
          ⟨{ listSet "dst" 2 with keyType := zeroDatatype }, [{ key := [] }]⟩],
        s.set.keyType = zeroDatatype ∧ s.elements ≠ [] ∧ ∀ e ∈ s.elements, e.key = [] :=
  have hfam : TableFamily.INet ≠ TableFamily.IPv4 ∧ TableFamily.INet ≠ TableFamily.IPv6 :=
    ⟨by decide, by decide⟩
  have h : createL3 taggedBuilders TableFamily.INet fullL3Rule ("src", 1) ("dst", 2) =
      .ok ([("version", 4), ("protocol", 6), ("list", 0), ("range", 0), ("list", 0)],
        [⟨{ listSet "src" 1 with keyType := zeroDatatype }, [{ key := [] }]⟩,
          ⟨{ listSet "dst" 2 with keyType := zeroDatatype }, [{ key := [] }]⟩]) := rfl
  ⟨hfam, h, createL3_other_family hfam fullL3Rule ("src", 1) ("dst", 2) h⟩

/-! ### The compiler's own error -/

section Accepts

variable (hb : b.Accepts)
include hb

theorem processAddrList_accepts {list : List IPAddr} (hl : list ≠ []) (l3proto : TableFamily)
    (offset : UInt32) (excl : Bool) (name : String) (id : UInt32) :
    ∃ r, processAddrList b l3proto offset list excl name id = .ok r := by
  obtain ⟨e, he⟩ := hb.listIP l3proto (listSet name id) offset excl
  rw [processAddrList_eq, if_neg (by simpa using hl), he]
  exact ⟨_, rfl⟩

/-- With builders that accept, `processIPAddr` fails exactly on an empty list, and then with
    the error that names the family as unknown. -/
theorem processIPAddr_error_iff (l3proto : TableFamily) (addrs : IPAddrSpec)
    (src exclude : Bool) (name : String) (id : UInt32) (err : GoError) :
    processIPAddr b l3proto addrs src exclude name id = .error err ↔
      addrs.list = some [] ∧
        err = .text ("unknown nftables.TableFamily " ++ fmtHex l3proto.val.toNat) := by
  obtain ⟨list, lo, hi⟩ := addrs
  -- the range never fails
  obtain ⟨e, he⟩ : ∃ e, (match (lo, hi) with
      | (some lo, some hi) =>
        Prod.fst <$> processAddrRange b l3proto (addrLayout l3proto src).1 (lo, hi) exclude
      | _ => pure [] : Except GoError (List E)) = .ok e := by
    rcases lo with _ | lo <;> rcases hi with _ | hi
    case some.some =>
      obtain ⟨e, he⟩ := hb.rangeIP l3proto (addrLayout l3proto src).1 (lo, hi) exclude
      exact ⟨e, by simp only [processAddrRange, he]; rfl⟩
    all_goals exact ⟨_, rfl⟩
  rw [processIPAddr_eq_binds, except_bind_error]
  simp only [he]
  rcases list with _ | _ | ⟨x, list⟩
  · simp [pure, Except.pure]
  · simp [processAddrList_nil, eq_comm]
  · obtain ⟨r, hr⟩ := processAddrList_accepts hb (List.cons_ne_nil x list) l3proto
      (addrLayout l3proto src).1 exclude name id
    simp [hr]

/-- An address role's part of `createL3`, with builders that accept: it fails exactly when
    the role has an empty list. -/
theorem addrPart_error_iff (l3proto : TableFamily) (o : Option IPAddrSpec) (src exclude : Bool)
    (name : String) (id : UInt32) (err : GoError) :
    (match o with
      | none => pure ([], [])
      | some addrs => processIPAddr b l3proto addrs src exclude name id :
        Except GoError (List E × List NfSet)) = .error err ↔
      o.bind IPAddrSpec.list = some [] ∧
        err = .text ("unknown nftables.TableFamily " ++ fmtHex l3proto.val.toNat) := by
  cases o with
  | none => simp [pure, Except.pure]
  | some addrs => exact processIPAddr_error_iff hb l3proto addrs src exclude name id err

end Accepts

/-- Two steps that return, then two that fail with one error `t` exactly when their
    conditions hold: together they fail exactly when one of the conditions does. -/
theorem bind_four_error_iff {α β γ δ ζ : Type} {V : Except GoError α} {P : Except GoError β}
    {S : Except GoError γ} {D : Except GoError δ} {g : α → β → γ → δ → ζ} {A B : Prop}
    {t : GoError} (hV : ∃ v, V = .ok v) (hP : ∃ p, P = .ok p)
    (hS : ∀ e, S = .error e ↔ A ∧ e = t) (hD : ∀ e, D = .error e ↔ B ∧ e = t) (err : GoError) :
    (V >>= fun v => P >>= fun p => S >>= fun s => D >>= fun d => pure (g v p s d)) =
      .error err ↔ (A ∨ B) ∧ err = t := by
  obtain ⟨v, rfl⟩ := hV
  obtain ⟨p, rfl⟩ := hP
  rcases hs : S with e | s
  · obtain ⟨hA, rfl⟩ := (hS e).mp hs
    simp [bind, Except.bind, hA, eq_comm]
  · have hA : ¬A := fun hA => by cases hs.symm.trans ((hS t).mpr ⟨hA, rfl⟩)
    simp only [bind, Except.bind, hA, false_or]
    rcases hd : D with e | d
    · obtain ⟨hB, rfl⟩ := (hD e).mp hd
      simp [hB, eq_comm]
    · have hB : ¬B := fun hB => by cases hd.symm.trans ((hD t).mpr ⟨hB, rfl⟩)
      simp [hB, pure, Except.pure]

/-- **The L3 compiler checks no family.**  With expression builders that accept every input,
    `createL3` fails, for every table family, exactly when the rule's source or destination
    has an empty address list, and then with the error "unknown nftables.TableFamily" and the
    family in hex. -/
theorem createL3_error_iff (hb : b.Accepts) (l3proto : TableFamily) (rule : Rule)
    (srcDraw dstDraw : String × UInt32) (err : GoError) :
    createL3 b l3proto rule srcDraw dstDraw = .error err ↔
      (rule.l3.src.bind IPAddrSpec.list = some [] ∨ rule.l3.dst.bind IPAddrSpec.list = some []) ∧
        err = .text ("unknown nftables.TableFamily " ++ fmtHex l3proto.val.toNat) := by
  obtain ⟨⟨version, protocol, src, dst⟩, excl⟩ := rule
  rw [createL3_eq_binds]
  refine bind_four_error_iff ?version ?protocol (addrPart_error_iff hb l3proto src true excl _ _)
    (addrPart_error_iff hb l3proto dst false excl _ _) err
  case version =>
    cases version with
    | none => exact ⟨_, rfl⟩
    | some v =>
      obtain ⟨e, he⟩ := hb.ipVersion v excl
      exact ⟨e, by simp only [processVersion, he]; rfl⟩
  case protocol =>
    cases protocol with
    | none => exact ⟨_, rfl⟩
    | some p =>
      obtain ⟨e, he⟩ := hb.protocol l3proto p excl
      exact ⟨e, by simp only [processProtocol, he]; rfl⟩

/-- An IPv4 rule whose source list is empty. -/
def emptySrcRule : Rule := ⟨⟨none, none, some ⟨some [], (none, none)⟩, none⟩, false⟩

/-- An empty source list in an IPv4 rule is reported as an unknown family. -/
theorem createL3_error_iff_ipv4_empty_src :
    silentBuilders.Accepts ∧
      createL3 silentBuilders TableFamily.IPv4 emptySrcRule ("src", 1) ("dst", 2) =
        .error (.text "unknown nftables.TableFamily 0x02") :=
  ⟨silentBuilders_accepts, (createL3_error_iff silentBuilders_accepts TableFamily.IPv4
    emptySrcRule ("src", 1) ("dst", 2) _).mpr ⟨.inl rfl, by decide⟩⟩

end Families

/-! ## §6. Key widths

The kernel takes an element only with a key as long as its set's key type.  `To4` and `To16`
give an address of the right width or nothing, so every key `createL3` builds has its set's
width, or is empty: an empty key is the one way an entry is lost. -/

theorem To4_width (ip : List UInt8) : To4 ip = [] ∨ (To4 ip).length = 4 := by
  unfold To4
  split_ifs with h₄ h₁₆
  · exact .inr h₄
  · exact .inr (by simp [h₁₆.1])
  · exact .inl rfl

theorem To16_width (ip : List UInt8) : To16 ip = [] ∨ (To16 ip).length = 16 := by
  unfold To16
  split_ifs with h₄ h₁₆
  · exact .inr (by simp [h₄])
  · exact .inr h₁₆
  · exact .inl rfl

/-- A listed address keys nothing, or exactly as many bytes as the key type `processIPAddr`
    gives the family's set. -/
theorem familyKey_width (l3proto : TableFamily) (src : Bool) (ip : List UInt8) :
    familyKey l3proto ip = [] ∨
      (familyKey l3proto ip).length = (addrLayout l3proto src).2.bytes.toNat := by
  unfold familyKey addrLayout
  by_cases h6 : l3proto = TableFamily.IPv6
  · subst h6
    simpa [ipv4_ne_ipv6.symm, TypeIP6Addr] using To16_width ip
  by_cases h4 : l3proto = TableFamily.IPv4
  · subst h4
    simpa [TypeIPAddr] using To4_width ip
  · simp [h4, h6]

section Widths

variable {E : Type} {b : ExprBuilders E}

/-- **Every key `createL3` builds has its set's width, or none.**  For every family, rule,
    builders and draws, each element of each set of a compiled rule has an empty key or a key
    exactly as long as the set's key type: 4 bytes in an IPv4 rule, 16 in an IPv6 one. -/
theorem createL3_key_widths {l3proto : TableFamily} (rule : Rule)
    (srcDraw dstDraw : String × UInt32) {re : List E} {sets : List NfSet}
    (h : createL3 b l3proto rule srcDraw dstDraw = .ok (re, sets)) :
    ∀ s ∈ sets, ∀ e ∈ s.elements, e.key = [] ∨ e.key.length = s.set.keyType.bytes.toNat := by
  intro s hs
  obtain ⟨src, list, -, -, -, rfl⟩ := createL3_set_mem h hs
  intro e he
  obtain ⟨a, -, rfl⟩ := List.mem_map.mp he
  exact familyKey_width l3proto src a.ip

end Widths

/-- An IPv4 rule whose source list is `subnetAndV6`. -/
def subnetAndV6Rule : Rule := ⟨⟨none, none, some subnetAndV6, none⟩, false⟩

/-- The `/16` entry keys 4 bytes, the width of `TypeIPAddr`; the IPv6 entry keys nothing. -/
theorem createL3_key_widths_subnet :
    createL3 silentBuilders TableFamily.IPv4 subnetAndV6Rule ("src", 1) ("dst", 2) =
        .ok ([], [⟨{ listSet "src" 1 with keyType := TypeIPAddr },
          [{ key := [192, 16, 0, 0] }, { key := [] }]⟩]) ∧
      ∀ s ∈ [(⟨{ listSet "src" 1 with keyType := TypeIPAddr },
          [{ key := [192, 16, 0, 0] }, { key := [] }]⟩ : NfSet)],
        ∀ e ∈ s.elements, e.key = [] ∨ e.key.length = s.set.keyType.bytes.toNat :=
  have h : createL3 silentBuilders TableFamily.IPv4 subnetAndV6Rule ("src", 1) ("dst", 2) =
      .ok ([], [⟨{ listSet "src" 1 with keyType := TypeIPAddr },
        [{ key := [192, 16, 0, 0] }, { key := [] }]⟩]) := rfl
  ⟨h, createL3_key_widths subnetAndV6Rule ("src", 1) ("dst", 2) h⟩

end NfTablesLib
