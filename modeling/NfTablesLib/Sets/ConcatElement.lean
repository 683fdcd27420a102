/-
  NfTablesLib.Sets.ConcatElement — `processElementValue` and `MakeConcatElement`
  (src/nfsets.go): the key of a set element built as the concatenation of its
  components, each encoded by its datatype and aligned to four bytes.

  ## What the encoding promises

  The kernel reads a concatenated key field by field, with the widths of the composite
  datatype `GenSetKeyType` derives.  Each component is written at its own length and
  zero-padded to a multiple of four.  Nothing checks an address or a link-layer address
  against its datatype's width, so a 16-byte IPv4 address (or a 4-byte address in an
  IPv6 field) changes the width of its field.  With every value at its datatype's
  width, the key is exactly the composite datatype long and decodes back to the values.

  Main results:
    * `processElementValue_ok_iff` — a component encodes exactly when its datatype is
      supported and its value field is set, to the natural-width bytes followed by
      zeros up to a multiple of four.
    * `MakeConcatElement_layout` — the key is the concatenation of those fields; with
      every value at its datatype's width, field `i` has the width `GenSetKeyType`
      gives component `i`, the key has the composite width (modulo 2^32) and it
      decodes back to the component values.
    * `MakeConcatElement_wide_ipv4_field` — an IPv4 address in its 16-byte form under
      `TypeIPAddr` makes the key 12 bytes longer than the composite datatype's fields, and
      the key no longer reads back (`decodeKey_length`: every key that reads back has
      exactly the composite width);
    * `MakeConcatElement_error_iff` — an element is refused by the first failing check, in
      order: no action, no key, unequal counts, then the first component without a value.
-/
import NfTablesLib.Sets.KeyType

namespace NfTablesLib

open Nftables

/-! ## §1. The encoder -/

/-- `ElementValue` (src/nfsets.go), with the fields `processElementValue` reads
    (`nil` is `none`). -/
structure ElementValue where
  integer : Option UInt32 := none
  ipAddr : Option (List UInt8) := none
  etherAddr : Option (List UInt8) := none
  inetProto : Option UInt8 := none
  inetService : Option UInt16 := none
  mark : Option UInt32 := none
  deriving DecidableEq, Repr

/-- `binaryutil.BigEndian.PutUint32`. -/
def putUint32 (v : UInt32) : List UInt8 :=
  [(v >>> 24).toUInt8, (v >>> 16).toUInt8, (v >>> 8).toUInt8, v.toUInt8]

/-- `binaryutil.BigEndian.PutUint16`. -/
def putUint16 (v : UInt16) : List UInt8 := [(v >>> 8).toUInt8, v.toUInt8]

/-- A length rounded up to a multiple of four, as both encoders align one. -/
def align4 (l : Nat) : Nat := if l % 4 ≠ 0 then l + (4 - l % 4) else l

/-- `ba := make([]byte, l); copy(ba, b)`: `b` copied into `l` zero bytes. -/
def copyInto (l : Nat) (b : List UInt8) : List UInt8 :=
  b.take l ++ List.replicate (l - b.length) 0

/-- One arm of `processElementValue`'s switch: the value field of the datatype must be
    set, and is then encoded. -/
def requireValue {α : Type} (field : Option α) (encode : α → List UInt8) :
    Except GoError (List UInt8) :=
  match field with
  | none => .error (.text "key value cannot be nil")
  | some v => .ok (encode v)

/-- `processElementValue`: one component of a concatenated key, aligned to four bytes. -/
def processElementValue (keyT : SetDatatype) (keyV : ElementValue) :
    Except GoError (List UInt8) := do
  let b ←
    if keyT = TypeInteger then requireValue keyV.integer putUint32
    else if keyT = TypeMark then requireValue keyV.mark putUint32
    else if keyT = TypeIPAddr ∨ keyT = TypeIP6Addr then
      requireValue keyV.ipAddr fun a => copyInto a.length a
    else if keyT = TypeEtherAddr then requireValue keyV.etherAddr fun a => copyInto a.length a
    else if keyT = TypeInetProto then requireValue keyV.inetProto fun p => [p]
    else if keyT = TypeInetService then requireValue keyV.inetService putUint16
    else .error (.text ("unsupported type of key element " ++ toString keyT.nftMagic))
  pure (copyInto (align4 b.length) b)

/-- `MakeConcatElement`'s loop over the components: the key so far and its length `kl`. -/
def keyLoop : List SetDatatype → List ElementValue → List UInt8 → Nat →
    Except GoError (List UInt8 × Nat)
  | k :: ks, v :: vs, key, kl => do
    let b ← processElementValue k v
    keyLoop ks vs (key ++ b) (kl + b.length)
  | _, _, key, kl => pure (key, kl)

/-- `MakeConcatElement`: an element whose key concatenates one value per datatype and
    whose verdict is the action's. -/
def MakeConcatElement (keys : List SetDatatype) (vals : List ElementValue)
    (ra : Option RuleAction) : Except GoError SetElement :=
  match ra with
  | none => .error (.text "verdict cannot be nil")
  | some ra =>
    if keys.length = 0 then .error (.text "number of keys cannot be 0")
    else if keys.length ≠ vals.length then
      .error (.text "number of vals does not match number of keys")
    else do
      let (key, kl) ← keyLoop keys vals [] 0
      pure { key := copyInto (align4 kl) key, verdictData := ra.verdict }

/-! ## §2. Component values and their natural encoding -/

/-- The value one component carries, tagged by the kind of datatype that reads it. -/
inductive KeyValue where
  | integer (v : UInt32)
  | mark (v : UInt32)
  | ipAddr (a : List UInt8)
  | etherAddr (a : List UInt8)
  | inetProto (p : UInt8)
  | inetService (p : UInt16)
  deriving DecidableEq, Repr

/-- A value at its natural width: big-endian `uint32` for an integer or a mark,
    big-endian `uint16` for a service, one byte for a protocol, the bytes themselves
    for an address or a link-layer address. -/
def KeyValue.bytes : KeyValue → List UInt8
  | .integer v => putUint32 v
  | .mark v => putUint32 v
  | .ipAddr a => a
  | .etherAddr a => a
  | .inetProto p => [p]
  | .inetService p => putUint16 p

/-- The value a component of datatype `keyT` carries: the field of `keyV` its datatype
    selects, when the datatype is one the encoder supports and the field is set. -/
def componentValue (keyT : SetDatatype) (keyV : ElementValue) : Option KeyValue :=
  if keyT = TypeInteger then keyV.integer.map .integer
  else if keyT = TypeMark then keyV.mark.map .mark
  else if keyT = TypeIPAddr ∨ keyT = TypeIP6Addr then keyV.ipAddr.map .ipAddr
  else if keyT = TypeEtherAddr then keyV.etherAddr.map .etherAddr
  else if keyT = TypeInetProto then keyV.inetProto.map .inetProto
  else if keyT = TypeInetService then keyV.inetService.map .inetService
  else none

/-- Bytes zero-padded to a multiple of four: one field of a concatenated key. -/
def alignField (bs : List UInt8) : List UInt8 := copyInto (align4 bs.length) bs

/-- A component's value has its datatype's width.  For the integer, mark, protocol and
    service datatypes this always holds; for address and link-layer byte strings it is a
    condition on the caller. -/
def HasNaturalWidth (keyT : SetDatatype) (keyV : ElementValue) : Prop :=
  ((componentValue keyT keyV).all fun kv => kv.bytes.length == keyT.bytes.toNat) = true

instance (keyT : SetDatatype) (keyV : ElementValue) : Decidable (HasNaturalWidth keyT keyV) :=
  inferInstanceAs (Decidable (_ = true))

theorem copyInto_self (b : List UInt8) : copyInto b.length b = b := by
  simp [copyInto]

theorem requireValue_ok_iff {α : Type} (field : Option α) (encode : α → List UInt8)
    (f : α → KeyValue) (henc : ∀ a, encode a = (f a).bytes) (b : List UInt8) :
    (requireValue field encode >>= fun b => pure (copyInto (align4 b.length) b)) = .ok b ↔
      ∃ kv, field.map f = some kv ∧ b = alignField kv.bytes := by
  cases field <;>
    simp [requireValue, henc, alignField, bind, Except.bind, pure, Except.pure, eq_comm]

/-- **The encoder of one component**: it succeeds exactly when the datatype is supported
    and its value field is set, and then writes the natural-width bytes padded with
    zeros to a multiple of four. -/
theorem processElementValue_ok_iff (keyT : SetDatatype) (keyV : ElementValue)
    (b : List UInt8) :
    processElementValue keyT keyV = .ok b ↔
      ∃ kv, componentValue keyT keyV = some kv ∧ b = alignField kv.bytes := by
  rw [processElementValue, componentValue]
  by_cases h₁ : keyT = TypeInteger
  · rw [if_pos h₁, if_pos h₁]; exact requireValue_ok_iff _ _ KeyValue.integer (fun _ => rfl) b
  rw [if_neg h₁, if_neg h₁]
  by_cases h₂ : keyT = TypeMark
  · rw [if_pos h₂, if_pos h₂]; exact requireValue_ok_iff _ _ KeyValue.mark (fun _ => rfl) b
  rw [if_neg h₂, if_neg h₂]
  by_cases h₃ : keyT = TypeIPAddr ∨ keyT = TypeIP6Addr
  · rw [if_pos h₃, if_pos h₃]; exact requireValue_ok_iff _ _ KeyValue.ipAddr copyInto_self b
  rw [if_neg h₃, if_neg h₃]
  by_cases h₄ : keyT = TypeEtherAddr
  · rw [if_pos h₄, if_pos h₄]; exact requireValue_ok_iff _ _ KeyValue.etherAddr copyInto_self b
  rw [if_neg h₄, if_neg h₄]
  by_cases h₅ : keyT = TypeInetProto
  · rw [if_pos h₅, if_pos h₅]; exact requireValue_ok_iff _ _ KeyValue.inetProto (fun _ => rfl) b
  rw [if_neg h₅, if_neg h₅]
  by_cases h₆ : keyT = TypeInetService
  · rw [if_pos h₆, if_pos h₆]; exact requireValue_ok_iff _ _ KeyValue.inetService (fun _ => rfl) b
  rw [if_neg h₆, if_neg h₆]
  simp [bind, Except.bind]

/-- What `componentValue` returns, arm by arm of the datatype switch. -/
theorem componentValue_cases {keyT : SetDatatype} {keyV : ElementValue} {kv : KeyValue}
    (h : componentValue keyT keyV = some kv) :
    (keyT = TypeInteger ∧ ∃ v, kv = .integer v) ∨ (keyT = TypeMark ∧ ∃ v, kv = .mark v) ∨
      ((keyT = TypeIPAddr ∨ keyT = TypeIP6Addr) ∧ ∃ a, kv = .ipAddr a) ∨
      (keyT = TypeEtherAddr ∧ ∃ a, kv = .etherAddr a) ∨
      (keyT = TypeInetProto ∧ ∃ p, kv = .inetProto p) ∨
      (keyT = TypeInetService ∧ ∃ p, kv = .inetService p) := by
  unfold componentValue at h
  by_cases h₁ : keyT = TypeInteger
  · rw [if_pos h₁] at h; obtain ⟨v, -, rfl⟩ := Option.map_eq_some'.mp h; exact .inl ⟨h₁, v, rfl⟩
  rw [if_neg h₁] at h
  by_cases h₂ : keyT = TypeMark
  · rw [if_pos h₂] at h; obtain ⟨v, -, rfl⟩ := Option.map_eq_some'.mp h
    exact .inr (.inl ⟨h₂, v, rfl⟩)
  rw [if_neg h₂] at h
  by_cases h₃ : keyT = TypeIPAddr ∨ keyT = TypeIP6Addr
  · rw [if_pos h₃] at h; obtain ⟨a, -, rfl⟩ := Option.map_eq_some'.mp h
    exact .inr (.inr (.inl ⟨h₃, a, rfl⟩))
  rw [if_neg h₃] at h
  by_cases h₄ : keyT = TypeEtherAddr
  · rw [if_pos h₄] at h; obtain ⟨a, -, rfl⟩ := Option.map_eq_some'.mp h
    exact .inr (.inr (.inr (.inl ⟨h₄, a, rfl⟩)))
  rw [if_neg h₄] at h
  by_cases h₅ : keyT = TypeInetProto
  · rw [if_pos h₅] at h; obtain ⟨p, -, rfl⟩ := Option.map_eq_some'.mp h
    exact .inr (.inr (.inr (.inr (.inl ⟨h₅, p, rfl⟩))))
  rw [if_neg h₅] at h
  by_cases h₆ : keyT = TypeInetService
  · rw [if_pos h₆] at h; obtain ⟨p, -, rfl⟩ := Option.map_eq_some'.mp h
    exact .inr (.inr (.inr (.inr (.inr ⟨h₆, p, rfl⟩))))
  rw [if_neg h₆] at h; cases h

/-! ## §3. Reading a key back -/

/-- A big-endian unsigned integer from its bytes. -/
def beValue (bs : List UInt8) : Nat := bs.foldl (fun acc b => acc * 256 + b.toNat) 0

/-- The value of a field's natural-width prefix, read as datatype `keyT`. -/
def readValue (keyT : SetDatatype) (bs : List UInt8) : Option KeyValue :=
  if keyT = TypeInteger then some (.integer (UInt32.ofNat (beValue bs)))
  else if keyT = TypeMark then some (.mark (UInt32.ofNat (beValue bs)))
  else if keyT = TypeIPAddr ∨ keyT = TypeIP6Addr then some (.ipAddr bs)
  else if keyT = TypeEtherAddr then some (.etherAddr bs)
  else if keyT = TypeInetProto then bs.head?.map .inetProto
  else if keyT = TypeInetService then some (.inetService (UInt16.ofNat (beValue bs)))
  else none

/-- One field of a key read as datatype `keyT`: it must have the width `GenSetKeyType`
    gives the component and hold a value at its natural width followed by zero bytes. -/
def decodeField (keyT : SetDatatype) (field : List UInt8) : Option KeyValue :=
  if field.length = fieldWidth keyT.bytes.toNat ∧
      (field.drop keyT.bytes.toNat).all (· == 0) = true then
    readValue keyT (field.take keyT.bytes.toNat)
  else none

/-- A concatenated key read back field by field, with the widths of `GenSetKeyType`. -/
def decodeKey : List SetDatatype → List UInt8 → Option (List KeyValue)
  | [], rest => if rest = [] then some [] else none
  | k :: ks, bytes => do
    let kv ← decodeField k (bytes.take (fieldWidth k.bytes.toNat))
    let kvs ← decodeKey ks (bytes.drop (fieldWidth k.bytes.toNat))
    pure (kv :: kvs)

theorem u32_toNat_shiftRight (v k : UInt32) (hk : k.toNat < 32) :
    (v >>> k).toNat = v.toNat / 2 ^ k.toNat := by
  show (v.toBitVec >>> (k % 32).toBitVec).toNat = _
  rw [BitVec.ushiftRight_eq', BitVec.toNat_ushiftRight, Nat.shiftRight_eq_div_pow]
  congr 2
  show k.toNat % 32 = k.toNat
  omega

theorem u16_toNat_shiftRight (v k : UInt16) (hk : k.toNat < 16) :
    (v >>> k).toNat = v.toNat / 2 ^ k.toNat := by
  show (v.toBitVec >>> (k % 16).toBitVec).toNat = _
  rw [BitVec.ushiftRight_eq', BitVec.toNat_ushiftRight, Nat.shiftRight_eq_div_pow]
  congr 2
  show k.toNat % 16 = k.toNat
  omega

theorem u32_toUInt8_toNat (v : UInt32) : v.toUInt8.toNat = v.toNat % 256 := by
  simp [UInt32.toUInt8, UInt8.toNat, UInt8.ofNat, Nat.toUInt8]

theorem u16_toUInt8_toNat (v : UInt16) : v.toUInt8.toNat = v.toNat % 256 := by
  simp [UInt16.toUInt8, UInt8.toNat, UInt8.ofNat, Nat.toUInt8]

/-- `PutUint32` writes the base-256 digits of its argument, most significant first. -/
theorem beValue_putUint32 (v : UInt32) : beValue (putUint32 v) = v.toNat := by
  have hv : v.toNat < 2 ^ 32 := v.toNat_lt_size
  simp only [beValue, putUint32, List.foldl_cons, List.foldl_nil]
  rw [u32_toUInt8_toNat, u32_toUInt8_toNat, u32_toUInt8_toNat, u32_toUInt8_toNat,
    u32_toNat_shiftRight v 24 (by decide), u32_toNat_shiftRight v 16 (by decide),
    u32_toNat_shiftRight v 8 (by decide), show (24 : UInt32).toNat = 24 from rfl,
    show (16 : UInt32).toNat = 16 from rfl, show (8 : UInt32).toNat = 8 from rfl]
  omega

theorem beValue_putUint16 (v : UInt16) : beValue (putUint16 v) = v.toNat := by
  have hv : v.toNat < 2 ^ 16 := v.toNat_lt_size
  simp only [beValue, putUint16, List.foldl_cons, List.foldl_nil]
  rw [u16_toUInt8_toNat, u16_toUInt8_toNat, u16_toNat_shiftRight v 8 (by decide),
    show (8 : UInt16).toNat = 8 from rfl]
  omega

theorem u32_ofNat_toNat (a : UInt32) : UInt32.ofNat a.toNat = a :=
  UInt32.toNat.inj (Nat.mod_eq_of_lt a.toNat_lt_size)

theorem u16_ofNat_toNat (a : UInt16) : UInt16.ofNat a.toNat = a :=
  UInt16.toNat.inj (Nat.mod_eq_of_lt a.toNat_lt_size)

/-- Reading back the natural-width bytes of a component gives its value. -/
theorem readValue_bytes {keyT : SetDatatype} {keyV : ElementValue} {kv : KeyValue}
    (h : componentValue keyT keyV = some kv) : readValue keyT kv.bytes = some kv := by
  rcases componentValue_cases h with ⟨rfl, v, rfl⟩ | ⟨rfl, v, rfl⟩ | ⟨rfl | rfl, a, rfl⟩ |
    ⟨rfl, a, rfl⟩ | ⟨rfl, p, rfl⟩ | ⟨rfl, p, rfl⟩
  · show some (KeyValue.integer (UInt32.ofNat (beValue (putUint32 v)))) = _
    rw [beValue_putUint32, u32_ofNat_toNat]
  · show some (KeyValue.mark (UInt32.ofNat (beValue (putUint32 v)))) = _
    rw [beValue_putUint32, u32_ofNat_toNat]
  · rfl
  · rfl
  · rfl
  · rfl
  · show some (KeyValue.inetService (UInt16.ofNat (beValue (putUint16 p)))) = _
    rw [beValue_putUint16, u16_ofNat_toNat]

/-- Every datatype the encoder supports is at least one byte wide. -/
theorem componentValue_bytes_pos {keyT : SetDatatype} {keyV : ElementValue} {kv : KeyValue}
    (h : componentValue keyT keyV = some kv) : 1 ≤ keyT.bytes.toNat := by
  rcases componentValue_cases h with ⟨rfl, -⟩ | ⟨rfl, -⟩ | ⟨rfl | rfl, -⟩ | ⟨rfl, -⟩ | ⟨rfl, -⟩ |
    ⟨rfl, -⟩ <;> decide

theorem align4_eq_fieldWidth {n : Nat} (h : 1 ≤ n) : align4 n = fieldWidth n := by
  rw [align4, fieldWidth]
  split <;> split <;> omega

theorem alignField_eq (bs : List UInt8) :
    alignField bs = bs ++ List.replicate (align4 bs.length - bs.length) 0 := by
  have : bs.length ≤ align4 bs.length := by unfold align4; split_ifs <;> omega
  simp [alignField, copyInto, List.take_of_length_le this]

theorem length_alignField (bs : List UInt8) : (alignField bs).length = align4 bs.length := by
  have : bs.length ≤ align4 bs.length := by unfold align4; split_ifs <;> omega
  simp [alignField_eq]; omega

/-- Every key `decodeKey` accepts is exactly as long as the fields it reads: one field of
    `GenSetKeyType`'s width per component, and nothing after the last. -/
theorem decodeKey_length (keys : List SetDatatype) :
    ∀ (bytes : List UInt8) (kvs : List KeyValue), decodeKey keys bytes = some kvs →
      bytes.length = (keys.map fun k => fieldWidth k.bytes.toNat).sum := by
  induction keys with
  | nil =>
    intro bytes kvs h
    simp only [decodeKey] at h
    split_ifs at h with hb
    simp [hb]
  | cons k ks ih =>
    intro bytes kvs h
    simp only [decodeKey, bind, Option.bind_eq_some] at h
    obtain ⟨kv, hkv, kvs', hkvs', -⟩ := h
    have hfield : (bytes.take (fieldWidth k.bytes.toNat)).length = fieldWidth k.bytes.toNat := by
      unfold decodeField at hkv
      split_ifs at hkv with hf
      exact hf.1
    have hrest := ih _ _ hkvs'
    rw [List.length_take] at hfield
    rw [List.length_drop] at hrest
    simp only [List.map_cons, List.sum_cons]
    omega

/-- A field written at the datatype's width reads back to its value. -/
theorem decodeField_alignField {keyT : SetDatatype} {keyV : ElementValue} {kv : KeyValue}
    (h : componentValue keyT keyV = some kv) (hw : kv.bytes.length = keyT.bytes.toNat) :
    decodeField keyT (alignField kv.bytes) = some kv := by
  have hwidth : align4 kv.bytes.length = fieldWidth keyT.bytes.toNat := by
    rw [hw]; exact align4_eq_fieldWidth (componentValue_bytes_pos h)
  rw [decodeField, if_pos, alignField_eq, ← hw, List.take_left' rfl]
  · exact readValue_bytes h
  · refine ⟨by rw [length_alignField, hwidth], ?_⟩
    rw [alignField_eq, ← hw, List.drop_left' rfl]
    simp

/-! ## §4. The key `MakeConcatElement` builds -/

/-- The component values of an element, in order, when every component has one. -/
def componentValues (keys : List SetDatatype) (vals : List ElementValue) :
    Option (List KeyValue) :=
  (keys.zip vals).mapM fun p => componentValue p.1 p.2

theorem componentValues_cons (k : SetDatatype) (ks : List SetDatatype) (v : ElementValue)
    (vs : List ElementValue) :
    componentValues (k :: ks) (v :: vs) =
      (componentValue k v).bind fun kv => (componentValues ks vs).map (kv :: ·) := by
  simp only [componentValues, List.zip_cons_cons, List.mapM_cons]
  cases componentValue k v <;> cases (ks.zip vs).mapM fun p => componentValue p.1 p.2 <;> rfl

/-- The values of two runs of components, one after the other. -/
theorem componentValues_append {ks₁ : List SetDatatype} {vs₁ : List ElementValue}
    (ks₂ : List SetDatatype) (vs₂ : List ElementValue) (h : ks₁.length = vs₁.length) :
    componentValues (ks₁ ++ ks₂) (vs₁ ++ vs₂) =
      (componentValues ks₁ vs₁).bind fun kvs₁ => (componentValues ks₂ vs₂).map (kvs₁ ++ ·) := by
  induction ks₁ generalizing vs₁ with
  | nil =>
    obtain rfl := List.eq_nil_of_length_eq_zero h.symm
    rw [List.nil_append, List.nil_append]
    cases componentValues ks₂ vs₂ <;> rfl
  | cons k ks ih =>
    cases vs₁ with
    | nil => simp at h
    | cons v vs =>
      simp only [List.cons_append, componentValues_cons, @ih vs (by simpa using h)]
      cases componentValue k v <;> cases componentValues ks vs <;> cases componentValues ks₂ vs₂ <;>
        rfl

/-- The loop appends one aligned field per component. -/
theorem keyLoop_ok (keys : List SetDatatype) :
    ∀ (vals : List ElementValue) (key : List UInt8) (kl : Nat) (key' : List UInt8) (kl' : Nat),
      keyLoop keys vals key kl = .ok (key', kl') →
      ∃ kvs, componentValues keys vals = some kvs ∧
        key' = key ++ (kvs.map fun kv => alignField kv.bytes).flatten ∧
        kl' = kl + (kvs.map fun kv => alignField kv.bytes).flatten.length := by
  induction keys with
  | nil =>
    intro vals key kl key' kl' h
    simp only [keyLoop, pure, Except.pure, Except.ok.injEq, Prod.mk.injEq] at h
    exact ⟨[], rfl, by simp [h.1], by simp [h.2]⟩
  | cons k ks ih =>
    intro vals key kl key' kl' h
    cases vals with
    | nil =>
      simp only [keyLoop, pure, Except.pure, Except.ok.injEq, Prod.mk.injEq] at h
      exact ⟨[], rfl, by simp [h.1], by simp [h.2]⟩
    | cons v vs =>
      obtain ⟨b, hb, hrest⟩ := (except_bind_ok _ _ _).mp h
      obtain ⟨kv, hkv, rfl⟩ := (processElementValue_ok_iff k v b).mp hb
      obtain ⟨kvs, hkvs, rfl, rfl⟩ := ih vs _ _ key' kl' hrest
      refine ⟨kv :: kvs, by simp [componentValues_cons, hkv, hkvs], by simp, ?_⟩
      simp only [List.map_cons, List.flatten_cons, List.length_append]
      omega

theorem align4_of_mod_four {n : Nat} (h : n % 4 = 0) : align4 n = n := by
  simp [align4, h]

theorem length_alignField_mod_four (bs : List UInt8) : (alignField bs).length % 4 = 0 := by
  rw [length_alignField]; unfold align4; split_ifs <;> omega

theorem length_join_alignField_mod_four (kvs : List KeyValue) :
    (kvs.map fun kv => alignField kv.bytes).flatten.length % 4 = 0 := by
  induction kvs with
  | nil => rfl
  | cons kv kvs ih =>
    have := length_alignField_mod_four kv.bytes
    simp only [List.map_cons, List.flatten_cons, List.length_append]
    omega

/-- What a successful `MakeConcatElement` returns: the components' aligned fields, in
    order, and the action's verdict. -/
theorem MakeConcatElement_ok {keys : List SetDatatype} {vals : List ElementValue}
    {ra : RuleAction} {el : SetElement} (h : MakeConcatElement keys vals (some ra) = .ok el) :
    keys ≠ [] ∧ keys.length = vals.length ∧
      ∃ kvs, componentValues keys vals = some kvs ∧
        el = { key := (kvs.map fun kv => alignField kv.bytes).flatten, verdictData := ra.verdict } := by
  simp only [MakeConcatElement] at h
  split_ifs at h with h0 hlen
  obtain ⟨⟨key, kl⟩, hloop, hel⟩ := (except_bind_ok _ _ _).mp h
  obtain ⟨kvs, hkvs, rfl, rfl⟩ := keyLoop_ok keys vals [] 0 key kl hloop
  have hmod := length_join_alignField_mod_four kvs
  refine ⟨fun h => h0 (by simp [h]), not_not.mp hlen, kvs, hkvs, ?_⟩
  simp only [pure, Except.pure, Except.ok.injEq, List.nil_append, Nat.zero_add] at hel
  rw [← hel, align4_of_mod_four hmod, copyInto_self]

/-- With every value at its datatype's width, each aligned field is the value followed
    by zeros up to the width `GenSetKeyType` gives its component, and the key decodes
    back to the values. -/
theorem fields_of_natural_width (keys : List SetDatatype) :
    ∀ (vals : List ElementValue) (kvs : List KeyValue),
      keys.length = vals.length → componentValues keys vals = some kvs →
      (∀ p ∈ keys.zip vals, HasNaturalWidth p.1 p.2) →
      (kvs.map fun kv => alignField kv.bytes).flatten =
          (List.zipWith (fun k kv => kv.bytes ++
            List.replicate (fieldWidth k.bytes.toNat - kv.bytes.length) 0) keys kvs).flatten ∧
      (kvs.map fun kv => alignField kv.bytes).flatten.length =
          (keys.map fun k => fieldWidth k.bytes.toNat).sum ∧
      decodeKey keys (kvs.map fun kv => alignField kv.bytes).flatten = some kvs := by
  induction keys with
  | nil =>
    intro vals kvs hlen hkvs _
    obtain rfl : vals = [] := List.eq_nil_of_length_eq_zero hlen.symm
    simp only [componentValues, List.zip_nil_left, List.mapM_nil, pure, Option.some.injEq] at hkvs
    subst hkvs
    simp [decodeKey]
  | cons k ks ih =>
    intro vals kvs hlen hkvs hfit
    cases vals with
    | nil => simp at hlen
    | cons v vs =>
      rw [componentValues_cons] at hkvs
      obtain ⟨kv, hkv, hrest⟩ := Option.bind_eq_some.mp hkvs
      obtain ⟨kvs', hkvs', rfl⟩ := Option.map_eq_some'.mp hrest
      have hw : kv.bytes.length = k.bytes.toNat := by
        simpa [HasNaturalWidth, hkv] using hfit (k, v) (List.mem_cons_self _ _)
      have hwidth : align4 kv.bytes.length = fieldWidth k.bytes.toNat := by
        rw [hw]; exact align4_eq_fieldWidth (componentValue_bytes_pos hkv)
      have hlenf : (alignField kv.bytes).length = fieldWidth k.bytes.toNat := by
        rw [length_alignField, hwidth]
      obtain ⟨h1, h2, h3⟩ := ih vs kvs' (by simpa using hlen) hkvs'
        (fun p hp => hfit p (List.mem_cons_of_mem _ hp))
      refine ⟨?_, by simp [hlenf, h2], ?_⟩
      · rw [List.map_cons, List.flatten_cons, h1, List.zipWith_cons_cons, List.flatten_cons,
          alignField_eq, hwidth]
      simp [decodeKey, List.take_left' hlenf, List.drop_left' hlenf,
        decodeField_alignField hkv hw, h3]

/-- **The layout of a concatenated key.**  A successful `MakeConcatElement` carries the
    action's verdict, and its key is one field per component: the value at its natural
    width, zero-padded to a multiple of four.  When every value has its datatype's width,
    field `i` has the width `GenSetKeyType` gives component `i`, the key is as long as the
    composite datatype says (its `uint32` width is the length modulo 2^32), and reading
    the key back field by field recovers every component value. -/
theorem MakeConcatElement_layout (keys : List SetDatatype) (vals : List ElementValue)
    (ra : RuleAction) (el : SetElement)
    (hok : MakeConcatElement keys vals (some ra) = .ok el) :
    el.verdictData = ra.verdict ∧
    ∃ kvs, componentValues keys vals = some kvs ∧
      el.key = (kvs.map fun kv => alignField kv.bytes).flatten ∧
      ((∀ p ∈ keys.zip vals, HasNaturalWidth p.1 p.2) →
        el.key = (List.zipWith (fun k kv => kv.bytes ++
          List.replicate (fieldWidth k.bytes.toNat - kv.bytes.length) 0) keys kvs).flatten ∧
        el.key.length % 2 ^ 32 = (GenSetKeyType keys).bytes.toNat ∧
        decodeKey keys el.key = some kvs) := by
  obtain ⟨hne, hlen, kvs, hkvs, rfl⟩ := MakeConcatElement_ok hok
  refine ⟨rfl, kvs, hkvs, rfl, fun hfit => ?_⟩
  obtain ⟨h1, h2, h3⟩ := fields_of_natural_width keys vals kvs hlen hkvs hfit
  exact ⟨h1, by rw [GenSetKeyType_bytes keys hne, h2], h3⟩

theorem MakeConcatElement_layout_addr_port :
    MakeConcatElement [TypeIPAddr, TypeInetService]
        [{ ipAddr := some [192, 0, 2, 1] }, { inetService := some 80 }] (some ⟨none⟩) =
      .ok { key := [192, 0, 2, 1, 0, 80, 0, 0] } ∧
    [192, 0, 2, 1, 0, 80, 0, 0].length % 2 ^ 32 =
      (GenSetKeyType [TypeIPAddr, TypeInetService]).bytes.toNat := by
  have hok : MakeConcatElement [TypeIPAddr, TypeInetService]
      [{ ipAddr := some [192, 0, 2, 1] }, { inetService := some 80 }] (some ⟨none⟩) =
      .ok { key := [192, 0, 2, 1, 0, 80, 0, 0] } := by decide
  obtain ⟨-, kvs, -, -, hfit⟩ := MakeConcatElement_layout _ _ _ _ hok
  exact ⟨hok, (hfit (by decide)).2.1⟩

/-- **An IPv4 address in its 16-byte form widens its field.**  `processElementValue` copies
    an address at the length it has, so a 16-byte address under `TypeIPAddr` (the form
    `net.ParseIP` returns for an IPv4 address) takes a 16-byte field where `GenSetKeyType`
    lays out 4.  Whatever the components around it, as long as they have their datatypes'
    widths, the key is 12 bytes longer than the composite datatype's fields, and reading it
    back with their widths fails. -/
theorem MakeConcatElement_wide_ipv4_field (ks₁ ks₂ : List SetDatatype)
    (vs₁ vs₂ : List ElementValue) (v : ElementValue) (a : List UInt8) (ra : RuleAction)
    (el : SetElement) (hlen : ks₁.length = vs₁.length) (hv : v.ipAddr = some a)
    (ha : a.length = 16) (hfit : ∀ p ∈ (ks₁ ++ ks₂).zip (vs₁ ++ vs₂), HasNaturalWidth p.1 p.2)
    (hok : MakeConcatElement (ks₁ ++ TypeIPAddr :: ks₂) (vs₁ ++ v :: vs₂) (some ra) = .ok el) :
    el.key.length = ((ks₁ ++ TypeIPAddr :: ks₂).map fun k => fieldWidth k.bytes.toNat).sum + 12 ∧
      decodeKey (ks₁ ++ TypeIPAddr :: ks₂) el.key = none := by
  obtain ⟨-, hlen', kvs, hkvs, rfl⟩ := MakeConcatElement_ok hok
  have hlen₂ : ks₂.length = vs₂.length := by simp at hlen'; omega
  have hc : componentValue TypeIPAddr v = some (.ipAddr a) := congrArg (Option.map _) hv
  rw [componentValues_append _ _ hlen, componentValues_cons, hc] at hkvs
  simp only [Option.bind_eq_some, Option.some_bind, Option.map_eq_some'] at hkvs
  obtain ⟨kvs₁, hkvs₁, _, ⟨kvs₂, hkvs₂, rfl⟩, rfl⟩ := hkvs
  rw [List.zip_append hlen] at hfit
  have h₁ := (fields_of_natural_width ks₁ vs₁ kvs₁ hlen hkvs₁
    fun p hp => hfit p (List.mem_append_left _ hp)).2.1
  have h₂ := (fields_of_natural_width ks₂ vs₂ kvs₂ hlen₂ hkvs₂
    fun p hp => hfit p (List.mem_append_right _ hp)).2.1
  have hwide : (alignField (KeyValue.ipAddr a).bytes).length =
      fieldWidth TypeIPAddr.bytes.toNat + 12 := by
    rw [length_alignField, show (KeyValue.ipAddr a).bytes = a from rfl, ha]; rfl
  have hkey : ((kvs₁ ++ KeyValue.ipAddr a :: kvs₂).map fun kv => alignField kv.bytes).flatten.length =
      ((ks₁ ++ TypeIPAddr :: ks₂).map fun k => fieldWidth k.bytes.toNat).sum + 12 := by
    simp only [List.map_append, List.map_cons, List.flatten_append, List.flatten_cons,
      List.length_append, h₁, h₂, List.sum_append, List.sum_cons, hwide]
    omega
  exact ⟨hkey, Option.eq_none_iff_forall_not_mem.mpr fun kvs' hd =>
    absurd (decodeKey_length _ _ _ hd) (by dsimp only; omega)⟩

/-- 192.0.2.1 in the 16-byte form `net.ParseIP` returns for an IPv4 address. -/
def mappedIPv4 : List UInt8 := [0, 0, 0, 0, 0, 0, 0, 0, 0, 0, 255, 255, 192, 0, 2, 1]

theorem MakeConcatElement_ipv4_in_16_bytes :
    MakeConcatElement [TypeIPAddr] [{ ipAddr := some mappedIPv4 }] (some ⟨none⟩) =
        .ok { key := mappedIPv4 } ∧
      (GenSetKeyType [TypeIPAddr]).bytes.toNat = 4 ∧
      mappedIPv4.length = ([TypeIPAddr].map fun k => fieldWidth k.bytes.toNat).sum + 12 ∧
      decodeKey [TypeIPAddr] mappedIPv4 = none := by
  have hok : MakeConcatElement [TypeIPAddr] [{ ipAddr := some mappedIPv4 }] (some ⟨none⟩) =
      .ok { key := mappedIPv4 } := by decide
  exact ⟨hok, rfl, MakeConcatElement_wide_ipv4_field [] [] [] [] _ mappedIPv4 ⟨none⟩ _ rfl rfl rfl
    (by simp) hok⟩

/-! ## §5. What `MakeConcatElement` refuses -/

/-- The error `processElementValue` reports for a component without a value: a datatype it
    supports has its value field unset, any other datatype is named by its tag. -/
def componentError (keyT : SetDatatype) : GoError :=
  if keyT ∈ [TypeInteger, TypeMark, TypeIPAddr, TypeIP6Addr, TypeEtherAddr, TypeInetProto,
      TypeInetService] then .text "key value cannot be nil"
  else .text ("unsupported type of key element " ++ toString keyT.nftMagic)

/-- The error of the first component, in order, that has no value. -/
def firstComponentError : List SetDatatype → List ElementValue → Option GoError
  | k :: ks, v :: vs =>
    if componentValue k v = none then some (componentError k) else firstComponentError ks vs
  | _, _ => none

theorem requireValue_error_iff {α : Type} (field : Option α) (encode : α → List UInt8)
    (f : α → KeyValue) (e : GoError) :
    (requireValue field encode >>= fun b => pure (copyInto (align4 b.length) b)) = .error e ↔
      field.map f = none ∧ e = .text "key value cannot be nil" := by
  cases field <;> simp [requireValue, bind, Except.bind, pure, Except.pure, eq_comm]

/-- **The encoder's error**: a component fails exactly when it has no value, with the error
    of its datatype. -/
theorem processElementValue_error_iff (keyT : SetDatatype) (keyV : ElementValue) (e : GoError) :
    processElementValue keyT keyV = .error e ↔
      componentValue keyT keyV = none ∧ e = componentError keyT := by
  rw [processElementValue, componentValue, componentError]
  by_cases h₁ : keyT = TypeInteger
  · rw [if_pos h₁, if_pos h₁, if_pos (by simp [h₁])]
    exact requireValue_error_iff _ _ KeyValue.integer e
  rw [if_neg h₁, if_neg h₁]
  by_cases h₂ : keyT = TypeMark
  · rw [if_pos h₂, if_pos h₂, if_pos (by simp [h₂])]
    exact requireValue_error_iff _ _ KeyValue.mark e
  rw [if_neg h₂, if_neg h₂]
  by_cases h₃ : keyT = TypeIPAddr ∨ keyT = TypeIP6Addr
  · rw [if_pos h₃, if_pos h₃, if_pos (by rcases h₃ with h | h <;> simp [h])]
    exact requireValue_error_iff _ _ KeyValue.ipAddr e
  rw [if_neg h₃, if_neg h₃]
  by_cases h₄ : keyT = TypeEtherAddr
  · rw [if_pos h₄, if_pos h₄, if_pos (by simp [h₄])]
    exact requireValue_error_iff _ _ KeyValue.etherAddr e
  rw [if_neg h₄, if_neg h₄]
  by_cases h₅ : keyT = TypeInetProto
  · rw [if_pos h₅, if_pos h₅, if_pos (by simp [h₅])]
    exact requireValue_error_iff _ _ KeyValue.inetProto e
  rw [if_neg h₅, if_neg h₅]
  by_cases h₆ : keyT = TypeInetService
  · rw [if_pos h₆, if_pos h₆, if_pos (by simp [h₆])]
    exact requireValue_error_iff _ _ KeyValue.inetService e
  rw [if_neg h₆, if_neg h₆, if_neg (by simp only [not_or] at h₃; simp [h₁, h₂, h₃, h₄, h₅, h₆])]
  simp [bind, Except.bind, eq_comm]

/-- The loop stops at the first component without a value, with that component's error. -/
theorem keyLoop_error_iff (keys : List SetDatatype) :
    ∀ (vals : List ElementValue) (key : List UInt8) (kl : Nat) (err : GoError),
      keyLoop keys vals key kl = .error err ↔ firstComponentError keys vals = some err := by
  induction keys with
  | nil => intro vals key kl err; simp [keyLoop, firstComponentError, pure, Except.pure]
  | cons k ks ih =>
    intro vals key kl err
    cases vals with
    | nil => simp [keyLoop, firstComponentError, pure, Except.pure]
    | cons v vs =>
      rw [keyLoop, except_bind_error, firstComponentError]
      cases hv : componentValue k v with
      | none =>
        rw [(processElementValue_error_iff k v _).mpr ⟨hv, rfl⟩]
        simp
      | some kv =>
        rw [(processElementValue_ok_iff k v _).mpr ⟨kv, hv, rfl⟩]
        simp [ih]

/-- **`MakeConcatElement`'s errors.**  The element is refused exactly by the first of its
    checks that fails, in the code's order, with that check's error: no action, no key, a
    count of values other than the count of keys, and then, component by component, the first
    component without a value, with "key value cannot be nil" for a supported datatype and
    "unsupported type of key element" and its tag otherwise. -/
theorem MakeConcatElement_error_iff (keys : List SetDatatype) (vals : List ElementValue)
    (ra : Option RuleAction) (err : GoError) :
    MakeConcatElement keys vals ra = .error err ↔
      (ra = none ∧ err = .text "verdict cannot be nil") ∨
      (ra ≠ none ∧ keys = [] ∧ err = .text "number of keys cannot be 0") ∨
      (ra ≠ none ∧ keys ≠ [] ∧ keys.length ≠ vals.length ∧
        err = .text "number of vals does not match number of keys") ∨
      (ra ≠ none ∧ keys ≠ [] ∧ keys.length = vals.length ∧
        firstComponentError keys vals = some err) := by
  cases ra with
  | none => simp [MakeConcatElement, eq_comm]
  | some ra =>
    simp only [MakeConcatElement]
    split_ifs with h0 hlen
    · simp [List.length_eq_zero.mp h0, eq_comm]
    · simp [List.length_eq_zero.not.mp h0, hlen, eq_comm]
    · rw [except_bind_error]
      simp [List.length_eq_zero.not.mp h0, not_not.mp hlen, keyLoop_error_iff, pure, Except.pure]

end NfTablesLib
