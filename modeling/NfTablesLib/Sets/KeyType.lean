/-
  NfTablesLib.Sets.KeyType — `GenSetKeyType` (src/nfsets.go), the datatype of a
  concatenated set key.

  No component gives `TypeInvalid`; one component keeps its name and tag and has its
  width rounded up to a multiple of four, at least four; two or more run a loop that
  appends to a name, shifts each tag into a `uint32` accumulator `c` and adds each
  component's rounded width to a `uint32` accumulator `b`.  Both accumulators wrap.

  Main results:
    * `GenSetKeyType_bytes` — the width is the sum of the components' rounded widths,
      modulo 2^32.
    * `GenSetKeyType_tag` — with every tag below 2^SetConcatTypeBits, the tag is the
      packing of the component tags in base 2^SetConcatTypeBits, modulo 2^32.
    * `GenSetKeyType_tag_fields` — for two to five components nothing is truncated:
      field `j` holds the tag of the `j`-th component from the end, the bits above
      are zero, and the packing is injective.
    * `GenSetKeyType_six_tags_truncated` — six components do not fit: the leading
      component's tag loses its high bits.
    * `GenSetKeyType_name` — the name of two or more components is `"concat"` then, per
      component, `"_"`, its name twice and `"_"`: twice as long after `"concat"` as the
      name `concatKeyName` the package documents, so never that name.
-/
import Mathlib.Algebra.Order.Ring.Nat
import Mathlib.Data.String.Basic
import NfTablesLib.Types

namespace NfTablesLib

open Nftables

/-! ## §1. The model -/

/-- The width of the single component of `GenSetKeyType` (the `len(types) == 1` arm). -/
def alignBytes (bytes : UInt32) : UInt32 :=
  if bytes ≤ 4 then 4
  else if bytes % 4 ≠ 0 then bytes + (4 - bytes % 4)
  else bytes

/-- The variables of `GenSetKeyType`'s loop: the name, the packed tag `c`, the width `b`. -/
structure ConcatAcc where
  name : String
  c : UInt32
  b : UInt32

/-- Iteration `i` of `GenSetKeyType`'s loop over `n` components, on component `t`. -/
def concatStep (n : Nat) (acc : ConcatAcc) (i : Nat) (t : SetDatatype) : ConcatAcc :=
  let name := acc.name ++ ("_" ++ t.name)
  let c := acc.c <<< SetConcatTypeBits ||| t.nftMagic
  let b :=
    if t.bytes ≤ 4 then acc.b + 4
    else if t.bytes % 4 ≠ 0 then acc.b + t.bytes + (4 - t.bytes % 4)
    else acc.b + t.bytes
  let name := name ++ t.name
  ⟨if i < n then name ++ "_" else name, c, b⟩

/-- `GenSetKeyType`'s loop from index `i` on. -/
def concatLoop (n : Nat) : Nat → ConcatAcc → List SetDatatype → ConcatAcc
  | _, acc, [] => acc
  | i, acc, t :: ts => concatLoop n (i + 1) (concatStep n acc i t) ts

/-- `GenSetKeyType`: the composite key datatype of an ordered list of datatypes. -/
def GenSetKeyType : List SetDatatype → SetDatatype
  | [] => TypeInvalid
  | [t] => ⟨t.name, alignBytes t.bytes, t.nftMagic⟩
  | t₁ :: t₂ :: ts =>
    let acc := concatLoop (t₁ :: t₂ :: ts).length 0 ⟨"concat", 0, 0⟩ (t₁ :: t₂ :: ts)
    ⟨acc.name, acc.b, acc.c⟩

/-! ## §2. What the loop computes, in `Nat` -/

/-- The width a component of `bytes` bytes takes in a concatenated key: at least four,
    rounded up to a multiple of four. -/
def fieldWidth (bytes : Nat) : Nat := if bytes ≤ 4 then 4 else (bytes + 3) / 4 * 4

/-- The tags of `ts` appended to `c` as base-2^SetConcatTypeBits digits, first
    component most significant, with no truncation. -/
def packTags (c : Nat) (ts : List SetDatatype) : Nat :=
  ts.foldl (fun c t => c * 2 ^ SetConcatTypeBits.toNat + t.nftMagic.toNat) c

@[simp] theorem SetConcatTypeBits_toNat : SetConcatTypeBits.toNat = 6 := rfl

@[simp] theorem u32_toNat_four : (4 : UInt32).toNat = 4 := rfl

theorem u32_toNat_le (a b : UInt32) : a ≤ b ↔ a.toNat ≤ b.toNat := Iff.rfl

theorem u32_toNat_mod_four (x : UInt32) : (x % 4).toNat = x.toNat % 4 := by
  simp [UInt32.size]

theorem u32_toNat_four_sub_mod (x : UInt32) : (4 - x % 4).toNat = 4 - x.toNat % 4 := by
  rw [UInt32.toNat_sub_of_le, u32_toNat_mod_four]
  · rfl
  · rw [u32_toNat_le, u32_toNat_mod_four]; exact Nat.le_of_lt (Nat.mod_lt _ (by decide))

/-- Shifting a `uint32` left by `SetConcatTypeBits` and or-ing in a tag below 2^6 is
    multiply-and-add modulo 2^32. -/
theorem u32_toNat_shift_or (c m : UInt32) (hm : m.toNat < 2 ^ 6) :
    (c <<< SetConcatTypeBits ||| m).toNat = (c.toNat * 2 ^ 6 + m.toNat) % 2 ^ 32 := by
  have hshift : (c <<< SetConcatTypeBits).toNat = c.toNat * 2 ^ 6 % 2 ^ 32 := by
    show (c.toBitVec <<< (SetConcatTypeBits % 32).toBitVec).toNat = _
    rw [BitVec.shiftLeft_eq', BitVec.toNat_shiftLeft, Nat.shiftLeft_eq]
    rfl
  have hlow : c.toNat * 2 ^ 6 % 2 ^ 32 = 2 ^ 6 * (c.toNat % 2 ^ 26) := by omega
  show (c <<< SetConcatTypeBits).toNat ||| m.toNat = _
  rw [hshift, hlow, ← Nat.mul_add_lt_is_or hm]
  omega

theorem u32_mod_four_eq_zero (x : UInt32) : x % 4 = 0 ↔ x.toNat % 4 = 0 :=
  ⟨fun h => by rw [← u32_toNat_mod_four, h]; rfl,
   fun h => UInt32.toNat.inj (by rw [u32_toNat_mod_four, h]; rfl)⟩

theorem concatStep_b (n : Nat) (acc : ConcatAcc) (i : Nat) (t : SetDatatype) :
    (concatStep n acc i t).b.toNat = (acc.b.toNat + fieldWidth t.bytes.toNat) % 2 ^ 32 := by
  have hs := u32_toNat_four_sub_mod t.bytes
  simp only [concatStep, fieldWidth, u32_toNat_le, ne_eq, u32_mod_four_eq_zero, u32_toNat_four]
  split_ifs <;> simp only [UInt32.toNat_add, hs, u32_toNat_four, UInt32.size] <;> omega

theorem concatStep_c (n : Nat) (acc : ConcatAcc) (i : Nat) (t : SetDatatype)
    (ht : t.nftMagic.toNat < 2 ^ 6) :
    (concatStep n acc i t).c.toNat = (acc.c.toNat * 2 ^ 6 + t.nftMagic.toNat) % 2 ^ 32 :=
  u32_toNat_shift_or _ _ ht

theorem concatLoop_b (n : Nat) (ts : List SetDatatype) :
    ∀ i acc, (concatLoop n i acc ts).b.toNat =
      (acc.b.toNat + (ts.map fun t => fieldWidth t.bytes.toNat).sum) % 2 ^ 32 := by
  induction ts with
  | nil => intro i acc; simpa [concatLoop] using (Nat.mod_eq_of_lt acc.b.toNat_lt_size).symm
  | cons t ts ih =>
    intro i acc
    rw [concatLoop, ih, concatStep_b, List.map_cons, List.sum_cons]
    omega

/-- `packTags` only depends on its start modulo 2^32, once reduced modulo 2^32. -/
theorem packTags_mod (ts : List SetDatatype) :
    ∀ c, packTags (c % 2 ^ 32) ts % 2 ^ 32 = packTags c ts % 2 ^ 32 := by
  induction ts with
  | nil => intro c; simp [packTags]
  | cons t ts ih =>
    intro c
    simp only [packTags, List.foldl_cons] at ih ⊢
    rw [← ih (c * _ + _), ← ih (c % _ * _ + _)]
    congr 2
    simp only [SetConcatTypeBits_toNat]
    omega

theorem concatLoop_c (n : Nat) (ts : List SetDatatype)
    (hts : ∀ t ∈ ts, t.nftMagic.toNat < 2 ^ 6) :
    ∀ i acc, (concatLoop n i acc ts).c.toNat = packTags acc.c.toNat ts % 2 ^ 32 := by
  induction ts with
  | nil =>
    intro i acc
    simpa [concatLoop, packTags] using (Nat.mod_eq_of_lt acc.c.toNat_lt_size).symm
  | cons t ts ih =>
    intro i acc
    have ht := hts t (List.mem_cons_self _ _)
    rw [concatLoop, ih (fun t' h => hts t' (List.mem_cons_of_mem _ h)),
      concatStep_c _ _ _ _ ht, packTags_mod]
    rfl

/-! ## §3. The width and the tag of a composite key -/

theorem alignBytes_toNat (bytes : UInt32) :
    (alignBytes bytes).toNat = fieldWidth bytes.toNat % 2 ^ 32 := by
  have hs := u32_toNat_four_sub_mod bytes
  have hb := bytes.toNat_lt_size
  simp only [alignBytes, fieldWidth, u32_toNat_le, ne_eq, u32_mod_four_eq_zero, u32_toNat_four]
  split_ifs <;> simp only [UInt32.toNat_add, hs, u32_toNat_four, UInt32.size] at hb ⊢ <;> omega

/-- **The width of a composite key** is the sum of its components' rounded widths,
    modulo 2^32: `b` is a `uint32`. -/
theorem GenSetKeyType_bytes (types : List SetDatatype) (h : types ≠ []) :
    (GenSetKeyType types).bytes.toNat =
      (types.map fun t => fieldWidth t.bytes.toNat).sum % 2 ^ 32 := by
  match types, h with
  | [t], _ => simpa [GenSetKeyType] using alignBytes_toNat t.bytes
  | t₁ :: t₂ :: ts, _ => simp [GenSetKeyType, concatLoop_b]

/-- With every tag below 2^6, the tag of two or more components is their packing
    modulo 2^32. -/
theorem GenSetKeyType_tag (types : List SetDatatype) (h : 2 ≤ types.length)
    (htags : ∀ t ∈ types, t.nftMagic.toNat < 2 ^ 6) :
    (GenSetKeyType types).nftMagic.toNat = packTags 0 types % 2 ^ 32 := by
  match types, h with
  | t₁ :: t₂ :: ts, _ => exact concatLoop_c _ _ htags 0 _

/-! ## §4. Reading the packed tag back -/

/-- The packed tags, read from the last component up: digit `j` is the `j`-th tag of `l`. -/
def digitsValue (l : List SetDatatype) : Nat :=
  l.foldr (fun t c => c * 2 ^ 6 + t.nftMagic.toNat) 0

theorem packTags_zero_eq_digitsValue (ts : List SetDatatype) :
    packTags 0 ts = digitsValue ts.reverse := by
  simp [packTags, digitsValue, List.foldr_reverse]

theorem digitsValue_lt (l : List SetDatatype) (hl : ∀ t ∈ l, t.nftMagic.toNat < 2 ^ 6) :
    digitsValue l < 2 ^ (6 * l.length) := by
  induction l with
  | nil => simp [digitsValue]
  | cons t l ih =>
    have ht := hl t (List.mem_cons_self _ _)
    have hv := ih (fun t' h => hl t' (List.mem_cons_of_mem _ h))
    simp only [digitsValue, List.foldr_cons, List.length_cons] at hv ⊢
    rw [show 6 * (l.length + 1) = 6 * l.length + 6 by omega, Nat.pow_add]
    have h64 : (2 : Nat) ^ 6 = 64 := rfl
    rw [h64] at ht hv ⊢
    omega

theorem digitsValue_digit (l : List SetDatatype) (hl : ∀ t ∈ l, t.nftMagic.toNat < 2 ^ 6) :
    ∀ j (hj : j < l.length),
      digitsValue l / 2 ^ (6 * j) % 2 ^ 6 = (l.get ⟨j, hj⟩).nftMagic.toNat := by
  induction l with
  | nil => intro j hj; simp at hj
  | cons t l ih =>
    have ht := hl t (List.mem_cons_self _ _)
    intro j hj
    simp only [digitsValue, List.foldr_cons] at ih ⊢
    cases j with
    | zero => simp only [Nat.mul_zero, pow_zero, Nat.div_one, List.get_eq_getElem,
        List.getElem_cons_zero]; omega
    | succ j =>
      have hdiv : ∀ v, (v * 2 ^ 6 + t.nftMagic.toNat) / 2 ^ (6 * (j + 1)) = v / 2 ^ (6 * j) := by
        intro v
        rw [show 6 * (j + 1) = 6 + 6 * j by omega, Nat.pow_add, ← Nat.div_div_eq_div_mul]
        congr 1
        omega
      rw [hdiv]
      exact ih (fun t' h => hl t' (List.mem_cons_of_mem _ h)) j (by simpa using hj)

/-- Two lists of the same length whose tags fit in six bits and pack to the same
    value carry the same tags. -/
theorem digitsValue_inj (l l' : List SetDatatype) (hlen : l'.length = l.length)
    (hl : ∀ t ∈ l, t.nftMagic.toNat < 2 ^ 6) (hl' : ∀ t ∈ l', t.nftMagic.toNat < 2 ^ 6)
    (h : digitsValue l' = digitsValue l) :
    l'.map SetDatatype.nftMagic = l.map SetDatatype.nftMagic := by
  apply List.ext_get (by simpa using hlen)
  intro j h1 h2
  simp only [List.get_eq_getElem, List.getElem_map]
  apply UInt32.toNat.inj
  have d := digitsValue_digit l hl j (by simpa using h2)
  have d' := digitsValue_digit l' hl' j (by simpa using h1)
  rw [h] at d'
  simpa using d'.symm.trans d

/-- Two to five components: the packed tag is exactly the digit value, untruncated. -/
theorem GenSetKeyType_tag_eq_digits (types : List SetDatatype)
    (hlen : 2 ≤ types.length ∧ types.length * SetConcatTypeBits.toNat ≤ 32)
    (htags : ∀ t ∈ types, t.nftMagic.toNat < 2 ^ SetConcatTypeBits.toNat) :
    (GenSetKeyType types).nftMagic.toNat = digitsValue types.reverse := by
  simp only [SetConcatTypeBits_toNat] at hlen htags
  have hrev : ∀ t ∈ types.reverse, t.nftMagic.toNat < 2 ^ 6 := by simpa using htags
  have hlt := digitsValue_lt _ hrev
  have hpow : 2 ^ (6 * types.reverse.length) ≤ 2 ^ 32 :=
    Nat.pow_le_pow_right (by decide) (by simp; omega)
  rw [GenSetKeyType_tag types hlen.1 htags, packTags_zero_eq_digitsValue,
    Nat.mod_eq_of_lt (by omega)]

/-- **The packed tag of two to five components keeps every tag.**  Read as
    `SetConcatTypeBits`-bit fields, field `j` is the tag of the `j`-th component from
    the end, the bits above the last field are zero, and two lists of the same length
    with the same packed tag have the same tags. -/
theorem GenSetKeyType_tag_fields (types : List SetDatatype)
    (hlen : 2 ≤ types.length ∧ types.length * SetConcatTypeBits.toNat ≤ 32)
    (htags : ∀ t ∈ types, t.nftMagic.toNat < 2 ^ SetConcatTypeBits.toNat) :
    (∀ j (hj : j < types.reverse.length),
      (GenSetKeyType types).nftMagic.toNat / 2 ^ (SetConcatTypeBits.toNat * j)
        % 2 ^ SetConcatTypeBits.toNat = (types.reverse.get ⟨j, hj⟩).nftMagic.toNat) ∧
    (GenSetKeyType types).nftMagic.toNat / 2 ^ (SetConcatTypeBits.toNat * types.length) = 0 ∧
    (∀ types' : List SetDatatype, types'.length = types.length →
      (∀ t ∈ types', t.nftMagic.toNat < 2 ^ SetConcatTypeBits.toNat) →
      (GenSetKeyType types').nftMagic = (GenSetKeyType types).nftMagic →
      types'.map SetDatatype.nftMagic = types.map SetDatatype.nftMagic) := by
  have hval := GenSetKeyType_tag_eq_digits types hlen htags
  have hrev : ∀ t ∈ types.reverse, t.nftMagic.toNat < 2 ^ 6 := by simpa using htags
  refine ⟨fun j hj => ?_, ?_, fun types' hlen' htags' heq => ?_⟩
  · simpa [hval] using digitsValue_digit _ hrev j hj
  · rw [hval, Nat.div_eq_of_lt]
    simpa using digitsValue_lt _ hrev
  · have hval' := GenSetKeyType_tag_eq_digits types' (by rw [hlen']; exact hlen) htags'
    have hrev' : ∀ t ∈ types'.reverse, t.nftMagic.toNat < 2 ^ 6 := by simpa using htags'
    have h := digitsValue_inj _ _ (by simpa using hlen') hrev hrev'
      (by rw [← hval, ← hval', heq])
    simpa [List.map_reverse] using h

theorem GenSetKeyType_tag_fields_addr_service :
    (2 ≤ [TypeIPAddr, TypeInetService].length ∧
      [TypeIPAddr, TypeInetService].length * SetConcatTypeBits.toNat ≤ 32) ∧
    (GenSetKeyType [TypeIPAddr, TypeInetService]).nftMagic.toNat % 2 ^ 6 =
      TypeInetService.nftMagic.toNat :=
  ⟨⟨by decide, by decide⟩,
    by simpa using (GenSetKeyType_tag_fields [TypeIPAddr, TypeInetService]
      ⟨by decide, by decide⟩ (by decide)).1 0 (by decide)⟩

/-- Six components overflow the `uint32`: the leading component's field reads 3, not
    the tag 7 of `TypeIPAddr`. -/
theorem GenSetKeyType_six_tags_truncated :
    (∀ t ∈ List.replicate 6 TypeIPAddr, t.nftMagic.toNat < 2 ^ SetConcatTypeBits.toNat) ∧
    (GenSetKeyType (List.replicate 6 TypeIPAddr)).nftMagic.toNat
        / 2 ^ (SetConcatTypeBits.toNat * 5) % 2 ^ SetConcatTypeBits.toNat = 3 ∧
    ((List.replicate 6 TypeIPAddr).reverse.get ⟨5, by decide⟩).nftMagic.toNat = 7 := by
  decide

/-! ## §5. The name of a composite key -/

/-- The name the package documents for a composite key: `"concat"` followed, for each
    component in order, by `"_"` and its name. -/
def concatKeyName (types : List SetDatatype) : String :=
  "concat" ++ String.join (types.map fun t => "_" ++ t.name)

theorem string_join_cons (s : String) (ss : List String) :
    String.join (s :: ss) = s ++ String.join ss :=
  String.ext (by simp)

/-- Inside the loop `i < len(types)` always holds, so every pass appends `"_"`, the
    component's name, the name again and `"_"`. -/
theorem concatLoop_name (n : Nat) (ts : List SetDatatype) :
    ∀ i acc, i + ts.length ≤ n → (concatLoop n i acc ts).name =
      acc.name ++ String.join (ts.map fun t => "_" ++ t.name ++ t.name ++ "_") := by
  induction ts with
  | nil => intro i acc _; exact (String.append_empty _).symm
  | cons t ts ih =>
    intro i acc hi
    simp only [List.length_cons] at hi
    have hlt : i < n := by omega
    rw [concatLoop, ih _ _ (by omega), List.map_cons, string_join_cons]
    simp only [concatStep, hlt, if_true, String.append_assoc]

/-- Each pass appends twice what the documented name gives the component. -/
theorem loopName_length (ts : List SetDatatype) :
    (String.join (ts.map fun t => "_" ++ t.name ++ t.name ++ "_")).length =
      2 * (String.join (ts.map fun t => "_" ++ t.name)).length := by
  induction ts with
  | nil => rfl
  | cons t ts ih =>
    simp only [List.map_cons, string_join_cons, String.length_append, ih]
    omega

/-- **The name of a composite key.**  For two or more components it is `"concat"`
    followed, per component, by `"_"`, the component's name twice and `"_"`, so it is
    never the documented `concatKeyName`: past `"concat"` it is twice as long. -/
theorem GenSetKeyType_name (types : List SetDatatype) (h : 2 ≤ types.length) :
    (GenSetKeyType types).name =
        "concat" ++ String.join (types.map fun t => "_" ++ t.name ++ t.name ++ "_") ∧
      (GenSetKeyType types).name ≠ concatKeyName types := by
  match types, h with
  | t₁ :: t₂ :: ts, _ =>
    have hname := concatLoop_name (t₁ :: t₂ :: ts).length (t₁ :: t₂ :: ts) 0
      ⟨"concat", 0, 0⟩ (by omega)
    refine ⟨hname, fun heq => ?_⟩
    have hlen := congrArg String.length (hname.symm.trans heq)
    simp only [concatKeyName, String.length_append, loopName_length, List.map_cons,
      string_join_cons] at hlen
    have hsep : "_".length = 1 := rfl
    omega

/-- An address-and-service key is named
    `concat_ipv4_addripv4_addr__inet_serviceinet_service_`, not
    `concat_ipv4_addr_inet_service`. -/
theorem GenSetKeyType_name_addr_service :
    2 ≤ [TypeIPAddr, TypeInetService].length ∧
      (GenSetKeyType [TypeIPAddr, TypeInetService]).name =
        "concat_ipv4_addripv4_addr__inet_serviceinet_service_" ∧
      concatKeyName [TypeIPAddr, TypeInetService] = "concat_ipv4_addr_inet_service" ∧
      (GenSetKeyType [TypeIPAddr, TypeInetService]).name ≠
        concatKeyName [TypeIPAddr, TypeInetService] := by
  have h := GenSetKeyType_name [TypeIPAddr, TypeInetService] (by decide)
  exact ⟨by decide, h.1.trans rfl, rfl, h.2⟩

end NfTablesLib
