/-
  NfTablesLib.Types — the values the store and the compilers pass around: the types of
  the `nftables` package they read and build (table families, tables, set datatypes,
  sets, set elements, chains), the verdict of package `expr`, and the Go `error`.

  Pointers become values: a `*nftables.Table` held by a set is the table itself.  Only
  the fields that a modelled function reads or writes are kept; MODEL_MAP.json lists
  the others.
-/
import Mathlib.Data.Finmap

namespace NfTablesLib

/-- A Go `error` as the store sees it. -/
inductive GoError where
  /-- `unix.EEXIST`, the error `Flush` reports for an object that already exists. -/
  | eexist
  /-- Any other failure of a connection call. -/
  | conn (msg : String)
  /-- An error the library builds itself with `fmt.Errorf`. -/
  | text (msg : String)
  deriving DecidableEq, Repr

/-- Results of fallible calls can be compared, so that a run on a fixed input can be
    checked by `decide`. -/
instance instDecidableEqExcept {ε α : Type} [DecidableEq ε] [DecidableEq α] :
    DecidableEq (Except ε α)
  | .ok a, .ok b =>
    if h : a = b then isTrue (h ▸ rfl) else isFalse fun e => h (by cases e; rfl)
  | .error a, .error b =>
    if h : a = b then isTrue (h ▸ rfl) else isFalse fun e => h (by cases e; rfl)
  | .ok _, .error _ => isFalse fun e => by cases e
  | .error _, .ok _ => isFalse fun e => by cases e

/-! What a chain of fallible steps returns: these take an `Except` bind or map apart, so that
no proof unfolds `Except.bind`. -/

theorem except_bind_ok {ε α β : Type} (x : Except ε α) (f : α → Except ε β) (b : β) :
    x >>= f = .ok b ↔ ∃ a, x = .ok a ∧ f a = .ok b := by
  cases x <;> simp [bind, Except.bind]

theorem except_bind_error {ε α β : Type} (x : Except ε α) (f : α → Except ε β) (e : ε) :
    x >>= f = .error e ↔ x = .error e ∨ ∃ a, x = .ok a ∧ f a = .error e := by
  cases x <;> simp [bind, Except.bind]

theorem except_map_ok {ε α β : Type} (f : α → β) (x : Except ε α) (b : β) :
    f <$> x = .ok b ↔ ∃ a, x = .ok a ∧ f a = b := by
  cases x <;> simp [Functor.map, Except.map]

namespace Expr

/-- `expr.Verdict`: a verdict kind and, for jumps and gotos, the target chain. -/
structure Verdict where
  kind : Int
  chain : String
  deriving DecidableEq, Repr

end Expr

namespace Nftables

/-- `nftables.TableFamily`, a `uint32` protocol family. -/
structure TableFamily where
  val : UInt32
  deriving DecidableEq, Repr

namespace TableFamily

/-- `nftables.TableFamilyINet` (`NFPROTO_INET`). -/
def INet : TableFamily := ⟨1⟩
/-- `nftables.TableFamilyIPv4` (`NFPROTO_IPV4`). -/
def IPv4 : TableFamily := ⟨2⟩
/-- `nftables.TableFamilyARP` (`NFPROTO_ARP`). -/
def ARP : TableFamily := ⟨3⟩
/-- `nftables.TableFamilyNetdev` (`NFPROTO_NETDEV`). -/
def NetDev : TableFamily := ⟨5⟩
/-- `nftables.TableFamilyBridge` (`NFPROTO_BRIDGE`). -/
def Bridge : TableFamily := ⟨7⟩
/-- `nftables.TableFamilyIPv6` (`NFPROTO_IPV6`). -/
def IPv6 : TableFamily := ⟨10⟩

end TableFamily

/-- `nftables.Table`: a table is named by its family and its name. -/
structure Table where
  name : String
  family : TableFamily
  deriving DecidableEq, Repr

/-- `nftables.SetDatatype`: a key or data type of a set, its byte width and the
    `nft` magic tag (`GetNFTMagic`/`SetNFTMagic`). -/
structure SetDatatype where
  name : String
  bytes : UInt32
  nftMagic : UInt32
  deriving DecidableEq, Repr

/-! ## The datatype table

Modelled from the spec: the `nftables` package's datatypes are absent from src/; the
names, byte widths and `nft` tags below are those the package declares.  The widths are
the ones the spec relies on: a 4-byte and a 16-byte address type, a `uint32` integer and
mark, a `uint16` service and a one-byte protocol. -/

/-- Modelled from the spec: `nftables.TypeInvalid`. -/
def TypeInvalid : SetDatatype := ⟨"invalid", 0, 0⟩
/-- Modelled from the spec: `nftables.TypeInteger`. -/
def TypeInteger : SetDatatype := ⟨"integer", 4, 4⟩
/-- Modelled from the spec: `nftables.TypeIPAddr`. -/
def TypeIPAddr : SetDatatype := ⟨"ipv4_addr", 4, 7⟩
/-- Modelled from the spec: `nftables.TypeIP6Addr`. -/
def TypeIP6Addr : SetDatatype := ⟨"ipv6_addr", 16, 8⟩
/-- Modelled from the spec: `nftables.TypeEtherAddr`. -/
def TypeEtherAddr : SetDatatype := ⟨"ether_addr", 6, 9⟩
/-- Modelled from the spec: `nftables.TypeInetProto`. -/
def TypeInetProto : SetDatatype := ⟨"inet_proto", 1, 12⟩
/-- Modelled from the spec: `nftables.TypeInetService`. -/
def TypeInetService : SetDatatype := ⟨"inet_service", 2, 13⟩
/-- Modelled from the spec: `nftables.TypeMark`. -/
def TypeMark : SetDatatype := ⟨"mark", 4, 19⟩
/-- Modelled from the spec: `nftables.SetConcatTypeBits`, the width of one component's
    tag inside a concatenated tag. -/
def SetConcatTypeBits : UInt32 := 6

/-- `nftables.SetElement`: a key, an optional data value, the interval-end flag and an
    optional verdict (verdict maps). -/
structure SetElement where
  key : List UInt8 := []
  val : List UInt8 := []
  intervalEnd : Bool := false
  verdictData : Option Expr.Verdict := none
  deriving DecidableEq, Repr

/-- `nftables.Set`: the attributes the library fills in when it builds a set.  The table
    is `nil` in the lookup sets the rule compiler returns. -/
structure Set where
  table : Option Table
  id : UInt32
  name : String
  anonymous : Bool
  constant : Bool
  interval : Bool
  isMap : Bool
  hasTimeout : Bool
  /-- `time.Duration`, in nanoseconds. -/
  timeout : Int
  keyType : SetDatatype
  dataType : SetDatatype
  deriving DecidableEq, Repr

/-- `nftables.Chain`, by its name and its table. -/
structure Chain where
  name : String
  table : Table
  deriving DecidableEq, Repr

end Nftables

/-- Modelled from the spec: `RuleAction` (absent from src/), of which the element
    builders read only the verdict. -/
structure RuleAction where
  verdict : Option Expr.Verdict
  deriving DecidableEq, Repr

end NfTablesLib
