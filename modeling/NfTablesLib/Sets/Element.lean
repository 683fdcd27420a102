/-
  NfTablesLib.Sets.Element — `MakeElement` (src/nfsets.go): the elements of an address set,
  map or verdict map for one key address, with the value the input carries.

  `MakeElement` parses the key address, turns it into the elements of its range, and gives
  the first of them a value: an address, a port or a verdict, whichever the input sets
  first in that order.  An address value must be of the key's family.  The parser
  `NewIPAddr`, the range builder `buildElementRanges` and the family test `IsIPv6` are
  absent from src/ and are taken as parameters; an empty range makes `elements[0]` panic.
-/
import NfTablesLib.Compiler.L3
import NfTablesLib.Sets.ConcatElement

namespace NfTablesLib

open Nftables

/-- The address functions `MakeElement` calls, absent from src/: `NewIPAddr`,
    `buildElementRanges` and `(*IPAddr).IsIPv6`. -/
structure AddrFuncs where
  NewIPAddr : String → Except GoError IPAddr
  buildElementRanges : List IPAddr → List SetElement
  IsIPv6 : IPAddr → Bool

/-- The members of `ElementValue` that `MakeElement` reads (`nil` is `none`); the members
    the concatenated-key encoder reads are in `ElementValue`. -/
structure AddrElementValue where
  addr : String
  port : Option UInt16 := none
  addrIP : Option String := none
  action : Option RuleAction := none
  deriving DecidableEq, Repr

/-- The error of an address value of the other family. -/
def mixedFamilies : GoError := .text "cannot mix ipv4 and ipv6 addresses in the same element"

/-- `MakeElement`.  `none` is the runtime panic of `elements[0]` on an empty range. -/
def MakeElement (fs : AddrFuncs) (input : AddrElementValue) :
    Option (Except GoError (List SetElement)) :=
  match fs.NewIPAddr input.addr with
  | .error err => some (.error err)
  | .ok addr =>
    match fs.buildElementRanges [addr] with
    | [] => none
    | p :: rest =>
      match input.addrIP, input.port, input.action with
      | some s, _, _ =>
        match fs.NewIPAddr s with
        | .error err => some (.error err)
        | .ok valAddr =>
          if fs.IsIPv6 addr ∧ ¬fs.IsIPv6 valAddr then some (.error mixedFamilies)
          else if ¬fs.IsIPv6 addr ∧ fs.IsIPv6 valAddr then some (.error mixedFamilies)
          else some (.ok ({ p with val := valAddr.ip } :: rest))
      | none, some port, _ => some (.ok ({ p with val := putUint16 port } :: rest))
      | none, none, some ra => some (.ok ({ p with verdictData := ra.verdict } :: rest))
      | none, none, none => some (.ok (p :: rest))

end NfTablesLib
