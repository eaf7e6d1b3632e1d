/-
**Network addresses.**

An address of version 4 has 32 bits, one of version 6 has 128. With a prefix length it stands for
all addresses that agree in so many leading bits; without one it stands for itself.

* `Address.ofText?` reads the usual forms, without version 4 parts in version 6 addresses;
* `Address.isInRange`: all addresses of one are addresses of the other.
-/

import PolicyLedger.Policy.Extension.Decimal

namespace PolicyLedger.Policy

/-- The version of an address. -/
inductive AddressVersion
  | v4
  | v6
  deriving DecidableEq, Repr

namespace AddressVersion

/-- The number of bits of an address. -/
def width : AddressVersion → Nat
  | v4 => 32
  | v6 => 128

end AddressVersion

/-- An address with a prefix length. -/
structure Address where
  version : AddressVersion
  bits : Nat
  prefixLength : Nat
  deriving DecidableEq, Repr

namespace Address

/-- A part of a version 4 address: up to three digits without a zero in front. -/
def octet? (cs : List Char) : Option Nat :=
  if Text.isPlainNumber cs && cs.length ≤ 3 && Text.decimalValue cs < 256 then
    some (Text.decimalValue cs)
  else none

/-- The bits of a version 4 address. -/
def bitsV4? (cs : List Char) : Option Nat := do
  let parts ← (Text.pieces '.' cs).mapM octet?
  if parts.length = 4 then some (parts.foldl (fun sum part => 256 * sum + part) 0) else none

/-- A part of a version 6 address: one to four hexadecimal digits. -/
def group? (cs : List Char) : Option Nat :=
  if cs.isEmpty || 4 < cs.length then none else Text.hexNumber? cs

/-- The parts of a version 6 address, none if there is no text. -/
def groups? (cs : List Char) : Option (List Nat) :=
  if cs.isEmpty then some [] else (Text.pieces ':' cs).mapM group?

/-- The bits of eight parts. -/
def ofGroups (groups : List Nat) : Nat := groups.foldl (fun sum group => 65536 * sum + group) 0

/-- The bits of a version 6 address. Two colons stand for at least one part of zeros, once. -/
def bitsV6? (cs : List Char) : Option Nat :=
  match Text.splitFirst? [':', ':'] cs with
  | none => do
    let groups ← groups? cs
    if groups.length = 8 then some (ofGroups groups) else none
  | some (before, after) => do
    let high ← groups? before
    let low ← groups? after
    if high.length + low.length < 8 then
      some (ofGroups (high ++ List.replicate (8 - high.length - low.length) 0 ++ low))
    else none

/-- A prefix length of at most some bits, without a zero in front. -/
def prefixOf? (width : Nat) (cs : List Char) : Option Nat :=
  if Text.isPlainNumber cs && cs.length ≤ 3 && Text.decimalValue cs ≤ width then
    some (Text.decimalValue cs)
  else none

/-- The longest text of an address. -/
def maxLength : Nat := 43

/-- The address with a text. -/
def ofText? (text : String) : Option Address := do
  let cs := text.toList
  if maxLength < text.utf8ByteSize || (cs.contains ':' && cs.contains '.') then none
  else
    let (address, length?) := match Text.splitFirst? ['/'] cs with
      | none => (cs, none)
      | some (address, length) => (address, some length)
    let (version, bits) ← match bitsV4? address with
      | some bits => some (.v4, bits)
      | none => (bitsV6? address).map fun bits => (AddressVersion.v6, bits)
    let length ← match length? with
      | none => some version.width
      | some digits => prefixOf? version.width digits
    return ⟨version, bits, length⟩

/-- The number of addresses that a prefix leaves open. -/
def span (address : Address) : Nat := 1 <<< (address.version.width - address.prefixLength)

/-- The lowest address of a range. -/
def lowest (address : Address) : Nat := address.bits / address.span * address.span

/-- The highest address of a range. -/
def highest (address : Address) : Nat := address.lowest + (address.span - 1)

/-- Holds if all addresses of the first are addresses of the second. -/
def isInRange (address range : Address) : Bool :=
  address.version = range.version && range.lowest ≤ address.lowest &&
    address.highest ≤ range.highest

/-- Holds of an address whose leading bits are those of loopback addresses. -/
def isLoopback (address : Address) : Bool :=
  match address.version with
  | .v4 => address.bits >>> 24 = 127 && 8 ≤ address.prefixLength
  | .v6 => address.bits = 1 && 128 ≤ address.prefixLength

/-- Holds of an address whose leading bits are those of multicast addresses. -/
def isMulticast (address : Address) : Bool :=
  match address.version with
  | .v4 => address.bits >>> 28 = 14 && 4 ≤ address.prefixLength
  | .v6 => address.bits >>> 120 = 255 && 8 ≤ address.prefixLength

end Address

end PolicyLedger.Policy
