import ScriptHost.Network
import ScriptHost.Network.Address
import ScriptHost.Network.HostName

/-!
# A machine without any link

A machine whose network interfaces are all down, for a user without privileges.  Nobody can reach
it.  Every address of four bytes counts as its own there, while of the addresses of eight groups
only the wildcard and those that wrap four bytes do; the low ports are reserved.  Of all names only
its own is known, as there is nobody to ask.

## Main definitions

* `Network.Refusal` : why a server cannot listen at a host and a port.
* `Network.resolve` : the address that a host is.
* `Network.refusal?` : whether an address and a port are refused.
* `Network.isolated` : the network of such a machine.
-/

namespace ScriptHost.Network

/-- Why a server cannot listen at a host and a port. -/
inductive Refusal where
  | reservedPort
  | notOwn
  | notForListening
  | unknownZone
  | noName
  | nobodyToAsk
deriving DecidableEq, Repr

namespace Refusal

/-- What the system says. -/
def message : Refusal → String
  | reservedPort => "Permission denied (os error 13)"
  | notOwn => "Cannot assign requested address (os error 99)"
  | notForListening => "Invalid argument (os error 22)"
  | unknownZone => "No such device (os error 19)"
  | noName => "failed to lookup address information: Name or service not known"
  | nobodyToAsk => "failed to lookup address information: Temporary failure in name resolution"

end Refusal

/-- The address that a host is: the one its text denotes, or the one that its name is known for. -/
def resolve (host : List Char) : Except Refusal Address :=
  match Address.read? host with
  | some address => .ok address
  | none =>
    if Text.sameIgnoringCase host "localhost".toList then .ok (.bytes 0x7F000001)
    else if isHostName host then .error .nobodyToAsk
    else .error .noName

/-- The ports that take a privilege; port zero stands for any free one. -/
def isReserved (port : Nat) : Bool := decide (0 < port) && decide (port < 1024)

/-- Why an address and a port are refused, if they are. -/
def refusal? (port : Nat) : Address → Option Refusal
  | .bytes _ => if isReserved port then some .reservedPort else none
  | .groups groups zone =>
    if Address.isMulticast groups then some .notForListening
    else if isReserved port then some .reservedPort
    else if groups.all (· == 0) || Address.isMapped groups then none
    else if Address.isLinkLocal groups && zone == 0 then some .notForListening
    else if Address.isLinkLocal groups && zone != Address.ownZone then some .unknownZone
    else some .notOwn

/-- The network of a machine without any link. -/
def isolated : Network where
  listen host port :=
    match resolve host.toList with
    | .error refusal => .error refusal.message
    | .ok address =>
      match refusal? port address with
      | some refusal => .error refusal.message
      | none => .ok []

end ScriptHost.Network
