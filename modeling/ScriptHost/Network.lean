/-!
# The network

What a server sees of the network: whether it may listen at a host and a port, and then who connects
and what they send.

## Main definitions

* `Delivery` : what one read from a connection gives.
* `ErrorKind`, `AcceptFault` : the system's errors, and which of them are fatal to a listener.
* `Arrival` : what one accept gives.
* `Network` : the answer to listening at a host and a port.
-/

namespace ScriptHost

/-- What one read from a connection gives; no bytes mean the end of the stream. -/
inductive Delivery where
  | bytes (bs : List UInt8)
  | reset
deriving DecidableEq

/-- What a client sends, read by read. -/
abbrev Connection := List Delivery

/-- The kinds into which the system's errors are sorted. -/
inductive ErrorKind where
  | notFound | permissionDenied | alreadyExists | wouldBlock | notADirectory | isADirectory
  | directoryNotEmpty | readOnlyFilesystem | staleNetworkFileHandle | invalidInput | invalidData
  | timedOut | writeZero | storageFull | notSeekable | quotaExceeded | fileTooLarge | resourceBusy
  | executableFileBusy | deadlock | crossesDevices | tooManyLinks | argumentListTooLong
  | interrupted | unsupported | unexpectedEnd | outOfMemory | connectionRefused | connectionReset
  | hostUnreachable | networkUnreachable | connectionAborted | notConnected | addressInUse
  | addressNotAvailable | networkDown | brokenPipe | other
deriving DecidableEq

/-- Why no connection could be accepted. -/
structure AcceptFault where
  kind : ErrorKind
  message : String
deriving DecidableEq

/-- Whether a fault means that the listener itself is unusable. -/
def AcceptFault.isFatal (fault : AcceptFault) : Bool :=
  match fault.kind with
  | .invalidInput | .notConnected | .unsupported => true
  | _ => false

theorem AcceptFault.isFatal_iff {fault : AcceptFault} : fault.isFatal = true ↔
    fault.kind ∈ [ErrorKind.invalidInput, .notConnected, .unsupported] := by
  rw [isFatal]
  cases fault.kind <;> decide

/-- What one accept gives. -/
abbrev Arrival (σ : Type) := Except AcceptFault σ

/-- The answer to listening at a host and a port: who connects, or the system's error. -/
structure Network where
  listen : String → Nat → Except String (List (Arrival Connection))

/-- A network on which a server may listen anywhere and these connections arrive. -/
def Network.delivering (arrivals : List (Arrival Connection)) : Network := ⟨fun _ _ ↦ .ok arrivals⟩

/-- A network that refuses every address with one error. -/
def Network.refusing (message : String) : Network := ⟨fun _ _ ↦ .error message⟩

end ScriptHost
