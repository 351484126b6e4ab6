import ScriptHost.Decimal.Literal

/-!
# Server settings

## Main definitions

* `Http.Settings` : where to listen, how much to read, how long to serve.
* `Http.Settings.ofEnvironment` : the defaults with what the environment sets.
-/

namespace ScriptHost.Http

/-- Where to listen, how much of a request to read, and after how many connections to stop. -/
structure Settings where
  host : String
  port : Nat
  maxRequestBytes : Nat
  maxRequests : Option Nat
deriving DecidableEq

namespace Settings

/-- The settings without any wish. -/
def standard : Settings := ⟨"127.0.0.1", 8080, 65536, none⟩

instance : Inhabited Settings := ⟨standard⟩

/-- A limit of zero means no limit. -/
def limit? (n : Nat) : Option Nat := if n = 0 then none else some n

/-- Settings with another port. -/
def withPort (s : Settings) (port : Nat) : Settings := { s with port }

/-- Settings with another limit on the connections. -/
def withMaxRequests (s : Settings) (n : Option Nat) : Settings :=
  { s with maxRequests := n.bind limit? }

/-- The standard settings with what the environment sets; what cannot be read is ignored. -/
def ofEnvironment (setting? : String → Option String) : Settings :=
  let host := (setting? "SNASK_HOST").filter (!·.isEmpty)
  let port := (setting? "SNASK_PORT").bind fun s ↦ Decimal.readNat (1 <<< 16) s.toList
  let count := (setting? "SNASK_MAX_REQUESTS").bind fun s ↦ Decimal.readNat (1 <<< 64) s.toList
  { standard with
    host := host.getD standard.host
    port := port.getD standard.port
    maxRequests := count.bind limit? }

/-- The address to listen at. -/
def address (s : Settings) : String := s.host ++ ":" ++ Nat.repr s.port

end Settings

end ScriptHost.Http
