import ScriptHost.Http.Request
import ScriptHost.Network

/-!
# Reading a request from a connection

A request is read into a buffer of limited size: up to the blank line, then until the declared body
is there.  Every read asks for all the room that is left.

## Main definitions

* `Http.declaredLength` : the body length that the bytes of a header block declare.
* `Http.Phase` : what reading waits for.
* `Http.receive` : the bytes of a request, `Http.ReadFault` why there may be none.
-/

namespace ScriptHost.Http

/-- The body length that the bytes of a header block declare; zero if they declare none. -/
def declaredLength (head : List UInt8) : Nat :=
  let lines := (Text.splitPair '\r' '\n' (Text.Utf8.decode head)).drop 1
  let named := (lines.filterMap (Text.splitOnce ':')).find? fun h ↦
    Text.sameIgnoringCase (Text.trim h.1) "content-length".toList
  (named.bind fun h ↦ Decimal.readNat lengthBound (Text.trim h.2)).getD 0

/-- What reading waits for: the blank line, of which the first `scanned` bytes hold no full one, or
a number of bytes. -/
inductive Phase where
  | head (scanned : Nat)
  | body (wanted : Nat)
deriving DecidableEq

namespace Phase

/-- With how many bytes reading stops. -/
def goal (limit : Nat) : Phase → Nat
  | head _ => limit
  | body wanted => min wanted limit

/-- What reading waits for when the buffer has grown.  The blank line may begin up to three bytes
before the new bytes. -/
def next (buffer : List UInt8) : Phase → Phase
  | body wanted => body wanted
  | head scanned =>
    let start := scanned - 3
    match headerEnd? (buffer.drop start) with
    | none => head buffer.length
    | some stop =>
      body (start + stop + 4 + declaredLength (buffer.take (start + stop)))

end Phase

/-- What was read, by how many reads, and what was left unread. -/
structure Received where
  buffer : List UInt8
  reads : Nat
  left : Connection

/-- Reads on.  A failed read is reported with the number of reads made. -/
def receiveFrom (limit : Nat) (phase : Phase) (buffer : List UInt8) (reads : Nat)
    (source : Connection) : Except Nat Received :=
  if phase.goal limit ≤ buffer.length then .ok ⟨buffer, reads, source⟩
  else
    match source with
    | [] => .ok ⟨buffer, reads + 1, []⟩
    | .reset :: _ => .error (reads + 1)
    | .bytes bs :: source =>
      if bs.isEmpty then .ok ⟨buffer, reads + 1, source⟩
      else
        let room := limit - buffer.length
        if bs.length ≤ room then
          receiveFrom limit (phase.next (buffer ++ bs)) (buffer ++ bs) (reads + 1) source
        else .ok ⟨buffer ++ bs.take room, reads + 1, .bytes (bs.drop room) :: source⟩

/-- The most bytes that a buffer may have. -/
def maxBufferBytes : Nat := (1 <<< 63) - 1

/-- Why a request was not read: its connection failed at the last of so many reads, or there is no
buffer of the size that was asked for. -/
inductive ReadFault where
  | reset (reads : Nat)
  | bufferTooLarge
deriving DecidableEq

/-- The bytes of one request, at most `limit` of them, for which there is a buffer from the
beginning. -/
def receive (limit : Nat) (source : Connection) : Except ReadFault Received :=
  if limit ≤ maxBufferBytes then (receiveFrom limit (.head 0) [] 0 source).mapError .reset
  else .error .bufferTooLarge

end ScriptHost.Http
