import ScriptHost.Text.Hex
import ScriptHost.Text.Pieces

/-!
# Addresses of hosts

The two families of addresses and the texts that denote them without a look at any table of names.

An address of four bytes is written as one to four numbers with points between them, each of them
decimal, octal or hexadecimal.  An address of eight groups is written in hexadecimal with colons
between the groups; one run of zeros may be left out, the last two groups may be four decimal bytes,
and a zone may follow a percent sign.

## Main definitions

* `Network.Address` : an address of either family.
* `Network.Address.ofNumbers?`, `Network.Address.ofGroups?`, `Network.Address.ofBrackets?` : the
  written forms.
* `Network.Address.read?` : any of them.
-/

namespace ScriptHost.Network

/-- The address of a host: four bytes, or eight groups and the zone that they are meant in, zero if
none is given. -/
inductive Address where
  | bytes (number : UInt32)
  | groups (groups : List UInt16) (zone : UInt32)
deriving DecidableEq

namespace Address

/-! ### Numbers -/

/-- A number in a base up to sixteen, which has at least one digit. -/
def readBase (base : Nat) (s : List Char) : Option Nat := do
  let ds ← s.mapM fun c ↦ (Text.Hex.value? c).filter (· < base)
  if ds.isEmpty then none else some (ds.foldl (fun n d ↦ base * n + d) 0)

/-- A number that tells its base: hexadecimal after `0x`, octal after any other zero in front. -/
def readRadix : List Char → Option Nat
  | '0' :: 'x' :: s => readBase 16 s
  | '0' :: 'X' :: s => readBase 16 s
  | '0' :: s => readBase 8 ('0' :: s)
  | s => readBase 10 s

/-! ### Four bytes -/

/-- One to four numbers with points between them.  All but the last are bytes; the last one fills
the bytes that are left. -/
def ofNumbers? (s : List Char) : Option Address := do
  let numbers ← (s.splitOn '.').mapM readRadix
  let front := numbers.dropLast
  let last := numbers.getLastD 0
  let left := 8 * (4 - front.length)
  if front.length < 4 && front.all (· < 256) && last < 1 <<< left then
    some (.bytes (UInt32.ofNat ((front.foldl (fun n b ↦ 256 * n + b) 0) <<< left + last)))
  else none

/-- A decimal byte without needless zeros. -/
def readByte (s : List Char) : Option Nat :=
  if s.head? == some '0' && 1 < s.length then none else (readBase 10 s).filter (· < 256)

/-- The two groups that four decimal bytes with points between them make up. -/
def readQuad (s : List Char) : Option (List UInt16) := do
  match ← (s.splitOn '.').mapM readByte with
  | [a, b, c, d] => some [UInt16.ofNat (256 * a + b), UInt16.ofNat (256 * c + d)]
  | _ => none

/-! ### Eight groups -/

/-- A group: one to four hexadecimal digits. -/
def readGroup (s : List Char) : Option UInt16 :=
  if s.length ≤ 4 then (readBase 16 s).map UInt16.ofNat else none

/-- Groups with colons between them, maybe none. -/
def readGroups (s : List Char) : Option (List UInt16) :=
  if s.isEmpty then some [] else (s.splitOn ':').mapM readGroup

/-- Groups with colons between them, the last two of which may be four bytes. -/
def readLastGroups (s : List Char) : Option (List UInt16) := do
  let pieces := s.splitOn ':'
  match pieces.getLast? with
  | some last =>
    if last.contains '.' then
      return (← pieces.dropLast.mapM readGroup) ++ (← readQuad last)
    else readGroups s
  | none => none

/-- Eight groups, where a double colon stands for one or more groups of zeros. -/
def readEight (s : List Char) : Option (List UInt16) := do
  match Text.splitPair ':' ':' s with
  | [all] =>
    let groups ← readLastGroups all
    if groups.length = 8 then some groups else none
  | [front, back] =>
    let front ← readGroups front
    let back ← readLastGroups back
    let missing := 8 - (front.length + back.length)
    if missing = 0 then none else some (front ++ List.replicate missing 0 ++ back)
  | _ => none

/-- Whether eight groups are valid on one link only, so that a zone has to tell which. -/
def isLinkLocal (groups : List UInt16) : Bool :=
  groups.head?.any fun g ↦ g &&& 0xFFC0 == 0xFE80

/-- Whether eight groups denote all hosts of a kind. -/
def isMulticast (groups : List UInt16) : Bool := groups.head?.any fun g ↦ g &&& 0xFF00 == 0xFF00

/-- Whether eight groups denote all hosts of a kind on one link. -/
def isLinkMulticast (groups : List UInt16) : Bool :=
  groups.head?.any fun g ↦ g &&& 0xFF0F == 0xFF02

/-- Whether eight groups wrap four bytes. -/
def isMapped (groups : List UInt16) : Bool := groups.take 6 == [0, 0, 0, 0, 0, 0xFFFF]

/-- A zone given by its number. -/
def readZone (s : List Char) : Option UInt32 :=
  (readBase 10 s).bind fun n ↦ if n < 1 <<< 32 then some (UInt32.ofNat n) else none

/-- The zone of the interface that every host has to itself. -/
def ownZone : UInt32 := 1

/-- The zone that a text names for the groups.  The host's own interface, `lo`, has a name where a
zone is needed. -/
def readZoneOf (groups : List UInt16) (s : List Char) : Option UInt32 :=
  if (isLinkLocal groups || isLinkMulticast groups) && s == ['l', 'o'] then some ownZone
  else readZone s

/-- Eight groups and maybe a zone behind a percent sign, read by `zone?`. -/
def readZoned (zone? : List UInt16 → List Char → Option UInt32) (s : List Char) :
    Option Address := do
  match Text.splitOnce '%' s with
  | none => return .groups (← readEight s) 0
  | some (written, zone) =>
    let groups ← readEight written
    return .groups groups (← zone? groups zone)

/-- Eight groups and maybe a zone. -/
def ofGroups? (s : List Char) : Option Address := readZoned readZoneOf s

/-- Eight groups and maybe the number of a zone, between square brackets. -/
def ofBrackets? : List Char → Option Address
  | '[' :: s =>
    match s.reverse with
    | ']' :: inner => readZoned (fun _ ↦ readZone) inner.reverse
    | _ => none
  | _ => none

/-- The address that a text denotes by itself. -/
def read? (s : List Char) : Option Address := ofBrackets? s <|> ofNumbers? s <|> ofGroups? s

end Address

example : Address.read? "127.1".toList = some (.bytes 0x7F000001) := by cbv

example : Address.read? "0x7f.0.0.1".toList = some (.bytes 0x7F000001) := by cbv

example : Address.read? "::ffff:1.2.3.4".toList =
    some (.groups [0, 0, 0, 0, 0, 0xFFFF, 0x102, 0x304] 0) := by cbv

end ScriptHost.Network
