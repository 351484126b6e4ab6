/-!
# Files, directories and devices

## Main definitions

* `Files.Entry` : a file, a directory of named entries, or a device.
* `Files.Entry.at?`, `Files.Entry.change` : what stands at the end of some names.
-/

namespace ScriptHost.Files

/-- A file with its bytes, a directory with its entries, or a device, which forgets what is written
to it or is full, and has nothing to read. -/
inductive Entry where
  | file (bytes : ByteArray)
  | directory (entries : List (String × Entry))
  | device (full : Bool)

namespace Entry

/-- Whether the entry is a directory. -/
def isDirectory : Entry → Bool
  | directory _ => true
  | _ => false

/-- Whether the entry is a file. -/
def isFile : Entry → Bool
  | file _ => true
  | _ => false

/-- The entries of a directory. -/
def entries : Entry → List (String × Entry)
  | directory es => es
  | _ => []

/-- The entry below this one at the end of some names. -/
def at? (e : Entry) : List String → Option Entry
  | [] => some e
  | name :: names => (e.entries.lookup name).bind (·.at? names)

/-- Changes the entry at the end of some names.  The change answers none to remove it. -/
def change (f : Option Entry → Option Entry) (e : Entry) : List String → Entry
  | [] => (f (some e)).getD e
  | [name] =>
    let others := e.entries.filter (·.1 != name)
    match f (e.entries.lookup name) with
    | some new => directory (others ++ [(name, new)])
    | none => directory others
  | name :: names =>
    directory (e.entries.map fun m ↦ if m.1 = name then (m.1, m.2.change f names) else m)
termination_by names => names.length

end Entry

end ScriptHost.Files
