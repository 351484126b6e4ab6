import ScriptHost.Builtin.Filing
import ScriptHost.Builtin.Objects
import ScriptHost.Builtin.Registry
import ScriptHost.Builtin.Serving
import ScriptHost.Builtin.Surroundings

/-!
# The standard builtins

## Main definitions

* `Builtin` : a native operation.
* `Builtin.standard` : the standard ones in their order.
* `Builtins.tryCall`, `Builtins.call` : calling one by name.
-/

namespace ScriptHost

/-- A native operation. -/
abbrev Builtin := List Value → Native Value

/-- A table of native operations. -/
abbrev Builtins := Registry Builtin

namespace Builtin

/-- An operation that does not need the tables of the host. -/
def ofAction (f : List Value → Action Value) : Builtin := fun args ↦ f args

/-- The standard operations on the world. -/
def standardActions : List (String × (List Value → Action Value)) :=
  [("print", print), ("println", printLine),
    ("len", len), ("upper", upper), ("lower", lower), ("concat", concat),
    ("str_to_num", textToNumber), ("num_to_str", numberToText),
    ("abs", absolute), ("max", larger), ("min", smaller),
    ("is_nil", isNil), ("is_str", isString), ("is_obj", isObject),
    ("sfs_read", fileRead), ("sfs_write", fileWrite), ("sfs_append", fileAppend),
    ("sfs_delete", fileDelete), ("sfs_exists", fileExists), ("sfs_copy", fileCopy),
    ("sfs_move", fileMove), ("sfs_mkdir", directoryMake), ("sfs_rmdir", directoryRemove),
    ("sfs_is_file", isFile), ("sfs_is_dir", isDirectory), ("sfs_listdir", directoryList),
    ("sfs_size", fileSize), ("sfs_mtime", fileTime),
    ("path_basename", pathBase), ("path_dirname", pathDirectory),
    ("path_extname", pathExtension), ("path_join", pathJoin),
    ("os_cwd", currentDirectory), ("os_platform", platform), ("os_arch", architecture),
    ("os_getenv", getVariable), ("os_setenv", setVariable), ("os_random_hex", randomHex),
    ("time", time), ("sleep", sleep),
    ("auth_const_time_eq", sameSecret), ("auth_random_hex", randomHex),
    ("json_parse", jsonParse), ("json_parse_ex", jsonParseReport),
    ("json_stringify", jsonCompact), ("json_stringify_pretty", jsonPretty),
    ("json_get", member "json_get"), ("json_has", jsonHas), ("json_len", jsonLen),
    ("json_index", jsonIndex), ("json_set", setMember),
    ("sjson_new_object", newObject), ("sjson_new_array", newArray), ("sjson_type", typeOf),
    ("sjson_arr_len", arrayLen), ("sjson_arr_get", jsonIndex), ("sjson_arr_set", arraySet),
    ("sjson_arr_push", arrayPush), ("sjson_path_get", pathGet),
    ("s_get_member", member "s_get_member"), ("s_set_member", setMember),
    ("s_alloc_obj", allocObject),
    ("blaze_qs_get", queryGet), ("blaze_cookie_get", cookieGet)]

/-- The standard operations that need the tables of the host. -/
def standardNatives : List (String × Builtin) :=
  [("blaze_run", serve),
    ("thread_spawn", threadSpawn), ("thread_join", threadJoin), ("thread_detach", threadDetach)]

/-- The standard operations in the order of their registration. -/
def standard : List (String × Builtin) :=
  standardActions.map (fun f ↦ (f.1, ofAction f.2)) ++ standardNatives

end Builtin

namespace Builtins

/-- The table of the standard operations. -/
def standard : Builtins := Registry.empty.registerAll Builtin.standard

/-- Calls an operation by name. -/
def tryCall (builtins : Builtins) (name : String) (args : List Value) : Native Value :=
  match builtins.get? name with
  | some f => f args
  | none => throw (.failed ("Unknown builtin: " ++ name))

/-- Calls an operation by name; a failure is logged, and its value is nil. -/
def call (builtins : Builtins) (name : String) (args : List Value) : Native Value := fun host ↦
  match builtins.tryCall name args host with
  | .ok v host => .ok v host
  | .error .panicked host => .error .panicked host
  | .error (.failed message) host =>
    (do
      Action.log .debug .builtins (name ++ ": " ++ message)
      return Value.nil : Native Value) host

end Builtins

end ScriptHost
