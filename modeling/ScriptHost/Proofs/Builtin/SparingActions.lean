import ScriptHost.Builtin.Standard
import ScriptHost.Proofs.Builtin.Sparing

/-!
# Builtins that leave objects as they are

All of the standard builtins on the world are sparing but the ones that write a member of an object.
What they do with the heap is to look at it, or to add to it what was parsed or computed.

## Main definitions

* `Builtin.memberWriters` : the builtins that write a member.

## Main results

* `Heap.extends_realize`, `Heap.extends_report` : trees and reports are added to the heap.
* `Builtin.sparing_of_mem_standardActions` : the builtins on the world.
-/

namespace ScriptHost

/-! ### What is added to the heap -/

namespace Heap

variable (heap : Heap)

mutual

/-- The objects made for a tree are further ones. -/
theorem extends_realize (heap : Heap) : ∀ t : Tree, heap.Extends (heap.realize t).2
  | .nil => .refl heap
  | .number _ => .refl heap
  | .boolean _ => .refl heap
  | .string _ => .refl heap
  | .node _ ms => (extends_realizeMembers heap ms).trans (extends_alloc _ _)

theorem extends_realizeMembers (heap : Heap) :
    ∀ ms : List (String × Tree), heap.Extends (heap.realizeMembers ms).2
  | [] => .refl heap
  | (_, t) :: ms => (extends_realize heap t).trans (extends_realizeMembers _ ms)

end

theorem extends_parseOrNil (text : String) : heap.Extends (heap.parseOrNil text).2 := by
  unfold parseOrNil
  split
  · exact heap.extends_realize _
  · exact .refl heap

theorem extends_report (ok : Bool) (v : Value) (error : String) :
    heap.Extends (heap.report ok v error).2 := heap.extends_alloc _

theorem extends_parseReport (text : String) : heap.Extends (heap.parseReport text).2 := by
  unfold parseReport
  split
  · exact (heap.extends_realize _).trans (extends_report _ _ _ _)
  · exact heap.extends_report _ _ _

theorem extends_pathReport (root : Value) (path : String) :
    heap.Extends (heap.pathReport root path).2 := by
  unfold pathReport
  split
  · exact heap.extends_report _ _ _
  · split <;> exact heap.extends_report _ _ _

end Heap

namespace Builtin

variable (args : List Value)

/-! ### Printing, strings and numbers -/

@[simp]
theorem sparing_print : Sparing (print args) :=
  sparing_get_bind (fun _ ↦ sparing_bind (Action.sparing_print _) fun _ ↦ sparing_pure _)
    fun _ _ ↦ rfl

@[simp]
theorem sparing_printLine : Sparing (printLine args) :=
  sparing_get_bind (fun _ ↦ sparing_bind (Action.sparing_print _) fun _ ↦ sparing_pure _)
    fun _ _ ↦ rfl

@[simp]
theorem sparing_isNil : Sparing (isNil args) := sparing_pure _

@[simp]
theorem sparing_isString : Sparing (isString args) := sparing_pure _

@[simp]
theorem sparing_isObject : Sparing (isObject args) := sparing_pure _

@[simp]
theorem sparing_len : Sparing (len args) :=
  sparing_one fun _ ↦ Action.sparing_inspect _

@[simp]
theorem sparing_upper : Sparing (upper args) :=
  sparing_one fun _ ↦ sparing_pure _

@[simp]
theorem sparing_lower : Sparing (lower args) :=
  sparing_one fun _ ↦ sparing_pure _

@[simp]
theorem sparing_concat : Sparing (concat args) :=
  sparing_twoTexts fun _ _ ↦ sparing_pure _

@[simp]
theorem sparing_textToNumber : Sparing (textToNumber args) :=
  sparing_one fun v ↦ by cases v <;> exact sparing_pure _

@[simp]
theorem sparing_numberToText : Sparing (numberToText args) :=
  sparing_one fun v ↦ sparing_bind (sparing_toNumber v) fun _ ↦ sparing_pure _

@[simp]
theorem sparing_absolute : Sparing (absolute args) :=
  sparing_one fun v ↦ sparing_bind (sparing_toNumber v) fun _ ↦ sparing_pure _

@[simp]
theorem sparing_ofTwo (name : String) (f : Double → Double → Double) :
    Sparing (ofTwo name f args) :=
  sparing_two fun u v ↦ sparing_bind (sparing_toNumber u) fun _ ↦
    sparing_bind (sparing_toNumber v) fun _ ↦ sparing_pure _

/-! ### Files and their names -/

theorem sparing_consult {α : Type} (operation path : String)
    (f : Files.Tree → Except Files.Fault α) :
    Sparing (consult operation path f) :=
  sparing_get_bind
    (fun w ↦ by
      split
      · exact sparing_pure _
      · exact sparing_bind (Action.sparing_log _ _ _) fun _ ↦ sparing_pure _)
    fun _ _ ↦ rfl

theorem sparing_alter (operation path : String) (f : Files.Tree → Except Files.Fault Files.Tree) :
    Sparing (alter operation path f) := by
  refine sparing_bind (sparing_consult operation path f) fun files? ↦ ?_
  cases files? with
  | none => exact sparing_pure _
  | some files =>
    exact sparing_bind (sparing_modify (fun _ _ ↦ rfl) fun _ ↦ rfl) fun _ ↦ sparing_pure _

variable {args} in
theorem sparing_withPath {name : String} {f : String → Action Value}
    (hf : ∀ path, Sparing (f path)) :
    Sparing (withPath name args f) := by
  unfold withPath
  split
  · exact hf _
  · exact sparing_rejected name

variable {args} in
theorem sparing_withPathAnd {name : String} {f : String → String → Action Value}
    (hf : ∀ path other, Sparing (f path other)) :
    Sparing (withPathAnd name args f) := by
  unfold withPathAnd
  split
  · exact hf _ _
  · exact sparing_rejected name

/-- An operation that tells of a path is sparing if its answers are. -/
theorem sparing_tellOf {α : Type} {name operation : String}
    {f : Files.Tree → String → Except Files.Fault α} {answer : α → Action Value}
    (hanswer : ∀ a, Sparing (answer a)) : Sparing (tellOf name operation f answer args) :=
  sparing_oneText fun path ↦ sparing_bind (sparing_consult _ path _) fun told? ↦ by
    cases told? with
    | none => exact sparing_pure _
    | some a => exact hanswer a

@[simp]
theorem sparing_fileRead : Sparing (fileRead args) := sparing_tellOf args fun _ ↦ sparing_pure _

@[simp]
theorem sparing_fileWrite : Sparing (fileWrite args) :=
  sparing_withPathAnd fun _ _ ↦ sparing_alter _ _ _

@[simp]
theorem sparing_fileAppend : Sparing (fileAppend args) :=
  sparing_withPathAnd fun _ _ ↦ sparing_alter _ _ _

@[simp]
theorem sparing_fileDelete : Sparing (fileDelete args) :=
  sparing_withPath fun _ ↦ sparing_alter _ _ _

@[simp]
theorem sparing_fileExists : Sparing (fileExists args) :=
  sparing_withPath fun _ ↦ sparing_look fun _ _ ↦ rfl

@[simp]
theorem sparing_fileCopy : Sparing (fileCopy args) :=
  sparing_withPathAnd fun _ _ ↦ sparing_alter _ _ _

@[simp]
theorem sparing_fileMove : Sparing (fileMove args) :=
  sparing_withPathAnd fun _ _ ↦ sparing_alter _ _ _

@[simp]
theorem sparing_directoryMake : Sparing (directoryMake args) := by
  refine sparing_withPath fun path ↦ sparing_get_bind (fun w ↦ ?_) fun _ _ ↦ rfl
  dsimp only
  refine sparing_bind (sparing_modify (fun _ _ ↦ rfl) fun _ ↦ rfl) fun _ ↦ ?_
  split
  · exact sparing_pure _
  · exact sparing_bind (Action.sparing_log _ _ _) fun _ ↦ sparing_pure _

@[simp]
theorem sparing_directoryRemove : Sparing (directoryRemove args) :=
  sparing_withPath fun _ ↦ sparing_alter _ _ _

@[simp]
theorem sparing_isFile : Sparing (isFile args) :=
  sparing_withPath fun _ ↦ sparing_look fun _ _ ↦ rfl

@[simp]
theorem sparing_isDirectory : Sparing (isDirectory args) :=
  sparing_withPath fun _ ↦ sparing_look fun _ _ ↦ rfl

@[simp]
theorem sparing_directoryList : Sparing (directoryList args) :=
  sparing_tellOf args fun _ ↦ Action.sparing_make _

@[simp]
theorem sparing_fileSize : Sparing (fileSize args) := sparing_tellOf args fun _ ↦ sparing_pure _

@[simp]
theorem sparing_fileTime : Sparing (fileTime args) :=
  sparing_tellOf args fun _ ↦ sparing_look fun _ _ ↦ rfl

@[simp]
theorem sparing_onPath (name : String) (f : List Char → List Char) :
    Sparing (onPath name f args) :=
  sparing_oneText fun _ ↦ sparing_pure _

@[simp]
theorem sparing_pathJoin : Sparing (pathJoin args) :=
  sparing_twoTexts fun _ _ ↦ sparing_pure _

/-! ### Environment, time, randomness and secrets -/

@[simp]
theorem sparing_currentDirectory : Sparing (currentDirectory args) :=
  sparing_look fun _ _ ↦ rfl

@[simp]
theorem sparing_platform : Sparing (platform args) := sparing_pure _

@[simp]
theorem sparing_architecture : Sparing (architecture args) :=
  sparing_pure _

@[simp]
theorem sparing_getVariable : Sparing (getVariable args) :=
  sparing_oneText fun _ ↦ sparing_look fun _ _ ↦ rfl

@[simp]
theorem sparing_setVariable : Sparing (setVariable args) := by
  unfold setVariable
  split
  · split
    · exact sparing_bind (Action.sparing_setVariable _ _) fun _ ↦ sparing_pure _
    · exact sparing_pure _
  · exact sparing_rejected _

theorem sparing_randomText (n : Nat) : Sparing (randomText n) := by
  unfold randomText
  dsimp only
  split
  on_goal 1 => refine sparing_bind Action.sparing_panic fun _ ↦ ?_
  -- What follows the first check is the same in both cases.
  all_goals
    refine sparing_get_bind (fun w ↦ ?_) fun _ _ ↦ rfl
    split
    · exact Action.sparing_fail _
    · refine sparing_bind (sparing_modify (fun _ _ ↦ rfl) fun _ ↦ rfl) fun _ ↦ ?_
      split
      · exact sparing_bind Action.sparing_panic fun _ ↦ sparing_pure _
      · exact sparing_pure _

@[simp]
theorem sparing_randomHex : Sparing (randomHex args) := by
  have htext (n : Nat) :
      Sparing (do return .string (String.ofList (← randomText n)) : Action Value) :=
    sparing_bind (sparing_randomText n) fun _ ↦ sparing_pure _
  unfold randomHex
  split
  · exact sparing_bind (sparing_pure _) htext
  · exact sparing_bind (sparing_map (sparing_toIndex _)) htext

@[simp]
theorem sparing_time : Sparing (time args) := sparing_look fun _ _ ↦ rfl

@[simp]
theorem sparing_sleep : Sparing (sleep args) :=
  sparing_one fun v ↦ sparing_bind (sparing_toNumber v) fun ms ↦ by
    split
    · dsimp only
      split
      · exact sparing_pure _
      · exact Action.sparing_panic
    · exact sparing_pure _

@[simp]
theorem sparing_sameSecret : Sparing (sameSecret args) := by
  unfold sameSecret
  split
  · exact sparing_pure _
  · exact sparing_rejected _

/-! ### JSON and objects -/

@[simp]
theorem sparing_jsonParse : Sparing (jsonParse args) :=
  sparing_oneText fun text ↦ Action.sparing_onHeap fun heap ↦ heap.extends_parseOrNil text

@[simp]
theorem sparing_jsonParseReport : Sparing (jsonParseReport args) :=
  sparing_oneText fun text ↦ Action.sparing_onHeap fun heap ↦ heap.extends_parseReport text

@[simp]
theorem sparing_jsonCompact : Sparing (jsonCompact args) := Action.sparing_inspect _

@[simp]
theorem sparing_jsonPretty : Sparing (jsonPretty args) := Action.sparing_inspect _

@[simp]
theorem sparing_jsonLen : Sparing (jsonLen args) := Action.sparing_inspect _

@[simp]
theorem sparing_member (name : String) : Sparing (member name args) :=
  sparing_one fun _ ↦ sparing_bind (sparing_argument 1) fun u ↦
    sparing_bind (sparing_toText u) fun _ ↦ Action.sparing_inspect _

@[simp]
theorem sparing_jsonHas : Sparing (jsonHas args) := by
  unfold jsonHas
  split
  · split
    · exact Action.sparing_inspect _
    · exact sparing_pure _
  · exact sparing_rejected _

@[simp]
theorem sparing_jsonIndex : Sparing (jsonIndex args) :=
  sparing_one fun _ ↦ sparing_bind (sparing_argument 1) fun u ↦
    sparing_bind (sparing_toIndex u) fun _ ↦ Action.sparing_inspect _

@[simp]
theorem sparing_newObject : Sparing (newObject args) := Action.sparing_make _

@[simp]
theorem sparing_newArray : Sparing (newArray args) := Action.sparing_make _

@[simp]
theorem sparing_typeOf : Sparing (typeOf args) := Action.sparing_inspect _

@[simp]
theorem sparing_arrayLen : Sparing (arrayLen args) := Action.sparing_inspect _

@[simp]
theorem sparing_pathGet : Sparing (pathGet args) :=
  sparing_one fun v ↦ sparing_bind (sparing_argument 1) fun u ↦
    sparing_bind (sparing_toText u) fun path ↦
      Action.sparing_onHeap fun heap ↦ heap.extends_pathReport v path

@[simp]
theorem sparing_allocObject : Sparing (allocObject args) := by
  unfold allocObject
  split
  · exact sparing_bind (Action.sparing_inspect _) fun _ ↦ Action.sparing_make _
  · exact sparing_bind (sparing_mapM sparing_toText args) fun _ ↦ Action.sparing_make _

@[simp]
theorem sparing_lookupIn (name : String) (find : List Char → List Char → Option (List Char)) :
    Sparing (lookupIn name find args) :=
  sparing_twoTexts fun _ _ ↦ sparing_pure _

/-! ### All of them -/

/-- The builtins that write a member of an object. -/
def memberWriters : List String := ["json_set", "s_set_member", "sjson_arr_set", "sjson_arr_push"]

/-- The builtins on the world leave objects as they are but for those that write a member. -/
theorem sparing_of_mem_standardActions : ∀ f ∈ standardActions, f.1 ∉ memberWriters →
    ∀ args, Sparing (f.2 args) := by
  simp [standardActions, memberWriters, larger, smaller, pathBase, pathDirectory, pathExtension,
    queryGet, cookieGet]

end Builtin

end ScriptHost
