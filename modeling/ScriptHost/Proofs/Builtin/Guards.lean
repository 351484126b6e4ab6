import ScriptHost.Builtin.Standard
import ScriptHost.Proofs.Builtin.NoPanic

/-!
# The guards of the builtins

A builtin on the world checks what it was given before it takes an argument, asks for a buffer or
sets a variable.  Each of the standard ones but the pause is shown not to panic, whatever it is
given and whatever the world is like.

## Main results

* `Builtin.noPanic_setVariable`, `Builtin.noPanic_randomHex` : names, values and sizes are checked
  before the system sees them.
* `Builtin.noPanic_of_mem_standardActions` : all of them but the pause.
-/

namespace ScriptHost.Builtin

variable (args : List Value) (w : World)

/-! ### Printing, strings and numbers -/

@[simp]
theorem noPanic_print : NoPanic (print args) w fun _ _ ↦ True := by simp [print]

@[simp]
theorem noPanic_printLine : NoPanic (printLine args) w fun _ _ ↦ True := by simp [printLine]

@[simp]
theorem noPanic_isNil : NoPanic (isNil args) w fun _ _ ↦ True := True.intro

@[simp]
theorem noPanic_isString : NoPanic (isString args) w fun _ _ ↦ True := True.intro

@[simp]
theorem noPanic_isObject : NoPanic (isObject args) w fun _ _ ↦ True := True.intro

@[simp]
theorem noPanic_len : NoPanic (len args) w fun _ _ ↦ True :=
  noPanic_expect_one fun h ↦ by simp [h]

@[simp]
theorem noPanic_upper : NoPanic (upper args) w fun _ _ ↦ True :=
  noPanic_expect_one fun h ↦ by simp [h]

@[simp]
theorem noPanic_lower : NoPanic (lower args) w fun _ _ ↦ True :=
  noPanic_expect_one fun h ↦ by simp [h]

@[simp]
theorem noPanic_concat : NoPanic (concat args) w fun _ _ ↦ True :=
  noPanic_expect_two fun h₀ h₁ ↦ by simp [h₀, h₁]

@[simp]
theorem noPanic_textToNumber : NoPanic (textToNumber args) w fun _ _ ↦ True :=
  noPanic_expect_one fun h ↦ by
    simp only [noPanic_bind, noPanic_argument, h, true_and]
    split <;> exact True.intro

@[simp]
theorem noPanic_numberToText : NoPanic (numberToText args) w fun _ _ ↦ True :=
  noPanic_expect_one fun h ↦ by simp [h]

@[simp]
theorem noPanic_absolute : NoPanic (absolute args) w fun _ _ ↦ True :=
  noPanic_expect_one fun h ↦ by simp [h]

@[simp]
theorem noPanic_ofTwo (name : String) (f : Double → Double → Double) :
    NoPanic (ofTwo name f args) w fun _ _ ↦ True :=
  noPanic_expect_two fun h₀ h₁ ↦ by simp [h₀, h₁]

/-! ### Files and their names -/

theorem noPanic_consult {α : Type} (operation path : String)
    (f : Files.Tree → Except Files.Fault α) :
    NoPanic (consult operation path f) w fun _ _ ↦ True := by
  simp only [consult, noPanic_bind, noPanic_get]
  split <;> simp [logFault]

theorem noPanic_alter (operation path : String)
    (f : Files.Tree → Except Files.Fault Files.Tree) :
    NoPanic (alter operation path f) w fun _ _ ↦ True := by
  refine (noPanic_consult w operation path f).bind fun files? w ↦ ?_
  cases files? <;> simp

variable {args w}

theorem noPanic_withPath {name : String} {f : String → Action Value}
    (hf : ∀ path, NoPanic (f path) w fun _ _ ↦ True) :
    NoPanic (withPath name args f) w fun _ _ ↦ True := by
  unfold withPath
  split
  · exact hf _
  · simp

theorem noPanic_withPathAnd {name : String} {f : String → String → Action Value}
    (hf : ∀ path other, NoPanic (f path other) w fun _ _ ↦ True) :
    NoPanic (withPathAnd name args f) w fun _ _ ↦ True := by
  unfold withPathAnd
  split
  · exact hf _ _
  · simp

/-- What the files tell of a path is answered without a panic if every answer is. -/
theorem noPanic_tellOf {α : Type} {name operation : String}
    {f : Files.Tree → String → Except Files.Fault α} {answer : α → Action Value}
    (hanswer : ∀ a w, NoPanic (answer a) w fun _ _ ↦ True) :
    NoPanic (tellOf name operation f answer args) w fun _ _ ↦ True :=
  noPanic_expect_one fun h ↦ by
    simp only [noPanic_bind, noPanic_argument, h, noPanic_toText, true_and]
    refine fun path _ ↦ (noPanic_consult w _ path _).mono fun told? w _ ↦ ?_
    cases told? with
    | none => simp
    | some a => exact hanswer a w

variable (args w)

@[simp]
theorem noPanic_fileRead : NoPanic (fileRead args) w fun _ _ ↦ True :=
  noPanic_tellOf fun _ _ ↦ by simp

@[simp]
theorem noPanic_fileWrite : NoPanic (fileWrite args) w fun _ _ ↦ True :=
  noPanic_withPathAnd fun _ _ ↦ noPanic_alter w _ _ _

@[simp]
theorem noPanic_fileAppend : NoPanic (fileAppend args) w fun _ _ ↦ True :=
  noPanic_withPathAnd fun _ _ ↦ noPanic_alter w _ _ _

@[simp]
theorem noPanic_fileDelete : NoPanic (fileDelete args) w fun _ _ ↦ True :=
  noPanic_withPath fun _ ↦ noPanic_alter w _ _ _

@[simp]
theorem noPanic_fileExists : NoPanic (fileExists args) w fun _ _ ↦ True :=
  noPanic_withPath fun _ ↦ by simp

@[simp]
theorem noPanic_fileCopy : NoPanic (fileCopy args) w fun _ _ ↦ True :=
  noPanic_withPathAnd fun _ _ ↦ noPanic_alter w _ _ _

@[simp]
theorem noPanic_fileMove : NoPanic (fileMove args) w fun _ _ ↦ True :=
  noPanic_withPathAnd fun _ _ ↦ noPanic_alter w _ _ _

@[simp]
theorem noPanic_directoryMake : NoPanic (directoryMake args) w fun _ _ ↦ True :=
  noPanic_withPath fun path ↦ by
    simp only [noPanic_bind, noPanic_get, noPanic_modify]
    split <;> simp [logFault]

@[simp]
theorem noPanic_directoryRemove : NoPanic (directoryRemove args) w fun _ _ ↦ True :=
  noPanic_withPath fun _ ↦ noPanic_alter w _ _ _

@[simp]
theorem noPanic_isFile : NoPanic (isFile args) w fun _ _ ↦ True :=
  noPanic_withPath fun _ ↦ by simp

@[simp]
theorem noPanic_isDirectory : NoPanic (isDirectory args) w fun _ _ ↦ True :=
  noPanic_withPath fun _ ↦ by simp

@[simp]
theorem noPanic_directoryList : NoPanic (directoryList args) w fun _ _ ↦ True :=
  noPanic_tellOf fun _ _ ↦ by simp

@[simp]
theorem noPanic_fileSize : NoPanic (fileSize args) w fun _ _ ↦ True :=
  noPanic_tellOf fun _ _ ↦ by simp

@[simp]
theorem noPanic_fileTime : NoPanic (fileTime args) w fun _ _ ↦ True :=
  noPanic_tellOf fun _ _ ↦ by simp

@[simp]
theorem noPanic_onPath (name : String) (f : List Char → List Char) :
    NoPanic (onPath name f args) w fun _ _ ↦ True :=
  noPanic_expect_one fun h ↦ by simp [h]

@[simp]
theorem noPanic_pathJoin : NoPanic (pathJoin args) w fun _ _ ↦ True :=
  noPanic_expect_two fun h₀ h₁ ↦ by simp [h₀, h₁]

/-! ### Environment, time, randomness and secrets -/

@[simp]
theorem noPanic_currentDirectory : NoPanic (currentDirectory args) w fun _ _ ↦ True := by
  simp [currentDirectory]

@[simp]
theorem noPanic_platform : NoPanic (platform args) w fun _ _ ↦ True := True.intro

@[simp]
theorem noPanic_architecture : NoPanic (architecture args) w fun _ _ ↦ True := True.intro

@[simp]
theorem noPanic_getVariable : NoPanic (getVariable args) w fun _ _ ↦ True :=
  noPanic_expect_one fun h ↦ by simp [h]

/-- What passes the check of names and values is a variable that the system takes. -/
theorem isVariable_iff (name value : String) :
    isVariable name value = true ↔
      name ≠ "" ∧ '=' ∉ name.toList ∧ '\x00' ∉ name.toList ∧ '\x00' ∉ value.toList := by
  have hall (p : Char) (s : String) : s.toList.all (· != p) = true ↔ p ∉ s.toList := by
    simp [List.all_eq_true, List.forall_mem_ne']
  have hname : name.toList.all (fun c ↦ c != '=' && c != '\x00') = true ↔
      '=' ∉ name.toList ∧ '\x00' ∉ name.toList := by
    rw [← hall, ← hall, List.all_eq_true, List.all_eq_true, List.all_eq_true, ← forall₂_and]
    simp
  rw [isVariable, Bool.and_eq_true, Bool.and_eq_true, hname, hall, and_assoc, and_assoc]
  simp

/-- A variable is set only after its name and its value were checked. -/
@[simp]
theorem noPanic_setVariable : NoPanic (setVariable args) w fun _ _ ↦ True := by
  unfold setVariable
  split
  · split_ifs with h
    · simpa using (isVariable_iff _ _).1 h
    · simp
  · simp

/-- Up to the most that is given there is a buffer for the bytes and one for their text. -/
theorem noPanic_randomText {n : Nat} (hn : n ≤ maxTokenBytes) :
    NoPanic (randomText n) w fun _ _ ↦ True := by
  have hbytes : ¬Http.maxBufferBytes < n := Nat.not_lt.2 (Nat.le_trans hn (by decide))
  have htext : ¬Http.maxBufferBytes < n * 2 :=
    Nat.not_lt.2 (Nat.le_trans (Nat.mul_le_mul_right 2 hn) (by decide))
  rw [randomText, if_neg hbytes]
  simp only [noPanic_bind, noPanic_get]
  split
  · simp
  · simp [htext]

@[simp]
theorem noPanic_randomHex : NoPanic (randomHex args) w fun _ _ ↦ True := by
  have htext (n : Nat) (hn : n ≤ maxTokenBytes) (w : World) := noPanic_randomText w hn
  unfold randomHex
  split
  · simpa using htext _ (by decide) w
  · simpa using fun i _ ↦ htext _ (Nat.min_le_right i maxTokenBytes) w

@[simp]
theorem noPanic_time : NoPanic (time args) w fun _ _ ↦ True := by simp [time]

@[simp]
theorem noPanic_sameSecret : NoPanic (sameSecret args) w fun _ _ ↦ True := by
  unfold sameSecret
  split <;> simp

/-! ### JSON and objects -/

@[simp]
theorem noPanic_jsonParse : NoPanic (jsonParse args) w fun _ _ ↦ True :=
  noPanic_expect_one fun h ↦ by simp [h]

@[simp]
theorem noPanic_jsonParseReport : NoPanic (jsonParseReport args) w fun _ _ ↦ True :=
  noPanic_expect_one fun h ↦ by simp [h]

@[simp]
theorem noPanic_jsonCompact : NoPanic (jsonCompact args) w fun _ _ ↦ True := True.intro

@[simp]
theorem noPanic_jsonPretty : NoPanic (jsonPretty args) w fun _ _ ↦ True := True.intro

@[simp]
theorem noPanic_member (name : String) : NoPanic (member name args) w fun _ _ ↦ True :=
  noPanic_expect_two fun h₀ h₁ ↦ by simp [h₀, h₁]

@[simp]
theorem noPanic_jsonHas : NoPanic (jsonHas args) w fun _ _ ↦ True := by
  unfold jsonHas
  split
  · split <;> simp
  · simp

@[simp]
theorem noPanic_jsonLen : NoPanic (jsonLen args) w fun _ _ ↦ True := True.intro

@[simp]
theorem noPanic_jsonIndex : NoPanic (jsonIndex args) w fun _ _ ↦ True :=
  noPanic_expect_two fun h₀ h₁ ↦ by simp [h₀, h₁]

@[simp]
theorem noPanic_setMember : NoPanic (setMember args) w fun _ _ ↦ True := by
  unfold setMember
  split <;> simp

@[simp]
theorem noPanic_newObject : NoPanic (newObject args) w fun _ _ ↦ True := True.intro

@[simp]
theorem noPanic_newArray : NoPanic (newArray args) w fun _ _ ↦ True := True.intro

@[simp]
theorem noPanic_typeOf : NoPanic (typeOf args) w fun _ _ ↦ True := True.intro

@[simp]
theorem noPanic_arrayLen : NoPanic (arrayLen args) w fun _ _ ↦ True := True.intro

@[simp]
theorem noPanic_arraySet : NoPanic (arraySet args) w fun _ _ ↦ True := by
  unfold arraySet
  split <;> simp

@[simp]
theorem noPanic_arrayPush : NoPanic (arrayPush args) w fun _ _ ↦ True := by
  unfold arrayPush
  split <;> simp

@[simp]
theorem noPanic_pathGet : NoPanic (pathGet args) w fun _ _ ↦ True :=
  noPanic_expect_two fun h₀ h₁ ↦ by simp [h₀, h₁]

@[simp]
theorem noPanic_allocObject : NoPanic (allocObject args) w fun _ _ ↦ True := by
  unfold allocObject
  split
  · simp
  · exact (noPanic_mapM (fun v w ↦ by simp) args w).bind fun names w ↦ by simp

@[simp]
theorem noPanic_lookupIn (name : String) (find : List Char → List Char → Option (List Char)) :
    NoPanic (lookupIn name find args) w fun _ _ ↦ True :=
  noPanic_expect_two fun h₀ h₁ ↦ by simp [h₀, h₁]

/-- No standard builtin on the world panics but the pause. -/
theorem noPanic_of_mem_standardActions : ∀ f ∈ standardActions, f.1 ≠ "sleep" →
    ∀ args w, NoPanic (f.2 args) w fun _ _ ↦ True := by
  simp [standardActions, larger, smaller, pathBase, pathDirectory, pathExtension, queryGet,
    cookieGet]

end ScriptHost.Builtin
