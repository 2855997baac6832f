import Mathlib
import Marshal.Proofs.Module.Nesting
import Marshal.Sample.BasicModule

namespace Marshal

open Act hiding pure bind

namespace Sample

theorem nodup_exportedNames (config : Config) (classId : Nat) :
    (basicModule config classId).exportedNames.Nodup := by
  have apart : ∀ style : NamingStyle,
      ((basicModule {} 0).exports.map fun f => style.apply f.name).Nodup := by
    intro style
    cases style with
    | asDeclared => decide +kernel
    | snakeCase => decide +kernel
  exact apart config.naming

variable (config : Config) (w : World State)

/-- The module is built, exports its functions under their exported names, and its class has its settings. -/
theorem buildBasicModule_returned :
    ∃ m built, buildBasicModule config w = (.returned m, built) ∧
      (∀ f ∈ (basicModule config w.classes.length).exports,
        m.function? (config.naming.apply f.name) =
          some ((basicModule config w.classes.length).exported f)) ∧
      built.class? w.classes.length = some (exportedClass.configure config) := by
  let d := basicModule config w.classes.length
  let declared : World State := { w with classes := w.classes ++ [exportedClass] }
  have found : declared.class? w.classes.length = some exportedClass := List.getElem?_concat_length
  have classes : (d.classNames declared).Nodup := by
    have named : declared.className? w.classes.length = some "ExportedType" := by
      rw [World.className?, found]
      rfl
    have single : d.classNames declared = ["ExportedType"] := by
      rw [ModuleDescription.classNames, show d.classes = [_] from rfl,
        ModuleDescription.classTable_cons_of_some named]
      rfl
    rw [single]
    exact List.nodup_singleton _
  have functions := nodup_exportedNames config w.classes.length
  refine ⟨_, _, ModuleDescription.build_of_distinct classes functions, ?_, ?_⟩
  · exact fun f member => ModuleDescription.function?_built functions member
  · exact (ModuleDescription.class?_built classes (List.mem_singleton_self _) found).1

section Doubling

variable {t : IntType} {f : FunctionBinding (Program State)} {n : Int}

theorem program_doubling_of_fits {x : Fixed t} (fits : t.contains (2 * x.val) = true) :
    (doubling t).program (x, ()) = .done (.ok (.int (2 * x.val) (some t))) := by
  simp only [NativeCode.program, doubling, Fixed.ofInt?, fits, ↓reduceDIte]
  rfl

theorem program_doubling_of_not {x : Fixed t} (large : t.contains (2 * x.val) = false) :
    (doubling t).program (x, ()) = .done (.error (.failed
      (.native "" s!"integer overflow: 2 * {x.val} does not fit {t.name}"))) := by
  simp only [NativeCode.program, doubling, Fixed.ofInt?, large, Bool.false_eq_true, ↓reduceDIte]
  rfl

/-- An integer in the range of a parameter reaches native code as it is. -/
theorem invoke_of_contains {body : Args [.fixed t] → Program State} (wraps : f.Wraps body) (x : Fixed t)
    (tag : IntTag) (stack : Nat) (w : World State) :
    f.invoke (Program.run (stack + 1)) [.int x.val tag] [] w =
      f.entering stack body (x, ()) (w.noted (f.invoking [.int x.val tag] [])) := by
  have fits : (NativeInt.fixed t).type.contains x.val = true := x.inRange
  have bound : bindArguments f.name f.params [.int x.val tag] [] = .ok [.int x.val tag] :=
    bindArguments_of_all wraps.shape.2.symm
  have shallow : ∀ v ∈ [Value.int x.val tag], v.nesting ≤ f.maxDepth := by simp [Value.nesting]
  have converted : Args.Converted [.fixed t] [.int x.val tag] (x, ()) :=
    ⟨_, _, rfl, NativeInt.decode_of_contains fits, rfl⟩
  exact (f.invoke_entersOnce wraps stack w _ _).entered (.passed bound shallow rfl converted)

theorem invoke_doubling_of_fits (wraps : f.Wraps (doubling t).program) {x : Fixed t}
    (fits : t.contains (2 * x.val) = true) (tag : IntTag) (stack : Nat) (w : World State) :
    f.invoke (Program.run (stack + 1)) [.int x.val tag] [] w =
      (.returned (.int (2 * x.val) (some t)), w.noted (f.invoking [.int x.val tag] [])) := by
  rw [invoke_of_contains wraps, FunctionBinding.entering, program_doubling_of_fits fits, Program.run_done,
    Conclusion.called_of_returned _ _ _ (pure_apply _)]
  rfl

theorem invoke_doubling_of_not (wraps : f.Wraps (doubling t).program) {x : Fixed t}
    (large : t.contains (2 * x.val) = false) (tag : IntTag) (stack : Nat) (w : World State) :
    f.invoke (Program.run (stack + 1)) [.int x.val tag] [] w =
      (.failed (.native f.name s!"integer overflow: 2 * {x.val} does not fit {t.name}"),
        w.noted (f.invoking [.int x.val tag] [])) := by
  rw [invoke_of_contains wraps, FunctionBinding.entering, program_doubling_of_not large, Program.run_done,
    Conclusion.called_of_returned _ _ _ (pure_apply _)]
  rfl

/-- An integer out of the range of a parameter is refused, whatever the native code. -/
theorem invoke_of_not_contains {body : Args [.fixed t] → Program State} (wraps : f.Wraps body) {param : Param}
    (params : f.params = [param]) (outside : t.contains n = false) (tag : IntTag) (stack : Nat)
    (w : World State) :
    f.invoke (Program.run (stack + 1)) [.int n tag] [] w =
      (.failed (.numericOverflow (toString n) t.name param.name), w.noted (f.invoking [.int n tag] [])) := by
  have misfits : (NativeInt.fixed t).type.contains n = false := outside
  have located : (Error.overflow n t.name).within param.name =
      .numericOverflow (toString n) t.name param.name := by
    simp [Error.overflow, Error.within, Error.joinLocation]
  have bound : bindArguments f.name f.params [.int n tag] [] = .ok [.int n tag] :=
    bindArguments_of_all wraps.shape.2.symm
  have shallow : ∀ v ∈ [Value.int n tag], v.nesting ≤ f.maxDepth := by simp [Value.nesting]
  have declared : f.params[0]? = some param := by rw [params]; rfl
  rw [← located]
  exact (f.invoke_entersOnce wraps stack w _ _).refused
    (.unconverted bound shallow rfl declared rfl rfl (NativeInt.decode_of_not misfits) (by simp))

end Doubling

/-- The doubling functions and their types. -/
def doublings : List (String × IntType) :=
  [("FunctionReturnInt", .i64), ("FunctionReturnInt8", .i8), ("FunctionReturnInt16", .i16),
    ("FunctionReturnInt32", .i32), ("FunctionReturnUint", .u64), ("FunctionReturnUint8", .u8),
    ("FunctionReturnUint16", .u16), ("FunctionReturnUint32", .u32)]

theorem doubled_mem {name : String} {t : IntType} (member : (name, t) ∈ doublings) :
    doubled name t ∈ basicFunctions := by
  have listed : doublings.map (fun entry => doubled entry.1 entry.2) = (basicFunctions.drop 5).take 8 := rfl
  have there : doubled name t ∈ doublings.map fun entry => doubled entry.1 entry.2 :=
    List.mem_map.mpr ⟨_, member, rfl⟩
  rw [listed] at there
  exact List.mem_of_mem_drop (List.mem_of_mem_take there)

/-- A doubling function of the module gives twice an integer just when that and its double are in the range of
the type.  If the double is not, native code fails; if the integer itself is not, the call fails at the
parameter, also with any other native code in the place of the function's own. -/
theorem doubling_exact (stack : Nat) : ∃ m built, buildBasicModule config w = (.returned m, built) ∧
    ∀ {name : String} {t : IntType}, (name, t) ∈ doublings →
    ∃ (f : FunctionBinding (Program State)) (param : Param),
      m.function? (config.naming.apply name) = some f ∧ f.params = [param] ∧ param.name = "arg1" ∧
      f.entry = withArgs [.fixed t] (doubling t).program ∧
      ∀ (n : Int) (tag : IntTag) (now : World State),
        let call := m.invoke (Program.run (stack + 1)) (config.naming.apply name) [.int n tag] [] now
        let noted := (now.noted (m.calling (config.naming.apply name))).noted (f.invoking [.int n tag] [])
        ((∃ result after, call = (.returned (.int (2 * n) result), after)) ↔
          t.contains n = true ∧ t.contains (2 * n) = true) ∧
        (t.contains n = true → t.contains (2 * n) = true →
          call = (.returned (.int (2 * n) (some t)), noted)) ∧
        (t.contains n = true → t.contains (2 * n) = false →
          call = (.failed (.native (config.naming.apply name)
            s!"integer overflow: 2 * {n} does not fit {t.name}"), noted)) ∧
        (t.contains n = false →
          call = (.failed (.numericOverflow (toString n) t.name param.name), noted) ∧
          ∀ body : Args [.fixed t] → Program State,
            { f with entry := withArgs [.fixed t] body }.invoke (Program.run (stack + 1)) [.int n tag] []
              (now.noted (m.calling (config.naming.apply name))) =
                (.failed (.numericOverflow (toString n) t.name param.name), noted)) := by
  obtain ⟨m, built, builds, functions, _⟩ := buildBasicModule_returned config w
  refine ⟨m, built, builds, fun {name t} member => ?_⟩
  have found := functions (doubled name t) (List.mem_append_left _ (doubled_mem member))
  have parameter : config.naming.apply "arg1" = "arg1" := by cases config.naming <;> decide
  -- Exporting a function does not look at its native code, so other code in its place is exported like it.
  have exported (body : Args [.fixed t] → Program State) :=
    ((FunctionBinding.Wraps.native name (.fixed t) (fun args _ => body args) rfl).rename
      config.naming).settings none config.catchPanics config.maxDepth
  refine ⟨_, { name := config.naming.apply "arg1", type := (Ty.fixed t).native }, found, rfl, parameter, rfl,
    fun n tag now => ?_⟩
  have wraps := exported (doubling t).program
  have calls := NativeModule.invoke_of_found found (Program.run (stack + 1)) [.int n tag] [] now
  have returned (inRange : t.contains n = true) (fits : t.contains (2 * n) = true) :=
    calls.trans (invoke_doubling_of_fits (x := ⟨n, inRange⟩) wraps fits tag stack _)
  have overflowed (inRange : t.contains n = true) (large : t.contains (2 * n) = false) :=
    calls.trans (invoke_doubling_of_not (x := ⟨n, inRange⟩) wraps large tag stack _)
  have refused (outside : t.contains n = false) (body : Args [.fixed t] → Program State) :=
    invoke_of_not_contains (exported body) rfl outside tag stack
      (now.noted (m.calling (config.naming.apply name)))
  refine ⟨⟨?_, fun ⟨inRange, fits⟩ => ⟨_, _, returned inRange fits⟩⟩, returned, overflowed,
    fun outside => ⟨calls.trans (refused outside _), refused outside⟩⟩
  rintro ⟨result, after, ended⟩
  cases inRange : t.contains n with
  | false => cases (calls.trans (refused inRange _)).symm.trans ended
  | true =>
      cases fits : t.contains (2 * n) with
      | false => cases (overflowed inRange fits).symm.trans ended
      | true => exact ⟨rfl, rfl⟩

theorem doubling_exact_bytes :
    ∃ m built, buildBasicModule { naming := .snakeCase } {} = (.returned m, built) ∧
    (m.invoke (Program.run 1) "function_return_int8" [.int (-64) none] [] built).1 =
      .returned (.int (-128) (some .i8)) ∧
    (m.invoke (Program.run 1) "function_return_int8" [.int 64 none] [] built).1 =
      .failed (.native "function_return_int8" "integer overflow: 2 * 64 does not fit i8") ∧
    (m.invoke (Program.run 1) "function_return_int8" [.int 128 none] [] built).1 =
      .failed (.numericOverflow "128" "i8" "arg1") := by
  obtain ⟨m, built, builds, each⟩ := doubling_exact { naming := .snakeCase } {} 0
  have member : ("FunctionReturnInt8", IntType.i8) ∈ doublings := by decide
  have written : NamingStyle.snakeCase.apply "FunctionReturnInt8" = "function_return_int8" := by decide
  obtain ⟨f, param, _, _, located, _, calls⟩ := each member
  simp only [written, located] at calls
  obtain ⟨_, returned, _⟩ := calls (-64) none built
  obtain ⟨_, _, overflowed, _⟩ := calls 64 none built
  obtain ⟨_, _, _, refused⟩ := calls 128 none built
  exact ⟨m, built, builds, congrArg Prod.fst (returned rfl rfl), congrArg Prod.fst (overflowed rfl rfl),
    congrArg Prod.fst (refused rfl).1⟩

end Sample

end Marshal
