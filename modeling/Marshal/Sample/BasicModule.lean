import Marshal.Module
import Marshal.Sample.State

namespace Marshal.Sample

def logBasic (message : String) (fields : List LogField) : Code Unit :=
  Native.log ⟨.info, .basicModule, message, fields⟩

/-- Twice a number, as long as it fits the type. -/
def doubling (t : IntType) : NativeCode State [.fixed t] (.fixed t) := fun (n, _) =>
  match Fixed.ofInt? t (2 * n.val) with
  | some twice => ok twice
  | none => failWith s!"integer overflow: 2 * {n.val} does not fit {t.name}"

def doubled (name : String) (t : IntType) : FunctionBinding (Program State) :=
  FunctionBinding.ofNative name [.fixed t] (.fixed t) (doubling t)

def doubledComplex (name : String) (part : FloatType) : FunctionBinding (Program State) :=
  FunctionBinding.ofNative name [.complex part] (.complex part) fun ((re, im), _) =>
    let two := Binary.ofInt part.format 2
    ok (re.mul two, im.mul two)

def noted (name message : String) : FunctionBinding (Program State) :=
  FunctionBinding.ofNative name [] .unit fun _ => do
    logBasic message []
    ok ()

def basicFunctions : List (FunctionBinding (Program State)) :=
  [ { FunctionBinding.ofNative "FunctionWithArgs" [long, long, .text] .unit
        fun (a, b, text, _) => do
          logBasic "FunctionWithArgs" [.ofInt "arg1" a.val, .ofInt "arg2" b.val, ⟨"arg3", text⟩]
          ok ()
      with doc? := some "Takes two integers and a string; returns nothing." },
    noted "BasicFunction" "BasicFunction",
    { FunctionBinding.ofNative "BasicFunctionWithError" [long] long fun (n, _) =>
        if n.val = 0 then failWith "Invalid argument" else ok n
      with doc? := some "Returns its argument; fails when it is 0." },
    FunctionBinding.ofNative "FunctionReturnBool" [.bool] .bool fun (b, _) => ok b,
    noted "FunctionReturnNone" "FunctionReturnNone",
    doubled "FunctionReturnInt" .i64,
    doubled "FunctionReturnInt8" .i8,
    doubled "FunctionReturnInt16" .i16,
    doubled "FunctionReturnInt32" .i32,
    doubled "FunctionReturnUint" .u64,
    doubled "FunctionReturnUint8" .u8,
    doubled "FunctionReturnUint16" .u16,
    doubled "FunctionReturnUint32" .u32,
    FunctionBinding.ofNative "FunctionReturnIntList" [long] (.list long) fun (n, _) =>
      match Fixed.ofInt? .i64 (n.val + 1) with
      | some next => ok [n, next]
      | none => failWith "integer overflow",
    FunctionBinding.ofNative "FunctionReturnIntFloat" [long] (.list (.float .f64))
      fun (n, _) =>
        let x := Binary.ofInt .double n.val
        ok [x, x.mul (Binary.ofInt .double 2)],
    doubledComplex "FunctionReturnComplex64" .f32,
    doubledComplex "FunctionReturnComplex128" .f64,
    FunctionBinding.ofNative "FunctionReturnError" [long] .unit fun (n, _) => do
      logBasic "FunctionReturnError" [.ofInt "arg" n.val]
      failWith "Example error",
    let contains := FunctionBinding.ofNative "FunctionMapArgument"
      [.map .unordered .text long, .text] .bool fun (entries, key, _) =>
        ok (Entries.get? entries key).isSome
    { contains with params := Param.named contains.params ["map", "key"] },
    FunctionBinding.ofNative "FunctionListArgument" [.list long] (.int .usize)
      fun (items, _) => ok (Fixed.wrap .u64 items.length),
    FunctionBinding.ofNative "FunctionReturnBytes" [] .bytes fun _ =>
      ok "Hello world!".toUTF8.toList ]

def getting : NativeCode State [] long := fun _ => onExported fun n => ok n

def accumulating : NativeCode State [long] .unit := fun (d, _) => onExported fun n =>
  match Fixed.ofInt? .i64 (n.val + d.val) with
  | some sum => do
    Native.setReceiver (.exported sum)
    ok ()
  | none => failWith "integer overflow"

def getter : MethodBinding (Program State) := .ofNative "GetValue" exportedType [] long getting

def adder : MethodBinding (Program State) := .ofNative "Add" exportedType [long] .unit accumulating

def shown : Property (Program State) := .readOnly exportedType long (onExported fun n => pure n)

def exportedClass : ClassDef (Program State) where
  name := "ExportedType"
  doc? := some "Opaque native value with GetValue and Add."
  instanceType := exportedType
  methods := [(getter.name, getter), (adder.name, adder)]
  properties := [("Value", shown)]

def making : ConstructorCode State [long] := fun (n, _) => ok (.exported n)

def newExported (classId : Nat) : FunctionBinding (Program State) :=
  .ofConstructor "NewExportedType" classId exportedClass.name [long] making

/-- The class of numbers, known under `classId`, with the constructor that callers reach it by. -/
def exportedAt (classId : Nat) : NativeClass State := { classId, constructors := [newExported classId] }

def declareExported : Act State (NativeClass State) := do return exportedAt (← exportedClass.declare)

/-- What the module is built from, with its class known under `classId`. -/
def basicModule (config : Config) (classId : Nat) : ModuleDescription State where
  name := "testmodule"
  doc? := some "Functions exercising argument and return value marshalling."
  functions := basicFunctions
  classes := [exportedAt classId]
  config

def buildBasicModule (config : Config) : Act State (NativeModule State) := do
  (basicModule config (← exportedClass.declare)).build

end Marshal.Sample
