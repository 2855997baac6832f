import Marshal.Array.Index
import Marshal.Module
import Marshal.Sample.State

namespace Marshal

/-- The type, number of axes and shape of an array. -/
def ArrayView.summary (view : ArrayView) : String :=
  s!"type={view.dtype.name} dims={view.layout.ndim} shape={Text.bracketedNats view.shape}"

def ArrayView.lines (view : ArrayView) (scalars : List Scalar) : List String :=
  ((Index.all view.shape).zip scalars).map fun (index, scalar) =>
    s!"{Text.bracketedNats index} = {scalar.text}"

def Scalar.ofValues (type : ElementType) (values : List Value) : List Scalar :=
  values.filterMap fun value =>
    (type.decode value).toOption.map fun element => ⟨type, element⟩

namespace Sample

def printElements (view : ArrayView) : Code (Except Failure Unit) := do
  match ← Native.request (.array (.scalars view)) with
  | .error e => return .error (.error e)
  | .ok reply =>
    let values := reply.asSeq?.getD []
    let scalars := (view.dtype.element?.map fun type => Scalar.ofValues type values).getD []
    (view.lines scalars).forM fun line => Native.print (line ++ "\n")
    ok ()

/-- Adds an integer to every element.  The integer is taken into the element type first, and sums of
integers wrap around. -/
def addInteger (view : ArrayView) (n : Long) : Code (Except Failure Unit) :=
  match view.dtype.element? with
  | none => pure (.error (.error (.unsupportedDType view.dtype.name)))
  | some type => do
    let done ← Native.mapElements view type fun x => type.add x (type.ofInt n.val)
    return done.mapError .error

private def documented (f : FunctionBinding (Program State)) (params : List String)
    (doc : String) : FunctionBinding (Program State) :=
  { f with params := Param.named f.params params, doc? := some doc }

def adding : NativeCode State [.array, long] .unit := fun (view, n, _) => addInteger view n

def arrayFunctions : List (FunctionBinding (Program State)) :=
  [ documented
      (FunctionBinding.ofNative "PrintDescr" [.array] .unit fun (view, _) => do
        Native.print (view.summary ++ "\n")
        ok ())
      ["obj"] "Print dtype, dimension count and shape.",
    documented
      (FunctionBinding.ofNative "PrintValues" [.array] .unit fun (view, _) =>
        printElements view)
      ["obj"] "Print every element with its index.",
    documented
      (FunctionBinding.ofNative "AddIntValue" [.array, long] .unit adding)
      ["obj", "v"] "Add v to every element of obj, in place." ]

def buildArrayModule (config : Config) : Act State (NativeModule State) :=
  ModuleDescription.build
    { name := "testmodulenumpy"
      doc? := some "Functions reading and mutating NumPy arrays in place."
      functions := arrayFunctions
      config }

end Sample

end Marshal
