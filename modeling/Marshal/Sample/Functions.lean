import Marshal.Sample.State
import Marshal.Ty.Reader

namespace Marshal.Sample

/-- The errors that one sample function passes on, by their names. -/
def passedError? : String → Option Error
  | "layout" => some (.bufferLayout "not contiguous")
  | "native" => some (.native "inner" "boom")
  | "anonymous" => some (.native "" "boom")
  | "type" => some (.mismatch "left" "right")
  | "overflow" => some (.numericOverflow "300" "u8" "")
  | "arity" => some (.arity "inner" "wrong")
  | "encoding" => some (.encoding "not UTF-8")
  | "config" => some (.config "unset")
  | "freed" => some (.useAfterFree "Ghost" 0)
  | _ => none

def peek (handle : Handle) : Code (Except Failure Long) := do
  let seen ← Native.withInstance handle accountType <| onAccount fun a =>
    return .int a.balance.val none
  match seen with
  | .ok (.int n _) => ok (Fixed.wrap .i64 n)
  | .ok _ => ok (Long.zero)
  | .error e => return .error (.error e)

def mapArray (view : ArrayView) (type : ElementType) (f : type.Carrier → type.Carrier) :
    Code (Except Failure Unit) := do
  return (← Native.mapElements view type f).mapError .error

def typed? (code name : String) : Option (FunctionBinding (Program State)) :=
  let function (params : List Ty) (result : Ty) (code : NativeCode State params result) :
      Option (FunctionBinding (Program State)) :=
    some (FunctionBinding.ofNative name params result code)
  match code with
  | "noop" => function [] .unit fun _ => ok ()
  | "seven" => function [] long fun _ => ok (Fixed.wrap .i64 7)
  | "double" => function [long] long fun (n, _) =>
      match Fixed.ofInt? .i64 (2 * n.val) with
      | some twice => ok twice
      | none => failWith "integer overflow"
  | "pair" => function [long, long] long fun (a, b, _) => ok (a + b)
  | "concat3" => function [.text, .text, .text] .text fun (a, b, c, _) =>
      ok (a ++ b ++ c)
  | "mixed4" => function [.fixed .i8, .float .f32, .bool, .bytes] (.list .any)
      fun (a, b, c, d, _) => ok [(Ty.fixed .i8).encode a, (Ty.float .f32).encode b,
        Ty.bool.encode c, Ty.bytes.encode d]
  | "mixed5" =>
    let pair := Ty.pair (.fixed .i32) .text
    let small := Ty.option (.fixed .u16)
    function [.list (.fixed .u8), pair, small, .complex .f64, .text] (.list .any)
      fun (a, b, c, d, e, _) => ok [(Ty.list (.fixed .u8)).encode a, pair.encode b,
        small.encode c, (Ty.complex .f64).encode d, Ty.text.encode e]
  | "sum6" => function [long, long, long, long, long, long] long
      fun (a, b, c, d, e, f, _) => ok (Long.sum [a, b, c, d, e, f])
  | "opt_add" => function [long, .option long] long fun (a, b, _) =>
      ok (a + (b.getD (Fixed.wrap .i64 100)))
  | "fail" => function [] .unit fun _ => failWith "Example error"
  | "fail_with" | "fail_string" => function [.text] long fun (m, _) => failWith m
  | "bridge_err" => function [.text] .unit fun (m, _) =>
      match passedError? m with
      | some e => pure (.error (.error e))
      | none => ok ()
  | "panic_static" => function [long] long fun (n, _) =>
      if 0 < n.val then Native.panic (.text "boom") else ok n
  | "panic_text" => function [.text] long fun (m, _) => Native.panic (.text m)
  | "panic_other" => function [] long fun _ => Native.panic .other
  | "total" => function [.list (.map .unordered .text long)] long fun (maps, _) =>
      ok (Long.sum (maps.flatMap fun entries => entries.map Prod.snd))
  | "count" => function [.list (.list long)] (.int .usize) fun (items, _) =>
      ok (Fixed.wrap .u64 items.length)
  | "add_to_all" => function [.array, .fixed .i32] .unit fun (view, n, _) =>
      mapArray view (.int .i32) ((ElementType.int .i32).add n)
  | "peek" => function [.object] long fun (handle, _) => peek handle
  | _ => none

/-- The function of one parameter that gives back its argument. -/
def identity (t : Ty) (name : String) : FunctionBinding (Program State) :=
  FunctionBinding.ofNative name [t] t fun (x, _) => ok x

def rawEntry? : String → Option (List Value → Program State)
  | "raw:echo" => some fun args => .done (.ok (args.headD .none))
  | "raw:list" => some fun args => .done (.ok (.seq args))
  | "raw:arg_error" => some fun args =>
      let index := match args.head? with
        | some (.int n _) => (n % Size.bound).toNat
        | _ => 0
      .done (.error (.argument index (.mismatch "left" "right")))
  | _ => none

/-- A function by the name of its code; the type of an identity follows a colon. -/
def function? (code name : String) : Option (FunctionBinding (Program State)) :=
  match code.toList with
  | 'i' :: 'd' :: ':' :: typeName =>
    (Ty.parse? (String.ofList typeName)).map fun t => identity t name
  | _ => typed? code name

end Marshal.Sample
