import Marshal.World.Array
import Marshal.World.Handle

/-!
# Running native programs

`Program.execute` gives each step of a program its meaning in the world.  It follows the structure of
the program; only where a request enters other native code does it turn to a `Runner` for that code.
`Program.run` ties the knot: code entered from code runs with one level of stack less, and without
any stack left the outcome is `exhausted`.
-/

namespace Marshal

variable {σ : Type}

namespace Frame

def content? (frame : Frame) (w : World σ) : Option (Content σ) :=
  match frame with
  | .instance handle _ => ((w.cell? handle).bind Cell.state?).map .instance
  | .bytes buffer start length _ =>
    w.buffers[buffer]?.map fun b => .bytes ((b.bytes.drop start).take length)

/-- The world after a change of what a frame shows, where the frame allows it. -/
def store (frame : Frame) (content : Content σ) (w : World σ) : World σ :=
  match frame, content with
  | .instance handle true, .instance state =>
    w.setCell handle fun cell => { cell with state? := cell.state?.map fun _ => state }
  | .bytes buffer start length true, .bytes fresh =>
    if fresh.length = length then
      w.setBuffer buffer fun b => { b with bytes := overwrite b.bytes start fresh }
    else w
  | _, _ => w

def ofView (view : ArrayView) (writable : Bool) : Frame :=
  .bytes view.buffer view.layout.offset view.layout.nbytes writable

end Frame

variable [NativeState σ]

namespace Request

/-- The native code that a request leads to, if it leads to any. -/
def prepare? : Request σ (Program σ) → Option (Act σ (NativeCall σ))
  | .call f positional keywords => some (f.prepare positional keywords)
  | .invoke handle method positional keywords =>
    some (handle.prepareInvoke method positional keywords)
  | .getAttr handle name => some (handle.prepareGet name)
  | .setAttr handle name value => some (handle.prepareSet name value)
  | _ => none

def serve (run : Runner σ) : Request σ (Program σ) → Act σ Value
  | .log event => do
    Act.log event
    return .none
  | .print text => do
    Act.print text
    return .none
  | .create classId state => do return .object (← Handle.create classId state)
  | .call f positional keywords => f.invoke run positional keywords
  | .invoke handle method positional keywords => handle.invoke run method positional keywords
  | .getAttr handle name => handle.getAttr run name
  | .setAttr handle name value => do (← handle.prepareSet name value).enter run
  | .retain handle => do
    handle.retain
    return .none
  | .release handle => do return .bool (← handle.release)
  | .defineMethod classId m => do
    ClassDef.define classId m
    return .none
  | .array request => request.serve

end Request

namespace Program

/-- The element that a body gives in place of another one. -/
def elementOr (type : ElementType) (old : type.Carrier) : Result → type.Carrier
  | .ok value => (type.decode value).toOption.getD old
  | .error _ => old

/-- Runs a program on its frames, the innermost first. -/
def execute (deeper : Runner σ) (frames : List Frame) : Program σ → Act σ Result
  | .done result => pure result
  | .panic payload => Act.panic payload
  | .look level next => do
    let content ← Act.read fun w => frames[level]?.bind fun frame => frame.content? w
    execute deeper frames (next content)
  | .put level content next => do
    Act.modify fun w =>
      match frames[level]? with
      | some frame => frame.store content w
      | none => w
    execute deeper frames next
  | .request asked next => do
    let reply ← (asked.serve deeper).attempt
    execute deeper frames (next reply)
  | .withInstance handle type body next => do
    let act := execute deeper (.instance handle true :: frames) body
    let reply ← (handle.withInstance type act).attempt
    execute deeper frames (next reply)
  | .withBytes view writable body next => do
    let act := execute deeper (Frame.ofView view writable :: frames) body
    let reply ← (view.withHeld writable fun _ => act).attempt
    execute deeper frames (next reply)
  | .mapElements view type body next => do
    let act (old : type.Carrier) : Act σ type.Carrier := do
      return elementOr type old (← execute deeper frames (body old))
    let reply ← (view.mapElements type act).attempt
    execute deeper frames (next reply)

/-- Runs a program with room for `stack` levels of native code entered from native code. -/
def run : Nat → Runner σ
  | 0 => fun _ _ => Act.exhaust
  | stack + 1 => execute (run stack)

end Program

end Marshal
