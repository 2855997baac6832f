import Mathlib
import Marshal.Program.Run

/-!
# Moments of a run

A run passes through moments: native code is about to take a step, or has ended.  A moment is the world
at that point together with what is held there, by the code that runs and by all the code that waits for
it, and with the request that is about to be made, if the step is one.

`Program.moments` lists the moments of a run in the order of time, those of native code that is entered
on the way included.  It follows the structure of the program as `Program.execute` does and leaves to it
what each step means.
-/

namespace Marshal

variable {σ α : Type}

/-- What can be held: the instance in a slot, or a buffer. -/
inductive Place
  | cell (slot : Nat)
  | buffer (index : Nat)
  deriving DecidableEq

/-- Something that is held while code runs, and whether the code may change it. -/
structure Hold where
  place : Place
  writable : Bool
  deriving DecidableEq

structure Moment (σ : Type) where
  world : World σ
  /-- What is held, the innermost first. -/
  holds : List Hold
  asked? : Option (Request σ (Program σ)) := none

/-- Native code that is about to be entered: the world in which it starts, and what is held for it. -/
structure Opening (σ : Type) where
  world : World σ
  hold? : Option Hold
  frames : List Frame
  program : Program σ

namespace Handle

variable (handle : Handle)

/-- The instance, and the world in which it is held, if it can be. -/
def entered? (writable : Bool) (w : World σ) : Option (σ × World σ) :=
  match (handle.borrowed writable w).1 with
  | .returned (access, state) => some (state, handle.setAccess (fun _ => access) w)
  | _ => none

/-- The world in which the body of `withInstance` starts, if it does. -/
def enteredAs? [NativeState σ] (type : String) (w : World σ) : Option (World σ) := do
  let (state, w) ← handle.entered? true w
  if NativeState.typeName state = type then some w else none

end Handle

/-- The native code that a prepared call enters, if nothing about the instance stands in the way. -/
def NativeCall.opening? (w : World σ) : NativeCall σ → Option (Opening σ)
  | .function program _ => some { world := w, hold? := none, frames := [], program }
  | .member handle writable program _ => do
    let (state, w) ← handle.entered? writable w
    let program ← (program state).toOption
    return { world := w, hold? := some ⟨.cell handle.slot, writable⟩,
             frames := [.instance handle writable], program }

/-- The native code that a request enters, if it gets that far. -/
def Request.opening? [NativeState σ] (request : Request σ (Program σ)) (w : World σ) :
    Option (Opening σ) := do
  let prepare ← request.prepare?
  match prepare w with
  | (.returned native, w) => native.opening? w
  | _ => none

namespace ArrayView

variable (view : ArrayView)

/-- The world in which the bytes of a view are held. -/
def held (writable : Bool) (w : World σ) : World σ :=
  view.setAccess (fun access => (access.enter? writable).getD access) w

/-- The world in which the body of `withHeld` starts, if it does. -/
def entered? (writable : Bool) (w : World σ) : Option (World σ) :=
  match view.requireContiguous, (view.borrowed writable w).1 with
  | .ok (), .returned bytes =>
    match (view.packedBytes bytes (view.held writable w)).1 with
    | .returned _ => some (view.held writable w)
    | _ => none
  | _, _ => none

/-- The world in which the elements of a view are replaced, if they are. -/
def replacing? (type : ElementType) (w : World σ) : Option (World σ) :=
  match view.checkElement type, view.layout.hasOverlap, (view.writable w).1 with
  | .ok (), false, .returned _ => some (view.held true w)
  | _, _, _ => none

end ArrayView

/-- The moments after an action that has ended: those of what goes on, or a last one. -/
def Moment.continued (holds : List Hold) (ended : Outcome α × World σ)
    (next : α → World σ → List (Moment σ)) : List (Moment σ) :=
  match ended with
  | (.returned a, w) => next a w
  | (_, w) => [{ world := w, holds }]

/-- The moments while elements are replaced one after the other; `moments` gives those of the code that
`f` runs. -/
def ArrayView.replaceMoments (view : ArrayView) (type : ElementType) (holds : List Hold)
    (f : type.Carrier → Act σ type.Carrier) (moments : type.Carrier → World σ → List (Moment σ)) :
    List (List Nat) → World σ → List (Moment σ)
  | [], w => [{ world := w, holds }]
  | index :: rest, w =>
    { world := w, holds } ::
      Moment.continued holds (view.elementNow type index w) fun (offset, old) w =>
        moments old w ++ Moment.continued holds (f old w) fun new w =>
          replaceMoments view type holds f moments rest
            (view.writeBytes offset (type.write new) w).2

namespace Program

variable [NativeState σ]

/-- The moments of a program, given those of the native code that it enters. -/
def executeMoments (deeper : Runner σ)
    (inner : List Hold → List Frame → Program σ → World σ → List (Moment σ)) (holds : List Hold)
    (frames : List Frame) : Program σ → World σ → List (Moment σ)
  | .done _, w | .panic _, w => [{ world := w, holds }]
  | .look level next, w =>
    { world := w, holds } ::
      executeMoments deeper inner holds frames
        (next (frames[level]?.bind fun frame => frame.content? w)) w
  | .put level content next, w =>
    { world := w, holds } ::
      executeMoments deeper inner holds frames next
        (match frames[level]? with
          | some frame => frame.store content w
          | none => w)
  | .request asked next, w =>
    { world := w, holds, asked? := some asked } ::
      ((asked.opening? w).elim [] (fun o => inner (o.hold?.toList ++ holds) o.frames o.program o.world) ++
        Moment.continued holds ((asked.serve deeper).attempt w) fun reply w =>
          executeMoments deeper inner holds frames (next reply) w)
  | .withInstance handle type body next, w =>
    let within := .instance handle true :: frames
    { world := w, holds } ::
      ((handle.enteredAs? type w).elim []
          (fun w => executeMoments deeper inner (⟨.cell handle.slot, true⟩ :: holds) within body w) ++
        Moment.continued holds ((handle.withInstance type (execute deeper within body)).attempt w)
          fun reply w => executeMoments deeper inner holds frames (next reply) w)
  | .withBytes view writable body next, w =>
    let within := Frame.ofView view writable :: frames
    { world := w, holds } ::
      ((view.entered? writable w).elim []
          (fun w => executeMoments deeper inner (⟨.buffer view.buffer, writable⟩ :: holds) within body w) ++
        Moment.continued holds
          ((view.withHeld writable fun _ => execute deeper within body).attempt w)
          fun reply w => executeMoments deeper inner holds frames (next reply) w)
  | .mapElements view type body next, w =>
    let act (old : type.Carrier) : Act σ type.Carrier := do
      return elementOr type old (← execute deeper frames (body old))
    let holding := ⟨.buffer view.buffer, true⟩ :: holds
    { world := w, holds } ::
      ((view.replacing? type w).elim []
          (view.replaceMoments type holding act
            (fun old w => executeMoments deeper inner holding frames (body old) w)
            (Index.all view.shape)) ++
        Moment.continued holds ((view.mapElements type act).attempt w)
          fun reply w => executeMoments deeper inner holds frames (next reply) w)

/-- The moments of a run with room for `stack` levels of native code entered from native code. -/
def moments : Nat → List Hold → List Frame → Program σ → World σ → List (Moment σ)
  | 0 => fun holds _ _ w => [{ world := w, holds }]
  | stack + 1 => executeMoments (run stack) (moments stack)

/-- The world after programs that a caller runs one after the other, however each of them ends. -/
def session (stack : Nat) : List (Program σ) → World σ → World σ
  | [], w => w
  | program :: rest, w => session stack rest (run stack [] program w).2

/-- The moments of programs that a caller runs one after the other. -/
def sessionMoments (stack : Nat) : List (Program σ) → World σ → List (Moment σ)
  | [], w => [{ world := w, holds := [] }]
  | program :: rest, w =>
    moments stack [] [] program w ++ sessionMoments stack rest (run stack [] program w).2

end Program

end Marshal
