import Mathlib
import Marshal.Proofs.Call.Screening
import Marshal.Proofs.World.Mutation
import Marshal.Sample.ArrayModule

namespace Marshal

open Act hiding pure bind

namespace Fixed

variable {t : IntType}

/-- The element after an integer was added to it. -/
def plus (n : Int) (x : Fixed t) : Fixed t := wrap t (x.val + n)

theorem plus_val (n : Int) (x : Fixed t) : (x.plus n).val % 2 ^ t.bits = (x.val + n) % 2 ^ t.bits :=
  IntType.wrap_emod t _

/-- Adding two integers one after the other is adding their sum, also where that wraps around. -/
theorem plus_comp_plus (n m : Int) :
    plus m ∘ plus n = (plus (IntType.i64.wrap (n + m)) : Fixed t → Fixed t) := by
  funext x
  refine wrap_congr ?_
  have wide : (2 : Int) ^ t.bits ∣ 2 ^ IntType.i64.bits := by cases t <;> decide
  have sum : IntType.i64.wrap (n + m) % 2 ^ t.bits = (n + m) % 2 ^ t.bits := by
    rw [← Int.emod_emod_of_dvd _ wide, IntType.wrap_emod, Int.emod_emod_of_dvd _ wide]
  rw [Int.add_emod, plus_val, ← Int.add_emod, Int.add_assoc, Int.add_emod x.val (n + m), ← sum,
    ← Int.add_emod]

end Fixed

namespace Sample

variable {σ : Type} {t : IntType} {view : ArrayView} {buffer : Buffer} {w : World State}

theorem adding_wraps {f : FunctionBinding (Program State)} (member : f ∈ arrayFunctions)
    (named : f.name = "AddIntValue") : f.Wraps adding.program := by
  let native : FunctionBinding (Program State) := .ofNative "AddIntValue" [.array, long] .unit adding
  have wraps : native.Wraps adding.program := .native _ _ adding rfl
  have labelled : native.withParams ["obj", "v"] {} =
      (.returned { native with params := Param.named native.params ["obj", "v"] }, {}) := rfl
  simp only [arrayFunctions, List.mem_cons, List.not_mem_nil, or_false] at member
  rcases member with rfl | rfl | rfl
  · exact absurd named (by decide)
  · exact absurd named (by decide)
  · exact (wraps.withParams labelled).settings (some "Add v to every element of obj, in place.") true
      defaultMaxDepth

theorem elementOr_encode (old x : Fixed t) :
    Program.elementOr (.int t) old (.ok ((ElementType.int t).encode x)) = x := by
  have back : (ElementType.int t).decode ((ElementType.int t).encode x) = .ok x := by
    have inRange : (NativeInt.fixed t).type.contains x.val = true := x.inRange
    exact NativeInt.decode_of_contains inRange
  rw [Program.elementOr, back]
  rfl

/-- Native code that replaces integer elements goes on once they are replaced. -/
theorem run_mapElements (typed : view.dtype = .number (.int t)) (mutable : view.Mutable w buffer)
    (stack : Nat) (f : Fixed t → Fixed t) (next : Except Error Unit → Program State) :
    Program.run (stack + 1) [] (Native.mapElements view (.int t) f next) w =
      Program.run (stack + 1) [] (next (.ok ())) (w.mutated view.buffer
        (view.layout.replaced (.int t) f (Index.all view.shape) buffer.bytes) [view.mutating]) := by
  let each (old : Fixed t) : Act State (Fixed t) := do
    return Program.elementOr (.int t) old
      (← Program.run (stack + 1) [] (.done (.ok ((ElementType.int t).encode (f old)))))
  have silent : each = @ArrayView.noting State (.int t) f fun _ => [] := by
    funext old w
    simp only [each, Program.run_done, pure_bind, elementOr_encode]
    rfl
  have replaced : view.mapElements (.int t) each w = (.returned (), w.mutated view.buffer
      (view.layout.replaced (.int t) f (Index.all view.shape) buffer.bytes) [view.mutating]) := by
    rw [silent, ArrayView.mapElements_noting typed mutable]
    simp
  exact bind_of_returned (attempt_of_returned replaced)

theorem run_adding (typed : view.dtype = .number (.int t)) (mutable : view.Mutable w buffer) (stack : Nat)
    (n : Long) :
    Program.run (stack + 1) [] (adding.program (view, n, ())) w =
      (.returned (.ok .none), w.mutated view.buffer
        (view.layout.replaced (.int t) (Fixed.plus n.val) (Index.all view.shape) buffer.bytes)
        [view.mutating]) := by
  have sum : (fun x : Fixed t => (ElementType.int t).add x ((ElementType.int t).ofInt n.val)) =
      Fixed.plus n.val := funext fun x => Fixed.add_wrap x _
  simp only [adding, NativeCode.program, addInteger, typed, DType.element?, sum]
  exact run_mapElements typed mutable stack _ _

/-- What a call of the function that adds leaves behind. -/
theorem invoke_adding {f : FunctionBinding (Program State)} (wraps : f.Wraps adding.program)
    (typed : view.dtype = .number (.int t)) (mutable : view.Mutable w buffer) (stack : Nat) {n : Int}
    (inRange : IntType.i64.contains n = true) (tag : IntTag) :
    f.invoke (Program.run (stack + 1)) [.array view, .int n tag] [] w =
      (.returned .none, w.mutated view.buffer
        (view.layout.replaced (.int t) (Fixed.plus n) (Index.all view.shape) buffer.bytes)
        [view.mutating, f.invoking [.array view, .int n tag] []]) := by
  have bound : bindArguments f.name f.params [.array view, .int n tag] [] =
      .ok [.array view, .int n tag] := bindArguments_of_all wraps.shape.2.symm
  have fits : (NativeInt.fixed .i64).type.contains n = true := inRange
  have converted : Args.Converted [.array, long] [.array view, .int n tag] (view, ⟨n, inRange⟩, ()) :=
    ⟨_, _, rfl, rfl, _, _, rfl, NativeInt.decode_of_contains fits, rfl⟩
  have shallow : ∀ v ∈ [Value.array view, .int n tag], v.nesting ≤ f.maxDepth := by
    simp [Value.nesting]
  have entered := (FunctionBinding.invoke_entersOnce wraps stack w _ _).entered
    (.passed bound shallow rfl converted)
  have noted : view.Mutable (w.noted (f.invoking [.array view, .int n tag] [])) buffer :=
    mutable.of_buffers rfl
  have ran := run_adding typed noted stack ⟨n, inRange⟩
  exact entered.trans (Conclusion.called_of_returned f.name f.params f.catchPanics ran)

end Sample

/-- What replacing the elements of a view in place comes to: the function is called once for each index, each
element becomes what it gives, and no byte besides them changes. -/
structure ArrayView.MapsOnce {σ : Type} (view : ArrayView) (type : ElementType) (buffer : Buffer)
    (w : World σ) : Prop where
  distinct : (Index.all view.shape).Nodup
  complete : ∀ index, index ∈ Index.all view.shape ↔ Index.Within index view.shape
  mapped : ∀ (f : type.Carrier → type.Carrier) (calls : type.Carrier → List Event), ∃ bytes,
    view.layout.Replaces type f buffer.bytes bytes ∧
    (∀ index, Index.Within index view.shape →
      view.layout.valueAt type bytes index = f (view.layout.valueAt type buffer.bytes index)) ∧
    view.mapElements type (ArrayView.noting f calls) w =
      (.returned (), w.mutated view.buffer bytes
        (view.mutating :: ((Index.all view.shape).map fun index =>
          calls (view.layout.valueAt type buffer.bytes index)).reverse.flatten))

theorem ArrayView.Mutable.mapsOnce {σ : Type} {view : ArrayView} {type : ElementType} {buffer : Buffer}
    {w : World σ} (mutable : view.Mutable w buffer) (typed : view.dtype = .number type) :
    view.MapsOnce type buffer w where
  distinct := Index.nodup_all _
  complete _ := Index.mem_all mutable.inhabited
  mapped f calls := by
    have replaces := mutable.replaces typed f
    exact ⟨_, replaces, fun index => replaces.value, ArrayView.mapElements_noting typed mutable⟩

namespace Sample

/-- An integer is added to integer elements, and then another one: each sum is taken modulo the width of the
elements, and adding both together gives the same bytes. -/
structure AddsTwice (f : FunctionBinding (Program State)) (view : ArrayView) (t : IntType) (buffer : Buffer)
    (stack : Nat) (tag : IntTag) (n m : Int) (w : World State) (once twice : List UInt8)
    (one other sum : List Event) : Prop where
  replaced : view.layout.Replaces (.int t) (Fixed.plus n) buffer.bytes once
  modulo : ∀ index, Index.Within index view.shape →
    (view.layout.valueAt (.int t) once index).val % 2 ^ t.bits =
      ((view.layout.valueAt (.int t) buffer.bytes index).val + n) % 2 ^ t.bits
  first : f.invoke (Program.run (stack + 1)) [.array view, .int n tag] [] w =
    (.returned .none, w.mutated view.buffer once one)
  second : f.invoke (Program.run (stack + 1)) [.array view, .int m tag] [] (w.mutated view.buffer once one) =
    (.returned .none, (w.mutated view.buffer once one).mutated view.buffer twice other)
  together : f.invoke (Program.run (stack + 1)) [.array view, .int (IntType.i64.wrap (n + m)) tag] [] w =
    (.returned .none, w.mutated view.buffer twice sum)

theorem addsTwice {f : FunctionBinding (Program State)} (wraps : f.Wraps adding.program)
    (typed : view.dtype = .number (.int t)) (mutable : view.Mutable w buffer) (stack : Nat) (tag : IntTag)
    {n m : Int} (inRange : IntType.i64.contains n = true) (inRangeToo : IntType.i64.contains m = true) :
    ∃ once twice one other sum, AddsTwice f view t buffer stack tag n m w once twice one other sum := by
  have first := mutable.replaces typed (Fixed.plus n)
  have later := mutable.later first.length [view.mutating, f.invoking [.array view, .int n tag] []]
  have second := later.replaces typed (Fixed.plus m)
  have whole := mutable.replaces typed (Fixed.plus (IntType.i64.wrap (n + m)))
  have both : view.layout.Replaces (.int t) (Fixed.plus (IntType.i64.wrap (n + m))) buffer.bytes _ :=
    Fixed.plus_comp_plus n m ▸ first.comp second
  refine ⟨_, _, _, _, [view.mutating, f.invoking [.array view, .int (IntType.i64.wrap (n + m)) tag] []],
    first, fun index within => ?_, invoke_adding wraps typed mutable stack inRange tag,
    invoke_adding wraps typed later stack inRangeToo tag, ?_⟩
  · rw [first.value within]
    exact Fixed.plus_val n _
  · rw [invoke_adding wraps typed mutable stack (IntType.contains_wrap _ _) tag,
      whole.unique mutable.inhabited both]

end Sample

/-- Replacing the elements of a view in place calls the function once for each index, changes each element
to what it gives and no byte besides them; where it is refused, nothing changes.  So the function that adds
an integer to all elements adds it modulo the width, and adding twice is adding the sum. -/
theorem mapElements_exact :
    (∀ {σ : Type} (w : World σ) {view : ArrayView} {type : ElementType} {buffer : Buffer},
      view.dtype = .number type → view.Mutable w buffer → view.MapsOnce type buffer w) ∧
    (∀ {σ : Type} (w after : World σ) (view : ArrayView) (type : ElementType)
      (f : type.Carrier → type.Carrier) (calls : type.Carrier → List Event) (e : Error),
      view.mapElements type (ArrayView.noting f calls) w = (.failed e, after) → after = w) ∧
    ∀ (w : World Sample.State) {view : ArrayView} {t : IntType} {buffer : Buffer}
      {g : FunctionBinding (Program Sample.State)},
      g ∈ Sample.arrayFunctions → g.name = "AddIntValue" → view.dtype = .number (.int t) →
      view.Mutable w buffer → ∀ (stack : Nat) (tag : IntTag) (n m : Int),
      IntType.i64.contains n = true → IntType.i64.contains m = true →
      ∃ once twice one other sum,
        Sample.AddsTwice g view t buffer stack tag n m w once twice one other sum := by
  refine ⟨?_, ?_, ?_⟩
  · intro σ w view type buffer typed mutable
    exact mutable.mapsOnce typed
  · intro σ w after view type f calls e
    exact ArrayView.refuses_mapElements w e after
  · intro w view t buffer g member named typed mutable stack tag n m inRange inRangeToo
    have wraps := Sample.adding_wraps member named
    exact Sample.addsTwice wraps typed mutable stack tag inRange inRangeToo

/-- Two short integers, with two bytes of something else after each of them. -/
def padded : ArrayView where
  id := 0
  layout := { shape := [2], strides := [4], dtype := .int .i16, order := .neither, offset := 0 }
  buffer := 0
  ownership := .borrowed
  base? := none

def paddedBuffer (isReadonly : Bool) : Buffer where
  bytes := [255, 127, 9, 9, 1, 0, 9, 9]
  isReadonly
  keeper? := none
  access := .idle

theorem padded_mutable {w : World Sample.State} (found : w.buffer? padded = some (paddedBuffer false)) :
    padded.Mutable w (paddedBuffer false) where
  found
  writable := rfl
  idle := rfl
  valid := rfl
  inhabited := by decide
  apart := by
    rintro _ _ (_ | ⟨_, _ | _⟩) (_ | ⟨_, _ | _⟩) ne
    rename_i i _ j _
    have different : i ≠ j := fun same => ne (by rw [same])
    have located (k : Nat) : padded.layout.address [k] = k * 4 := by
      simp [Layout.address, Layout.steps, padded]
    have size : padded.dtype.size = 2 := rfl
    rw [Layout.Apart, located, located, size]
    omega

theorem mapElements_exact_padded :
    ∃ (w : World Sample.State) (g : FunctionBinding (Program Sample.State)) (one : List Event),
      g ∈ Sample.arrayFunctions ∧ w.buffer? padded = some (paddedBuffer false) ∧
      (Index.all padded.shape).Nodup ∧
      g.invoke (Program.run 1) [.array padded, .int 1 none] [] w =
        (.returned .none, w.mutated 0 [0, 128, 9, 9, 2, 0, 9, 9] one) ∧
      ∃ (kept after : World Sample.State) (e : Error), kept.buffer? padded = some (paddedBuffer true) ∧
        padded.mapElements (.int .i16) (ArrayView.noting id fun _ => []) kept = (.failed e, after) ∧
        after = kept := by
  let w : World Sample.State := { buffers := [paddedBuffer false] }
  let g := Sample.arrayFunctions[2]
  have member : g ∈ Sample.arrayFunctions := List.getElem_mem _
  have mutable : padded.Mutable w (paddedBuffer false) := padded_mutable rfl
  obtain ⟨replacing, refusing, adding⟩ := mapElements_exact
  have maps : padded.MapsOnce (.int .i16) _ w := replacing w rfl mutable
  obtain ⟨once, _, one, _, _, adds⟩ := adding w member rfl rfl mutable 0 none 1 1 rfl rfl
  have bytes : once = [0, 128, 9, 9, 2, 0, 9, 9] :=
    adds.replaced.unique mutable.inhabited (mutable.replaces rfl _)
  let kept : World Sample.State := { buffers := [paddedBuffer true] }
  exact ⟨w, g, one, member, rfl, maps.distinct, bytes ▸ adds.first,
    kept, _, _, rfl, rfl, refusing kept _ padded (.int .i16) id (fun _ => []) _ rfl⟩

end Marshal
