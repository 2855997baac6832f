import Mathlib
import Marshal.Proofs.World.Quiet

/-!
# What a world has handed out

Instances and arrays are numbered as they are made, and every array that is not derived from another one
has a buffer of its own.  What else happens in a world hands out nothing, and neither does making something
that fails: an action takes a number only when nothing can go wrong any more.
-/

namespace Marshal

open Act hiding pure bind

variable {σ α β : Type}

namespace World

/-- What was handed out so far: the handles of instances, and how many numbers of arrays and buffers. -/
structure Issued where
  handles : List Handle
  arrays : Nat
  buffers : Nat

def issued (w : World σ) : Issued where
  handles := w.cells.map Cell.handle
  arrays := w.arrayCount
  buffers := w.buffers.length

/-- Nothing more was handed out. -/
def Steady (w after : World σ) : Prop := after.issued = w.issued

instance : IsPreorder (World σ) Steady where
  refl _ := rfl
  trans _ _ _ first rest := Eq.trans rest first

variable {w after : World σ}

theorem Logs.steady (logs : w.Logs after) : w.Steady after := by
  obtain ⟨events, rfl⟩ := logs
  rfl

theorem steady_setCell {handle : Handle} {f : Cell σ → Cell σ}
    (same : ∀ cell, (f cell).handle = cell.handle) :
    w.Steady (w.setCell handle f) := by
  have handles : (w.cells.modify handle.slot f).map Cell.handle = w.cells.map Cell.handle := by
    refine List.ext_getElem? fun slot => ?_
    rw [List.getElem?_map, List.getElem?_map, List.getElem?_modify]
    split
    · cases w.cells[slot]? <;> simp [same]
    · simp
  simp only [Steady, issued, setCell, handles]

theorem steady_setBuffer (index : Nat) (f : Buffer → Buffer) : w.Steady (w.setBuffer index f) := by
  simp only [Steady, issued, setBuffer, List.length_modify]

end World

open World

theorem Act.steady_log (event : Event) : Keeps (σ := σ) Steady (log event) :=
  fun w => (logs_log event w).steady

theorem ClassDef.steady_define (classId : Nat) (m : MethodBinding (Program σ)) :
    Keeps Steady (ClassDef.define classId m) :=
  keeps_define (fun _ _ => Logs.steady) (fun _ _ => steady_setCell fun _ => rfl) (fun _ _ _ => rfl) classId m

theorem Frame.steady_store (frame : Frame) (content : Content σ) (w : World σ) :
    w.Steady (frame.store content w) := by
  simp only [store]
  split
  · exact steady_setCell fun _ => rfl
  · split
    · exact steady_setBuffer _ _
    · rfl
  · rfl

namespace Handle

variable (handle : Handle)

theorem steady_setAccess (f : Access → Access) (w : World σ) : w.Steady (handle.setAccess f w) :=
  steady_setCell fun _ => rfl

theorem steady_setReferences (references : Nat) : Keeps (σ := σ) Steady (handle.setReferences references) :=
  keeps_modify fun _ => steady_setCell fun _ => rfl

theorem steady_retain : Keeps (σ := σ) Steady handle.retain :=
  (handle.keeps_alive).bind fun _ => handle.steady_setReferences _

theorem steady_release : Keeps (σ := σ) Steady handle.release := by
  simp only [release]
  refine (handle.keeps_alive).bind fun cell => ?_
  split
  · exact (handle.steady_setReferences _).bind fun _ => keeps_pure _
  · refine (keeps_ofOption _ _).bind fun _ => ?_
    refine Keeps.bind (keeps_modify fun _ => steady_setCell fun _ => rfl) fun _ => ?_
    exact (steady_log _).bind fun _ => keeps_pure _

end Handle

namespace ArrayView

/-- A new array has the next number; it has a buffer of its own, or that of the array that it is derived
from. -/
inductive Numbered (view : ArrayView) (w after : World σ) : Option ArrayView → Prop
  | root (holds : view.ownership ≠ .view) (base : view.base? = none) (id : view.id = w.issued.arrays + 1)
      (buffer : view.buffer = w.issued.buffers)
      (issued : after.issued =
        { w.issued with arrays := w.issued.arrays + 1, buffers := w.issued.buffers + 1 }) :
      Numbered view w after none
  | derived {source : ArrayView} (leans : view.ownership = .view) (base : view.base? = some source.id)
      (id : view.id = w.issued.arrays + 1) (buffer : view.buffer = source.buffer)
      (issued : after.issued = { w.issued with arrays := w.issued.arrays + 1 }) :
      Numbered view w after (some source)

namespace Numbered

variable {view : ArrayView} {w middle after : World σ} {source? : Option ArrayView}

theorem after_steady (numbered : view.Numbered middle after source?) (steady : w.Steady middle) :
    view.Numbered w after source? := by
  rw [Steady] at steady
  cases numbered with
  | root holds base id buffer issued =>
      rw [steady] at id buffer issued
      exact .root holds base id buffer issued
  | derived leans base id buffer issued =>
      rw [steady] at id issued
      exact .derived leans base id buffer issued

theorem id_eq (numbered : view.Numbered w after source?) : view.id = w.issued.arrays + 1 := by
  cases numbered with
  | root _ _ id | derived _ _ id => exact id

theorem base?_eq (numbered : view.Numbered w after source?) : view.base? = source?.map ArrayView.id := by
  cases numbered with
  | root _ base | derived _ base => exact base

theorem base?_eq_none_iff (numbered : view.Numbered w after source?) :
    view.base? = none ↔ view.ownership ≠ .view := by
  cases numbered with
  | root holds base => exact iff_of_true base holds
  | derived leans base => simp [leans, base]

theorem handles (numbered : view.Numbered w after source?) : after.issued.handles = w.issued.handles := by
  cases numbered with
  | root _ _ _ _ issued | derived _ _ _ _ issued => rw [issued]

theorem arrays (numbered : view.Numbered w after source?) : after.issued.arrays = w.issued.arrays + 1 := by
  cases numbered with
  | root _ _ _ _ issued | derived _ _ _ _ issued => rw [issued]

theorem buffers (numbered : view.Numbered w after source?) : w.issued.buffers ≤ after.issued.buffers := by
  cases numbered with
  | root _ _ _ _ issued | derived _ _ _ _ issued => simp [issued]

end Numbered

end ArrayView

/-- However it ends, the action gives an array and hands out a number for it, or it gives none and hands out
nothing. -/
def Act.Numbers (give : ArrayView → α) (source? : Option ArrayView) (act : Act σ α) : Prop := ∀ w,
  (∃ view after, act w = (.returned (give view), after) ∧ view.Numbered w after source?) ∨
    (∀ view, (act w).1 ≠ .returned (give view)) ∧ w.Steady (act w).2

/-- An action that makes arrays, from this view if from any. -/
abbrev Act.Makes (source? : Option ArrayView) (act : Act σ ArrayView) : Prop :=
  Numbers (fun view => view) source? act

namespace Act

variable {give : ArrayView → β} {source? : Option ArrayView} {act : Act σ α}

theorem numbers_fail (e : Error) : Numbers give source? (fail e : Act σ β) := fun _ => .inr ⟨nofun, rfl⟩

theorem numbers_pure {b : β} (other : ∀ view, b ≠ give view) :
    Numbers give source? (Pure.pure b : Act σ β) := by
  refine fun w => .inr ⟨fun view same => ?_, rfl⟩
  cases same
  exact other view rfl

theorem Keeps.numbers {next : α → Act σ β} (first : Keeps Steady act)
    (rest : ∀ a, Numbers give source? (next a)) : Numbers give source? (act >>= next) := by
  intro w
  rcases ended : act w with ⟨outcome, middle⟩
  have steady := first.ended ended
  cases outcome with
  | returned a =>
      rw [bind_of_returned ended]
      rcases rest a middle with ⟨view, after, returned, numbered⟩ | ⟨nothing, still⟩
      · exact .inl ⟨view, after, returned, numbered.after_steady steady⟩
      · exact .inr ⟨nothing, trans_of Steady steady still⟩
  | _ =>
      refine .inr ⟨fun view returned => ?_, ?_⟩
      · obtain ⟨_, _, first, _⟩ := returned_of_bind (apply_of_outcome returned)
        cases ended.symm.trans first
      · rwa [world_of_stuck ended nofun]

theorem Makes.array {act : Act σ ArrayView} (makes : Makes source? act) :
    Numbers Value.array source? (do return .array (← act)) := by
  intro w
  rcases makes w with ⟨view, after, returned, numbered⟩ | ⟨nothing, still⟩
  · exact .inl ⟨view, after, bind_of_returned returned, numbered⟩
  · refine .inr ⟨fun view returned => ?_, trans_of Steady still (bind_after fun _ => keeps_pure _)⟩
    obtain ⟨found, _, first, last⟩ := returned_of_bind (apply_of_outcome returned)
    exact nothing found (congrArg Prod.fst first)

end Act

theorem ElementType.encode_ne_array (type : ElementType) (x : type.Carrier) (view : ArrayView) :
    type.encode x ≠ .array view := by
  cases type <;> exact nofun

theorem Scalar.toValue_ne_array (scalar : Scalar) (view : ArrayView) : scalar.toValue ≠ .array view :=
  scalar.type.encode_ne_array scalar.value view

namespace ArrayView

theorem makes_make (layout : Layout) (buffer : Buffer) {ownership : Ownership} (holds : ownership ≠ .view) :
    Makes (σ := σ) none (make layout buffer ownership) := by
  intro w
  refine .inl ⟨_, _, rfl, .root holds rfl rfl rfl ?_⟩
  simp only [issued, List.length_append, List.length_singleton]

theorem makes_wrap (data : List UInt8) (shape : List Nat) (strides : List Int) (dtype : DType) :
    Makes (σ := σ) none (wrap data shape strides dtype) := by
  simp only [wrap]
  refine (keeps_ofExcept _).numbers fun _ => ?_
  refine (keeps_ofExcept _).numbers fun layout => ?_
  exact (keeps_ofExcept _).numbers fun _ => makes_make _ _ (by decide)

theorem makes_ofElements (type : ElementType) (items : List type.Carrier) (shape : List Nat) :
    Makes (σ := σ) none (ofElements type items shape) := by
  unfold ofElements
  dsimp only
  split
  · exact numbers_fail _
  · exact makes_make _ _ (by decide)

theorem makes_zeros (shape : List Nat) (dtype : DType) : Makes (σ := σ) none (zeros shape dtype) := by
  simp only [zeros]
  refine (keeps_ofExcept _).numbers fun _ => ?_
  refine (keeps_ofOption _ _).numbers fun nbytes => ?_
  exact (keeps_allocate nbytes).numbers fun _ => makes_make _ _ (by decide)

theorem makes_borrow (data : List UInt8) (layout : Layout) (readonly : Bool) (keeper : Keeper) :
    Makes (σ := σ) none (borrow data layout readonly keeper) := by
  simp only [borrow]
  refine (keeps_ofExcept _).numbers fun _ => ?_
  exact (keeps_ofExcept _).numbers fun _ => makes_make _ _ (by decide)

variable (view : ArrayView)

theorem makes_copy : Makes (σ := σ) none view.copy := by
  simp only [copy]
  refine (view.keeps_readable).numbers fun bytes => ?_
  refine (keeps_ofOption _ _).numbers fun nbytes => ?_
  refine (keeps_allocate nbytes).numbers fun _ => ?_
  refine (keeps_mapM fun index _ => view.keeps_elementBytes bytes index).numbers fun data => ?_
  exact makes_make _ _ (by decide)

theorem makes_derive (layout : Layout) : Makes (σ := σ) (some view) (view.derive layout) :=
  fun _ => .inl ⟨_, _, rfl, .derived rfl rfl rfl rfl rfl⟩

theorem makes_reshape (shape : List Nat) : Makes (σ := σ) (some view) (view.reshape shape) :=
  (keeps_ofExcept _).numbers fun layout => view.makes_derive layout

theorem makes_slice (start stop : List Nat) : Makes (σ := σ) (some view) (view.slice start stop) :=
  (keeps_ofAddress _).numbers fun layout => view.makes_derive layout

theorem numbers_nestFrom (bytes : List UInt8) (shape index : List Nat) :
    Numbers (σ := σ) Value.array none (view.nestFrom bytes shape index) := by
  cases shape with
  | nil => exact (view.keeps_scalarIn bytes index).numbers fun scalar => numbers_pure scalar.toValue_ne_array
  | cons dim shape =>
      refine (keeps_allocate _).numbers fun _ => ?_
      refine (keeps_mapM fun i _ => view.keeps_nestFrom bytes shape (index ++ [i])).numbers fun items => ?_
      exact numbers_pure nofun

theorem steady_set (type : ElementType) (index : List Nat) (element : type.Carrier) :
    Keeps (σ := σ) Steady (view.set type index element) := by
  simp only [set]
  refine (keeps_ofExcept _).bind fun _ => ?_
  refine (view.keeps_offsetOf index).bind fun offset => ?_
  refine (view.keeps_writable).bind fun bytes => ?_
  exact (keeps_bytesBetween _ _ _).bind fun _ => keeps_modify fun _ => steady_setBuffer _ _

end ArrayView

namespace ArrayRequest

/-- The view that a request derives another one from. -/
def source? : ArrayRequest → Option ArrayView
  | .reshape view _ | .transpose view | .slice view _ _ => some view
  | _ => none

/-- A request that gives an array takes a number for it; one that gives none takes none, whether it is one for
something else or it fails. -/
theorem numbers_serve (request : ArrayRequest) :
    Numbers (σ := σ) Value.array request.source? request.serve := by
  cases request with
  | wrap data shape strides dtype => exact (ArrayView.makes_wrap data shape strides dtype).array
  | zeros shape dtype => exact (ArrayView.makes_zeros shape dtype).array
  | ofElements type items shape => exact (ArrayView.makes_ofElements type items shape).array
  | borrow data layout readonly keeper => exact (ArrayView.makes_borrow data layout readonly keeper).array
  | copy view => exact (view.makes_copy).array
  | reshape view shape => exact (view.makes_reshape shape).array
  | transpose view => exact (view.makes_derive _).array
  | slice view start stop => exact (view.makes_slice start stop).array
  | get view type index =>
      exact (view.keeps_get type index).numbers fun x => numbers_pure (type.encode_ne_array x)
  | set view type index element =>
      exact (view.steady_set type index element).numbers fun _ => numbers_pure nofun
  | scalarAt view index =>
      exact (view.keeps_scalarAt index).numbers fun scalar => numbers_pure scalar.toValue_ne_array
  | elements view type => exact (view.keeps_elements type).numbers fun _ => numbers_pure nofun
  | scalars view => exact (view.keeps_scalars).numbers fun _ => numbers_pure nofun
  | nested view => exact (view.keeps_readable).numbers fun bytes => view.numbers_nestFrom bytes _ _

end ArrayRequest

end Marshal
