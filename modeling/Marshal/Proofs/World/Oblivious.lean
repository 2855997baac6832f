import Mathlib
import Marshal.Proofs.World.Quiet

/-!
# Oblivious actions

An oblivious action does not look at classes or at the journal: with other classes and another journal it
does and gives the same.  All operations on arrays are oblivious, and those on handles that leave members
alone.
-/

namespace Marshal

variable {σ α β : Type}

/-- The world with other classes and another journal. -/
def World.veiled (w : World σ) (classes : List (ClassDef (Program σ))) (journal : List Event) : World σ :=
  { w with classes, journal }

namespace Act

/-- With other classes and another journal the action ends the same way, and leaves those classes. -/
def Oblivious (act : Act σ α) : Prop :=
  ∀ w classes journal, ∃ noted,
    act (w.veiled classes journal) = ((act w).1, (act w).2.veiled classes noted)

section Oblivious

variable {act : Act σ α} {next : α → Act σ β}

/-- An oblivious action leaves the classes alone. -/
theorem Oblivious.classes (oblivious : act.Oblivious) (w : World σ) : (act w).2.classes = w.classes := by
  obtain ⟨noted, same⟩ := oblivious w w.classes w.journal
  exact congrArg (fun ended => ended.2.classes) same

theorem oblivious_pure (a : α) : Oblivious (Pure.pure a : Act σ α) := fun _ _ journal => ⟨journal, rfl⟩

theorem oblivious_fail (e : Error) : Oblivious (fail e : Act σ α) := fun _ _ journal => ⟨journal, rfl⟩

theorem oblivious_panic (p : Payload) : Oblivious (panic p : Act σ α) :=
  fun _ _ journal => ⟨journal, rfl⟩

theorem oblivious_read {f : World σ → α}
    (same : ∀ w classes journal, f (w.veiled classes journal) = f w) : Oblivious (read f) :=
  fun w classes journal => ⟨journal, congrArg (fun a => (Outcome.returned a, w.veiled classes journal))
    (same w classes journal)⟩

theorem oblivious_modify {f : World σ → World σ}
    (same : ∀ w classes journal, f (w.veiled classes journal) = (f w).veiled classes journal) :
    Oblivious (modify f) :=
  fun w classes journal => ⟨journal, congrArg (Prod.mk _) (same w classes journal)⟩

theorem oblivious_log (event : Event) : Oblivious (σ := σ) (log event) := fun _ _ _ => ⟨_, rfl⟩

theorem oblivious_ofExcept (result : Except Error α) : Oblivious (ofExcept result : Act σ α) := by
  cases result with
  | ok a => exact oblivious_pure a
  | error e => exact oblivious_fail e

theorem oblivious_ofOption (e : Error) (found : Option α) : Oblivious (ofOption e found : Act σ α) := by
  cases found with
  | some a => exact oblivious_pure a
  | none => exact oblivious_fail e

theorem oblivious_ofAddress (address : Except AddressFault α) :
    Oblivious (ofAddress address : Act σ α) := by
  rcases address with (e | _) | a
  · exact oblivious_fail e
  · exact oblivious_panic _
  · exact oblivious_pure a

theorem oblivious_allocate (count : Nat) : Oblivious (σ := σ) (allocate count) := by
  simp only [allocate]
  split
  · exact oblivious_panic _
  · exact oblivious_pure _

theorem Oblivious.bind (first : act.Oblivious) (rest : ∀ a, (next a).Oblivious) :
    (act >>= next).Oblivious := by
  intro w classes journal
  obtain ⟨noted, same⟩ := first w classes journal
  rcases ended : act w with ⟨outcome, after⟩
  rw [ended] at same
  cases outcome with
  | returned a =>
      rw [bind_of_returned ended, bind_of_returned same]
      exact rest a after classes noted
  | failed e =>
      rw [bind_of_failed ended, bind_of_failed same]
      exact ⟨noted, rfl⟩
  | panicked p =>
      rw [bind_of_panicked ended, bind_of_panicked same]
      exact ⟨noted, rfl⟩
  | exhausted =>
      rw [bind_of_exhausted ended, bind_of_exhausted same]
      exact ⟨noted, rfl⟩

theorem oblivious_mapM {f : α → Act σ β} {items : List α} (each : ∀ item, (f item).Oblivious) :
    (items.mapM f).Oblivious := by
  induction items with
  | nil => exact oblivious_pure []
  | cons item rest ih =>
      rw [List.mapM_cons]
      exact (each item).bind fun first => ih.bind fun others => oblivious_pure _

end Oblivious

end Act

open Act

theorem oblivious_bytesBetween (bytes : List UInt8) (start stop : Nat) :
    Oblivious (σ := σ) (bytesBetween bytes start stop) := by
  simp only [bytesBetween]
  split
  · exact oblivious_panic _
  · split
    · exact oblivious_panic _
    · exact oblivious_pure _

namespace Handle

variable (handle : Handle)

theorem oblivious_alive : Oblivious (σ := σ) handle.alive := by
  simp only [alive]
  refine (oblivious_read fun _ _ _ => rfl).bind fun found => ?_
  cases found with
  | none => exact oblivious_fail _
  | some cell =>
      dsimp only
      split
      · exact oblivious_pure _
      · exact oblivious_fail _

theorem oblivious_borrowed (writable : Bool) : Oblivious (σ := σ) (handle.borrowed writable) := by
  simp only [borrowed]
  refine (handle.oblivious_alive).bind fun cell => ?_
  refine (oblivious_ofOption _ _).bind fun access => ?_
  exact (oblivious_ofOption _ _).bind fun state => oblivious_pure _

theorem oblivious_retain : Oblivious (σ := σ) handle.retain := by
  simp only [retain]
  exact (handle.oblivious_alive).bind fun cell => oblivious_modify fun _ _ _ => rfl

theorem oblivious_release : Oblivious (σ := σ) handle.release := by
  simp only [release]
  refine (handle.oblivious_alive).bind fun cell => ?_
  split
  · exact (oblivious_modify fun _ _ _ => rfl).bind fun _ => oblivious_pure _
  · refine (oblivious_ofOption _ _).bind fun _ => ?_
    refine (oblivious_modify fun _ _ _ => rfl).bind fun _ => ?_
    exact (oblivious_log _).bind fun _ => oblivious_pure _

end Handle

namespace ArrayView

theorem oblivious_make (layout : Layout) (buffer : Buffer) (ownership : Ownership) :
    Oblivious (σ := σ) (make layout buffer ownership) := by
  simp only [make]
  refine (oblivious_read fun _ _ _ => rfl).bind fun view => ?_
  refine (oblivious_modify fun _ _ _ => rfl).bind fun _ => ?_
  exact (oblivious_log _).bind fun _ => oblivious_pure _

theorem oblivious_wrap (data : List UInt8) (shape : List Nat) (strides : List Int) (dtype : DType) :
    Oblivious (σ := σ) (wrap data shape strides dtype) := by
  simp only [wrap]
  refine (oblivious_ofExcept _).bind fun _ => ?_
  refine (oblivious_ofExcept _).bind fun layout => ?_
  exact (oblivious_ofExcept _).bind fun _ => oblivious_make _ _ _

theorem oblivious_ofElements (type : ElementType) (items : List type.Carrier) (shape : List Nat) :
    Oblivious (σ := σ) (ofElements type items shape) := by
  unfold ofElements
  dsimp only
  split
  · exact oblivious_fail _
  · exact oblivious_make _ _ _

theorem oblivious_zeros (shape : List Nat) (dtype : DType) : Oblivious (σ := σ) (zeros shape dtype) := by
  simp only [zeros]
  refine (oblivious_ofExcept _).bind fun _ => ?_
  refine (oblivious_ofOption _ _).bind fun nbytes => ?_
  exact (oblivious_allocate nbytes).bind fun _ => oblivious_make _ _ _

theorem oblivious_borrow (data : List UInt8) (layout : Layout) (readonly : Bool) (keeper : Keeper) :
    Oblivious (σ := σ) (borrow data layout readonly keeper) := by
  simp only [borrow]
  refine (oblivious_ofExcept _).bind fun _ => ?_
  exact (oblivious_ofExcept _).bind fun _ => oblivious_make _ _ _

variable (view : ArrayView)

theorem oblivious_derive (layout : Layout) : Oblivious (σ := σ) (view.derive layout) := by
  simp only [derive]
  refine (oblivious_read fun _ _ _ => rfl).bind fun id => ?_
  exact (oblivious_modify fun _ _ _ => rfl).bind fun _ => oblivious_pure _

theorem oblivious_memory : Oblivious (σ := σ) view.memory := oblivious_read fun _ _ _ => rfl

theorem oblivious_readable : Oblivious (σ := σ) view.readable := by
  simp only [readable]
  refine (view.oblivious_memory).bind fun buffer => ?_
  exact (oblivious_ofOption _ _).bind fun _ => oblivious_pure _

theorem oblivious_writable : Oblivious (σ := σ) view.writable := by
  unfold writable
  refine (view.oblivious_memory).bind fun buffer => ?_
  dsimp only
  split
  · exact oblivious_fail _
  · exact (oblivious_ofOption _ _).bind fun _ => oblivious_pure _

theorem oblivious_borrowed (writable : Bool) : Oblivious (σ := σ) (view.borrowed writable) := by
  simp only [borrowed]
  split
  · exact view.oblivious_writable
  · exact view.oblivious_readable

theorem oblivious_writeBytes (start : Nat) (fresh : List UInt8) :
    Oblivious (σ := σ) (view.writeBytes start fresh) :=
  oblivious_modify fun _ _ _ => rfl

theorem oblivious_offsetOf (index : List Nat) : Oblivious (σ := σ) (view.offsetOf index) := by
  simp only [offsetOf]
  exact (oblivious_ofAddress _).bind fun _ => oblivious_ofOption _ _

theorem oblivious_elementBytes (bytes : List UInt8) (index : List Nat) :
    Oblivious (σ := σ) (view.elementBytes bytes index) := by
  simp only [elementBytes, elementAt]
  exact (oblivious_ofAddress _).bind fun _ => oblivious_bytesBetween _ _ _

theorem oblivious_scalarIn (bytes : List UInt8) (index : List Nat) :
    Oblivious (σ := σ) (view.scalarIn bytes index) := by
  simp only [scalarIn]
  exact (view.oblivious_elementBytes bytes index).bind fun _ => oblivious_ofOption _ _

theorem oblivious_get (type : ElementType) (index : List Nat) :
    Oblivious (σ := σ) (view.get type index) := by
  simp only [get, elementAt]
  refine (oblivious_ofExcept _).bind fun _ => ?_
  refine (view.oblivious_offsetOf index).bind fun offset => ?_
  refine (view.oblivious_readable).bind fun bytes => ?_
  exact (oblivious_bytesBetween _ _ _).bind fun _ => oblivious_pure _

theorem oblivious_set (type : ElementType) (index : List Nat) (element : type.Carrier) :
    Oblivious (σ := σ) (view.set type index element) := by
  simp only [set]
  refine (oblivious_ofExcept _).bind fun _ => ?_
  refine (view.oblivious_offsetOf index).bind fun offset => ?_
  refine (view.oblivious_writable).bind fun bytes => ?_
  exact (oblivious_bytesBetween _ _ _).bind fun _ => view.oblivious_writeBytes _ _

theorem oblivious_scalarAt (index : List Nat) : Oblivious (σ := σ) (view.scalarAt index) := by
  simp only [scalarAt]
  refine (view.oblivious_offsetOf index).bind fun _ => ?_
  exact (view.oblivious_readable).bind fun bytes => view.oblivious_scalarIn bytes index

theorem oblivious_elements (type : ElementType) : Oblivious (σ := σ) (view.elements type) := by
  simp only [elements]
  refine (oblivious_ofExcept _).bind fun _ => ?_
  refine (view.oblivious_readable).bind fun bytes => ?_
  exact oblivious_mapM fun index => (view.oblivious_elementBytes bytes index).bind fun _ => oblivious_pure _

theorem oblivious_scalars : Oblivious (σ := σ) view.scalars := by
  simp only [scalars]
  refine (view.oblivious_readable).bind fun bytes => ?_
  exact oblivious_mapM fun index => view.oblivious_scalarIn bytes index

theorem oblivious_copy : Oblivious (σ := σ) view.copy := by
  simp only [copy]
  refine (view.oblivious_readable).bind fun bytes => ?_
  refine (oblivious_ofOption _ _).bind fun nbytes => ?_
  refine (oblivious_allocate nbytes).bind fun _ => ?_
  refine (oblivious_mapM fun index => view.oblivious_elementBytes bytes index).bind fun data => ?_
  exact oblivious_make _ _ _

theorem oblivious_nestFrom (bytes : List UInt8) (shape index : List Nat) :
    Oblivious (σ := σ) (view.nestFrom bytes shape index) := by
  induction shape generalizing index with
  | nil => exact (view.oblivious_scalarIn bytes index).bind fun _ => oblivious_pure _
  | cons dim shape ih =>
      refine (oblivious_allocate _).bind fun _ => ?_
      exact (oblivious_mapM fun i => ih (index ++ [i])).bind fun _ => oblivious_pure _

end ArrayView

theorem ArrayRequest.oblivious_serve (request : ArrayRequest) : Oblivious (σ := σ) request.serve := by
  cases request with
  | wrap data shape strides dtype =>
      exact (ArrayView.oblivious_wrap data shape strides dtype).bind fun _ => oblivious_pure _
  | zeros shape dtype => exact (ArrayView.oblivious_zeros shape dtype).bind fun _ => oblivious_pure _
  | ofElements type items shape =>
      exact (ArrayView.oblivious_ofElements type items shape).bind fun _ => oblivious_pure _
  | borrow data layout readonly keeper =>
      exact (ArrayView.oblivious_borrow data layout readonly keeper).bind fun _ => oblivious_pure _
  | copy view => exact (view.oblivious_copy).bind fun _ => oblivious_pure _
  | reshape view shape =>
      refine Oblivious.bind ?_ fun _ => oblivious_pure _
      exact (oblivious_ofExcept _).bind fun _ => view.oblivious_derive _
  | transpose view => exact (view.oblivious_derive _).bind fun _ => oblivious_pure _
  | slice view start stop =>
      refine Oblivious.bind ?_ fun _ => oblivious_pure _
      exact (oblivious_ofAddress _).bind fun _ => view.oblivious_derive _
  | get view type index => exact (view.oblivious_get type index).bind fun _ => oblivious_pure _
  | set view type index element =>
      exact (view.oblivious_set type index element).bind fun _ => oblivious_pure _
  | scalarAt view index => exact (view.oblivious_scalarAt index).bind fun _ => oblivious_pure _
  | elements view type => exact (view.oblivious_elements type).bind fun _ => oblivious_pure _
  | scalars view => exact (view.oblivious_scalars).bind fun _ => oblivious_pure _
  | nested view => exact (view.oblivious_readable).bind fun bytes => view.oblivious_nestFrom bytes _ _

end Marshal
