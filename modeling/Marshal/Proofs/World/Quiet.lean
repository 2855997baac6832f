import Mathlib
import Marshal.Proofs.World.Lives

/-!
# Quiet actions

Logging, printing, looking things up, defining methods, letting go of values and every operation on
arrays are quiet: array operations that write keep the size of the buffer, and those that make arrays
add a buffer that nobody uses.
-/

namespace Marshal

open World

variable {σ α : Type}

namespace Act

theorem quiet_modify {f : World σ → World σ} (cells : ∀ w, (f w).cells = w.cells)
    (buffers : ∀ w, (f w).buffers = w.buffers) : Keeps Quiet (modify f) :=
  keeps_modify fun w => quiet_of_eq (cells w) (buffers w)

theorem logs_log (event : Event) : Keeps (σ := σ) Logs (log event) := fun _ => ⟨[event], rfl⟩

theorem Keeps.quiet {act : Act σ α} (logs : Keeps Logs act) : Keeps Quiet act :=
  logs.mono fun _ _ logs => logs.quiet

theorem quiet_log (event : Event) : Keeps (σ := σ) Quiet (log event) := (logs_log event).quiet

theorem quiet_print (text : String) : Keeps (σ := σ) Quiet (print text) :=
  quiet_modify (fun _ => rfl) fun _ => rfl

theorem keeps_allocate {R : World σ → World σ → Prop} [IsPreorder (World σ) R] (count : Nat) :
    Keeps R (allocate count) := by
  simp only [allocate]
  split
  · exact keeps_panic _
  · exact keeps_pure _

theorem Keeps.room {act : Act σ α} (quiet : Keeps Quiet act) : Keeps KeepsRoom act :=
  quiet.mono fun _ _ quiet => quiet.room

end Act

open Act

section Dropping

variable {R : World σ → World σ → Prop} [IsPreorder (World σ) R] (logs : ∀ w after, w.Logs after → R w after)
  (abandons : ∀ (handle : Handle) w, R w (w.setCell handle fun cell => { cell with isAbandoned := true }))

include logs abandons

/-- Letting go of a value logs and marks instances as abandoned, and does nothing else. -/
theorem Act.keeps_drop (value : Value) : Keeps R (drop value) := by
  refine keeps_forM fun handle _ => ?_
  simp only [dropHandle]
  refine (keeps_read _).bind fun w => ?_
  split
  · split
    · exact ((logs_log _).mono logs).bind fun _ => keeps_modify (abandons handle)
    · exact keeps_pure _
  · exact keeps_pure _

/-- Defining a method changes its class, and lets go of what it replaces. -/
theorem ClassDef.keeps_define (changes : ∀ id f w, R w (w.setClass id f)) (classId : Nat)
    (m : MethodBinding (Program σ)) : Keeps R (ClassDef.define classId m) := by
  simp only [ClassDef.define]
  refine (keeps_read _).bind fun found => ?_
  cases found with
  | none => exact keeps_pure _
  | some c =>
      dsimp only
      split
      · exact keeps_fail _
      · refine ((logs_log _).mono logs).bind fun _ => ?_
        refine (keeps_modify (changes classId _)).bind fun _ => ?_
        split
        · exact keeps_drop logs abandons _
        · exact keeps_pure _

end Dropping

theorem ClassDef.quiet_define (classId : Nat) (m : MethodBinding (Program σ)) :
    Keeps Quiet (ClassDef.define classId m) :=
  keeps_define (fun _ _ => Logs.quiet) (fun _ _ => quiet_setCell fun _ => rfl)
    (fun _ _ _ => quiet_of_eq rfl rfl)
    classId m

theorem FunctionBinding.logs_prepare (f : FunctionBinding (Program σ)) (positional : List Value)
    (keywords : Keywords) : Keeps Logs (f.prepare positional keywords) := by
  simp only [FunctionBinding.prepare]
  refine (logs_log _).bind fun _ => ?_
  refine (keeps_ofExcept _).bind fun args => ?_
  exact (keeps_ofExcept _).bind fun _ => keeps_pure _

namespace Handle

section Reading

variable {R : World σ → World σ → Prop} [IsPreorder (World σ) R] (handle : Handle)

theorem keeps_alive : Keeps R handle.alive := by
  simp only [alive]
  refine (keeps_read _).bind fun found => ?_
  cases found with
  | none => exact keeps_fail _
  | some cell =>
      dsimp only
      split
      · exact keeps_pure _
      · exact keeps_fail _

theorem keeps_classDef : Keeps R handle.classDef := by
  simp only [classDef]
  refine (keeps_read _).bind fun found => ?_
  cases found with
  | none => exact keeps_fail _
  | some c => exact keeps_pure _

theorem keeps_property (name : String) : Keeps R (handle.property name) := by
  simp only [property]
  exact (handle.keeps_classDef).bind fun c => keeps_ofOption _ _

end Reading

variable (handle : Handle) [NativeState σ]

theorem logs_prepareInvoke (method : String) (positional : List Value) (keywords : Keywords) :
    Keeps (σ := σ) Logs (handle.prepareInvoke method positional keywords) := by
  simp only [prepareInvoke]
  refine (handle.keeps_alive).bind fun _ => ?_
  refine (handle.keeps_classDef).bind fun c => ?_
  refine (keeps_ofOption _ _).bind fun m => ?_
  refine (logs_log _).bind fun _ => ?_
  refine (keeps_ofExcept _).bind fun args => ?_
  exact (keeps_ofExcept _).bind fun _ => keeps_pure _

theorem logs_prepareGet (name : String) : Keeps (σ := σ) Logs (handle.prepareGet name) := by
  simp only [prepareGet]
  refine (handle.keeps_alive).bind fun _ => ?_
  exact (handle.keeps_property name).bind fun p => keeps_pure _

theorem logs_prepareSet (name : String) (value : Value) :
    Keeps (σ := σ) Logs (handle.prepareSet name value) := by
  simp only [prepareSet]
  refine (handle.keeps_alive).bind fun _ => ?_
  refine (handle.keeps_property name).bind fun p => ?_
  exact (keeps_ofOption _ _).bind fun setter => keeps_pure _

end Handle

theorem Request.logs_prepare [NativeState σ] {request : Request σ (Program σ)}
    {prepare : Act σ (NativeCall σ)} (prepared : request.prepare? = some prepare) :
    Keeps Logs prepare := by
  cases request with
  | call f positional keywords =>
      cases prepared
      exact f.logs_prepare positional keywords
  | invoke handle method positional keywords =>
      cases prepared
      exact handle.logs_prepareInvoke method positional keywords
  | getAttr handle name =>
      cases prepared
      exact handle.logs_prepareGet name
  | setAttr handle name value =>
      cases prepared
      exact handle.logs_prepareSet name value
  | _ => cases prepared

theorem logs_guarded (act : Act σ Result) (function : String) (catchPanics : Bool) (w : World σ) :
    (act w).2.Logs (guarded function catchPanics act w).2 := by
  simp only [guarded]
  cases catchPanics with
  | false => exact refl_of Logs _
  | true =>
      rcases ended : act w with ⟨_ | _ | p | _, after⟩ <;> simp only [↓reduceIte, ended]
      · exact refl_of Logs _
      · exact refl_of Logs _
      · exact ((logs_log _).bind fun _ => keeps_fail _) after
      · exact refl_of Logs _

section Results

variable {R : World σ → World σ → Prop} [IsPreorder (World σ) R]

theorem keeps_resolved (function : String) (params : List Param) (result : Result) :
    Keeps R (resolved function params result) := by
  cases result with
  | ok value => exact keeps_pure _
  | error e => exact keeps_fail _

theorem keeps_accessed (result : Result) : Keeps R (accessed result) := by
  rcases result with (⟨_, e⟩ | e) | value
  · exact keeps_fail _
  · exact keeps_fail _
  · exact keeps_pure _

end Results

/-- What becomes of native code and its result changes nothing but the journal, apart from what the code
does. -/
theorem Conclusion.logs_conclude (conclusion : Conclusion) (act : Act σ Result) (w : World σ) :
    (act w).2.Logs (conclusion.conclude act w).2 := by
  cases conclusion with
  | called function params catchPanics =>
      refine trans_of Logs (logs_guarded act function catchPanics w) ?_
      exact bind_after fun result => keeps_resolved function params result
  | read => exact bind_after fun result => keeps_accessed result
  | written =>
      exact bind_after fun result => (keeps_accessed result).bind fun _ => keeps_pure _

theorem overwrite_length (bytes : List UInt8) (start : Nat) (fresh : List UInt8) :
    (overwrite bytes start fresh).length = bytes.length := by
  simp only [overwrite, List.length_append, List.length_take, List.length_drop]
  omega

@[simp] theorem Frame.lives_store (frame : Frame) (content : Content σ) (w : World σ) :
    (frame.store content w).lives = w.lives := by
  simp only [store]
  split
  · exact (quiet_setCell fun cell => by simp [Cell.life]).lives
  · split
    · rfl
    · rfl
  · rfl

section Reading

variable {R : World σ → World σ → Prop} [IsPreorder (World σ) R] (view : ArrayView)

theorem keeps_bytesBetween (bytes : List UInt8) (start stop : Nat) :
    Keeps R (bytesBetween bytes start stop) := by
  simp only [bytesBetween]
  split
  · exact keeps_panic _
  · split
    · exact keeps_panic _
    · exact keeps_pure _

theorem ArrayView.keeps_readable : Keeps R view.readable := by
  simp only [ArrayView.readable]
  refine (keeps_read _).bind fun buffer => ?_
  exact (keeps_ofOption _ _).bind fun _ => keeps_pure _

theorem ArrayView.keeps_writable : Keeps R view.writable := by
  unfold ArrayView.writable
  refine (keeps_read _).bind fun buffer => ?_
  dsimp only
  split
  · exact keeps_fail _
  · exact (keeps_ofOption _ _).bind fun _ => keeps_pure _

theorem ArrayView.keeps_borrowed (writable : Bool) : Keeps R (view.borrowed writable) := by
  simp only [ArrayView.borrowed]
  split
  · exact view.keeps_writable
  · exact view.keeps_readable

theorem ArrayView.memory_cases (w : World σ) :
    ∃ buffer, view.memory w = (.returned buffer, w) ∧ w.bufferAccess view.buffer = buffer.access ∧
      w.sealed? view.buffer = if buffer.isReadonly then some buffer.bytes else none := by
  cases found : w.buffers[view.buffer]? with
  | none =>
      refine ⟨ownedBuffer [], ?_, ?_, ?_⟩
      · simp [ArrayView.memory, buffer?, found]
      · simp [bufferAccess, found, ownedBuffer]
      · simp [sealed?, found, ownedBuffer]
  | some buffer =>
      refine ⟨buffer, ?_, ?_, ?_⟩
      · simp [ArrayView.memory, buffer?, found]
      · simp [bufferAccess, found]
      · simp [sealed?, found]

/-- The memory of a view is at hand if those who use it leave room for one more user; to be written it
must not be read-only either. -/
theorem ArrayView.borrowed_cases (writable : Bool) (w : World σ) :
    (∃ bytes access, view.borrowed writable w = (.returned bytes, w) ∧
      (w.bufferAccess view.buffer).enter? writable = some access ∧
      (writable = true → w.sealed? view.buffer = none)) ∨
    ∃ reason, view.borrowed writable w = (.failed (.borrowedMutation reason), w) ∧
      ((w.bufferAccess view.buffer).enter? writable = none ∨
        writable = true ∧ w.sealed? view.buffer ≠ none) := by
  obtain ⟨buffer, memory, used, sealing⟩ := view.memory_cases w
  rw [used, sealing]
  cases writable with
  | false =>
      simp only [ArrayView.borrowed, Bool.false_eq_true, ↓reduceIte, ArrayView.readable,
        bind_of_returned memory, Access.enter?, false_and, or_false]
      cases entered : buffer.access.share? with
      | none => exact .inr ⟨_, rfl, rfl⟩
      | some access => exact .inl ⟨_, access, rfl, rfl, nofun⟩
  | true =>
      simp only [ArrayView.borrowed, ↓reduceIte]
      unfold ArrayView.writable
      simp only [bind_of_returned memory, Access.enter?, ↓reduceIte]
      cases fixed : buffer.isReadonly with
      | true => exact .inr ⟨_, rfl, .inr ⟨trivial, nofun⟩⟩
      | false =>
          cases entered : buffer.access.seize? with
          | none => exact .inr ⟨_, rfl, .inl rfl⟩
          | some access => exact .inl ⟨_, access, rfl, rfl, fun _ => rfl⟩

theorem ArrayView.unsealed_of_writable {w after : World σ} {bytes : List UInt8}
    (allowed : view.writable w = (.returned bytes, after)) : w.sealed? view.buffer = none := by
  rcases view.borrowed_cases true w with ⟨bytes, access, borrowed, entered, unsealed⟩ | ⟨reason, refused, _⟩
  · exact unsealed rfl
  · cases refused.symm.trans allowed

theorem ArrayView.keeps_packedBytes (bytes : List UInt8) : Keeps R (view.packedBytes bytes) := by
  simp only [ArrayView.packedBytes]
  exact (keeps_ofAddress _).bind fun _ => keeps_bytesBetween _ _ _

theorem ArrayView.keeps_offsetOf (index : List Nat) : Keeps R (view.offsetOf index) := by
  simp only [ArrayView.offsetOf]
  exact (keeps_ofAddress _).bind fun found => keeps_ofOption _ _

theorem ArrayView.keeps_elementBytes (bytes : List UInt8) (index : List Nat) :
    Keeps R (view.elementBytes bytes index) := by
  simp only [ArrayView.elementBytes, ArrayView.elementAt]
  exact (keeps_ofAddress _).bind fun offset => keeps_bytesBetween _ _ _

theorem ArrayView.keeps_elementNow (type : ElementType) (index : List Nat) :
    Keeps R (view.elementNow type index) := by
  simp only [ArrayView.elementNow, ArrayView.elementAt]
  refine (keeps_read _).bind fun buffer => ?_
  refine (keeps_ofAddress _).bind fun offset => ?_
  exact (keeps_bytesBetween _ _ _).bind fun bytes => keeps_pure _

theorem ArrayView.keeps_scalarIn (bytes : List UInt8) (index : List Nat) :
    Keeps R (view.scalarIn bytes index) := by
  simp only [ArrayView.scalarIn]
  exact (view.keeps_elementBytes bytes index).bind fun element => keeps_ofOption _ _

theorem ArrayView.keeps_get (type : ElementType) (index : List Nat) :
    Keeps R (view.get type index) := by
  simp only [ArrayView.get]
  refine (keeps_ofExcept _).bind fun _ => ?_
  refine (view.keeps_offsetOf index).bind fun offset => ?_
  refine (view.keeps_readable).bind fun bytes => ?_
  exact (keeps_bytesBetween _ _ _).bind fun element => keeps_pure _

theorem ArrayView.keeps_scalarAt (index : List Nat) : Keeps R (view.scalarAt index) := by
  simp only [ArrayView.scalarAt]
  refine (view.keeps_offsetOf index).bind fun _ => ?_
  exact (view.keeps_readable).bind fun bytes => view.keeps_scalarIn bytes index

theorem ArrayView.keeps_elements (type : ElementType) : Keeps R (view.elements type) := by
  simp only [ArrayView.elements]
  refine (keeps_ofExcept _).bind fun _ => ?_
  refine (view.keeps_readable).bind fun bytes => ?_
  exact keeps_mapM fun index _ => (view.keeps_elementBytes bytes index).bind fun _ => keeps_pure _

theorem ArrayView.keeps_scalars : Keeps R view.scalars := by
  simp only [ArrayView.scalars]
  exact (view.keeps_readable).bind fun bytes => keeps_mapM fun index _ => view.keeps_scalarIn bytes index

theorem ArrayView.keeps_nestFrom (bytes : List UInt8) (shape index : List Nat) :
    Keeps R (view.nestFrom bytes shape index) := by
  induction shape generalizing index with
  | nil => exact (view.keeps_scalarIn bytes index).bind fun _ => keeps_pure _
  | cons dim shape ih =>
      refine (keeps_allocate _).bind fun _ => ?_
      exact (keeps_mapM fun i _ => ih (index ++ [i])).bind fun _ => keeps_pure _

theorem ArrayView.keeps_nested : Keeps R view.nested := by
  simp only [ArrayView.nested]
  exact (view.keeps_readable).bind fun bytes => view.keeps_nestFrom bytes _ _

end Reading

namespace ArrayView

variable (view : ArrayView)

theorem quiet_make (layout : Layout) {buffer : Buffer} (idle : buffer.access = .idle)
    (ownership : Ownership) : Keeps (σ := σ) Quiet (make layout buffer ownership) := by
  simp only [make]
  refine (keeps_read _).bind fun view => ?_
  refine (keeps_modify fun w => quiet_addBuffer idle).bind fun _ => ?_
  exact (quiet_log _).bind fun _ => keeps_pure _

theorem quiet_derive (layout : Layout) : Keeps (σ := σ) Quiet (view.derive layout) := by
  simp only [derive]
  refine (keeps_read _).bind fun id => ?_
  refine Keeps.bind (quiet_modify (fun _ => ?_) fun _ => ?_) fun _ => keeps_pure _
  · rfl
  · rfl

theorem keepsRoom_writeBytes (start : Nat) (fresh : List UInt8) :
    Keeps (σ := σ) KeepsRoom (view.writeBytes start fresh) :=
  keeps_modify fun _ => keepsRoom_setBuffer _ fun _ => overwrite_length _ _ _

theorem quiet_writeBytes {w : World σ} (unsealed : w.sealed? view.buffer = none) (start : Nat)
    (fresh : List UInt8) : w.Quiet (view.writeBytes start fresh w).2 :=
  quiet_setBuffer _ (fun _ => overwrite_length _ _ _) (fun _ => rfl) unsealed

theorem quiet_set (type : ElementType) (index : List Nat) (element : type.Carrier) :
    Keeps (σ := σ) Quiet (view.set type index element) := by
  simp only [set]
  refine (keeps_ofExcept _).bind fun _ => ?_
  refine (view.keeps_offsetOf index).bind fun offset w => ?_
  rcases allowed : view.writable w with ⟨outcome, after⟩
  obtain rfl := (view.keeps_writable (R := Eq)).ended allowed
  cases outcome with
  | returned bytes =>
      rw [bind_of_returned allowed]
      rcases bounded : bytesBetween bytes offset (offset + type.bytes) w with ⟨outcome, after⟩
      obtain rfl := (keeps_bytesBetween (R := Eq) bytes _ _).ended bounded
      cases outcome with
      | returned old =>
          rw [bind_of_returned bounded]
          exact view.quiet_writeBytes (view.unsealed_of_writable allowed) _ _
      | _ =>
          rw [world_of_stuck bounded nofun]
          exact refl_of Quiet w
  | _ =>
      rw [world_of_stuck allowed nofun]
      exact refl_of Quiet w

theorem quiet_copy : Keeps (σ := σ) Quiet view.copy := by
  simp only [copy]
  refine (view.keeps_readable).bind fun bytes => ?_
  refine (keeps_ofOption _ _).bind fun nbytes => ?_
  refine (keeps_allocate nbytes).bind fun _ => ?_
  refine (keeps_mapM fun index _ => view.keeps_elementBytes bytes index).bind fun data => ?_
  exact quiet_make _ rfl _

theorem quiet_wrap (data : List UInt8) (shape : List Nat) (strides : List Int) (dtype : DType) :
    Keeps (σ := σ) Quiet (wrap data shape strides dtype) := by
  simp only [wrap]
  refine (keeps_ofExcept _).bind fun _ => ?_
  refine (keeps_ofExcept _).bind fun layout => ?_
  exact (keeps_ofExcept _).bind fun _ => quiet_make _ rfl _

theorem quiet_ofElements (type : ElementType) (items : List type.Carrier) (shape : List Nat) :
    Keeps (σ := σ) Quiet (ofElements type items shape) := by
  unfold ofElements
  dsimp only
  split
  · exact keeps_fail _
  · exact quiet_make _ rfl _

theorem quiet_zeros (shape : List Nat) (dtype : DType) : Keeps (σ := σ) Quiet (zeros shape dtype) := by
  simp only [zeros]
  refine (keeps_ofExcept _).bind fun _ => ?_
  refine (keeps_ofOption _ _).bind fun nbytes => ?_
  exact (keeps_allocate nbytes).bind fun _ => quiet_make _ rfl _

theorem quiet_borrow (data : List UInt8) (layout : Layout) (readonly : Bool) (keeper : Keeper) :
    Keeps (σ := σ) Quiet (borrow data layout readonly keeper) := by
  simp only [borrow]
  refine (keeps_ofExcept _).bind fun _ => ?_
  exact (keeps_ofExcept _).bind fun _ => quiet_make _ rfl _

end ArrayView

theorem ArrayRequest.quiet_serve (request : ArrayRequest) : Keeps (σ := σ) Quiet request.serve := by
  cases request with
  | wrap data shape strides dtype =>
      exact (ArrayView.quiet_wrap data shape strides dtype).bind fun _ => keeps_pure _
  | zeros shape dtype => exact (ArrayView.quiet_zeros shape dtype).bind fun _ => keeps_pure _
  | ofElements type items shape =>
      exact (ArrayView.quiet_ofElements type items shape).bind fun _ => keeps_pure _
  | borrow data layout readonly keeper =>
      exact (ArrayView.quiet_borrow data layout readonly keeper).bind fun _ => keeps_pure _
  | copy view => exact (view.quiet_copy).bind fun _ => keeps_pure _
  | reshape view shape =>
      refine Keeps.bind ?_ fun _ => keeps_pure _
      exact (keeps_ofExcept _).bind fun _ => view.quiet_derive _
  | transpose view => exact (view.quiet_derive _).bind fun _ => keeps_pure _
  | slice view start stop =>
      refine Keeps.bind ?_ fun _ => keeps_pure _
      exact (keeps_ofAddress _).bind fun _ => view.quiet_derive _
  | get view type index => exact (view.keeps_get type index).bind fun _ => keeps_pure _
  | set view type index element =>
      exact (view.quiet_set type index element).bind fun _ => keeps_pure _
  | scalarAt view index => exact (view.keeps_scalarAt index).bind fun _ => keeps_pure _
  | elements view type => exact (view.keeps_elements type).bind fun _ => keeps_pure _
  | scalars view => exact (view.keeps_scalars).bind fun _ => keeps_pure _
  | nested view => exact view.keeps_nested

end Marshal
