import Mathlib
import Marshal.Proofs.Array.Replace
import Marshal.Proofs.World.Bytes
import Marshal.Proofs.World.Quiet

namespace Marshal

open Act hiding pure bind

variable {σ α : Type} {w after : World σ}

namespace World

/-- The world with other bytes in a buffer and more events in the journal. -/
def mutated (w : World σ) (index : Nat) (bytes : List UInt8) (events : List Event) : World σ :=
  { w.setBuffer index fun b => { b with bytes } with journal := events ++ w.journal }

theorem mutated_mutated (index : Nat) (first second : List UInt8) (earlier later : List Event) :
    (w.mutated index first earlier).mutated index second later =
      w.mutated index second (later ++ earlier) := by
  simp only [mutated, setBuffer, List.modify_modify_eq, List.append_assoc]
  rfl

theorem buffer?_mutated {view : ArrayView} {buffer : Buffer} (found : w.buffer? view = some buffer)
    (bytes : List UInt8) (events : List Event) :
    (w.mutated view.buffer bytes events).buffer? view = some { buffer with bytes } := by
  have there : w.buffers[view.buffer]? = some buffer := found
  simp [mutated, setBuffer, buffer?, there]

theorem buffer?_mutated_of_ne {view : ArrayView} {index : Nat} (ne : view.buffer ≠ index) (bytes : List UInt8)
    (events : List Event) : (w.mutated index bytes events).buffer? view = w.buffer? view := by
  simp only [mutated, setBuffer, buffer?, List.getElem?_modify, Ne.symm ne, ↓reduceIte, Option.map_eq_map,
    Option.map_id']

theorem mutated_self {view : ArrayView} {buffer : Buffer} (found : w.buffer? view = some buffer) :
    w.mutated view.buffer buffer.bytes [] = w := by
  have there : w.buffers[view.buffer]? = some buffer := found
  have same : ({ buffer with bytes := buffer.bytes } : Buffer) = buffer := rfl
  simp only [mutated, setBuffer, List.nil_append]
  rw [modify_of_same there same]

end World

namespace Act

theorem succeeds_address (n : Nat) : Succeeds (ofAddress (Size.address n) : Act σ Nat) := by
  simp only [Size.address]
  split
  · exact succeeds_pure _
  · exact succeeds_panic _

theorem succeeds_bytesBetween (bytes : List UInt8) (start stop : Nat) :
    Succeeds (bytesBetween bytes start stop : Act σ (List UInt8)) := by
  simp only [bytesBetween]
  split
  · exact succeeds_panic _
  · split
    · exact succeeds_panic _
    · exact succeeds_pure _

end Act

namespace Layout

variable {layout : Layout} {length : Nat}

/-- What a layout accepts for a buffer lies inside the buffer and inside the range of sizes. -/
theorem validate_inside (valid : layout.validate length = .ok ()) (inhabited : 0 ∉ layout.shape)
    {index : List Nat} (within : Index.Within index layout.shape) :
    layout.elementOffset index = .ok (layout.address index) ∧
      layout.address index + layout.dtype.size ≤ length := by
  obtain ⟨_, _, extent, computed, inside⟩ := validate_eq_ok.mp valid
  obtain ⟨last, small⟩ := (byteExtent_eq_ok inhabited).mp computed
  have below := address_le_last within
  refine ⟨?_, by omega⟩
  simp only [elementOffset, Size.address]
  rw [if_pos (by omega)]

end Layout

namespace ArrayView

variable {view : ArrayView} {type : ElementType} {buffer : Buffer}

/-- A pure function on elements, whose calls can be told by the events that they write to the journal. -/
def noting (f : type.Carrier → type.Carrier) (calls : type.Carrier → List Event) (old : type.Carrier) :
    Act σ type.Carrier := fun w =>
  (.returned (f old), { w with journal := calls old ++ w.journal })

/-- The buffer of the view can be written, nobody is using it, and the elements of the view are in it,
at least one and none sharing a byte with another one. -/
structure Mutable (view : ArrayView) (w : World σ) (buffer : Buffer) : Prop where
  found : w.buffer? view = some buffer
  writable : buffer.isReadonly = false
  idle : buffer.access = .idle
  valid : view.layout.validate buffer.bytes.length = .ok ()
  inhabited : 0 ∉ view.shape
  apart : ∀ i j, Index.Within i view.shape → Index.Within j view.shape → i ≠ j →
    view.layout.Apart view.dtype.size i j

variable {f : type.Carrier → type.Carrier} {calls : type.Carrier → List Event}

theorem elementNow_apply {index : List Nat} (typed : view.dtype = .number type)
    (found : w.buffer? view = some buffer)
    (offset : view.layout.elementOffset index = .ok (view.layout.address index))
    (inside : view.layout.address index + type.bytes ≤ buffer.bytes.length) :
    view.elementNow type index w =
      (.returned (view.layout.address index, view.layout.valueAt type buffer.bytes index), w) := by
  have size : view.dtype.size = type.bytes := by rw [typed]; rfl
  simp only [elementNow, elementAt, offset, size]
  rw [bind_of_returned (memory_apply found), ofAddress_ok, pure_bind,
    bytesBetween_of_le (Nat.le_add_right _ _) inside, pure_bind, Nat.add_sub_cancel_left]
  rfl

theorem writeBytes_apply (found : w.buffer? view = some buffer) (start : Nat) (fresh : List UInt8) :
    view.writeBytes start fresh w =
      (.returned (), w.mutated view.buffer (overwrite buffer.bytes start fresh) []) := by
  have there : w.buffers[view.buffer]? = some buffer := found
  have same : w.setBuffer view.buffer (fun b => { b with bytes := overwrite b.bytes start fresh }) =
      w.setBuffer view.buffer fun b => { b with bytes := overwrite buffer.bytes start fresh } :=
    World.setBuffer_congr there rfl
  simp only [writeBytes, modify_apply, same]
  rfl

/-- The events of replacing the elements at these indices, one after the other. -/
def called (view : ArrayView) (type : ElementType) (f : type.Carrier → type.Carrier)
    (calls : type.Carrier → List Event) : List (List Nat) → List UInt8 → List Event
  | [], _ => []
  | index :: rest, bytes =>
    called view type f calls rest (overwrite bytes (view.layout.address index)
        (type.write (f (view.layout.valueAt type bytes index)))) ++
      calls (view.layout.valueAt type bytes index)

theorem called_silent {indices : List (List Nat)} {bytes : List UInt8} :
    view.called type f (fun _ => []) indices bytes = [] := by
  induction indices generalizing bytes with
  | nil => rfl
  | cons index rest ih => rw [called, ih, List.append_nil]

theorem replaceElements_noting {indices : List (List Nat)} (typed : view.dtype = .number type)
    (found : w.buffer? view = some buffer)
    (offsets : ∀ index ∈ indices, view.layout.elementOffset index = .ok (view.layout.address index))
    (inside : ∀ index ∈ indices, view.layout.address index + type.bytes ≤ buffer.bytes.length) :
    view.replaceElements type (fun old => do return (← noting f calls old, ())) indices w =
      (.returned (indices.map fun _ => ()),
        w.mutated view.buffer (view.layout.replaced type f indices buffer.bytes)
          (view.called type f calls indices buffer.bytes)) := by
  induction indices generalizing w buffer with
  | nil =>
      rw [Layout.replaced, called, List.map_nil, World.mutated_self found]
      rfl
  | cons index rest ih =>
      simp only [List.forall_mem_cons] at offsets inside
      set old := view.layout.valueAt type buffer.bytes index with was
      set fresh := type.write (f old) with made
      set bytes := overwrite buffer.bytes (view.layout.address index) fresh with written
      have foundNext := World.buffer?_mutated found bytes (calls old)
      have insideNext : ∀ index ∈ rest, view.layout.address index + type.bytes ≤ bytes.length := by
        simpa only [written, overwrite_length] using inside.2
      have loop := ih foundNext offsets.2 insideNext
      have called : (do return (← noting f calls old, ()) : Act σ (type.Carrier × Unit)) w =
          (.returned (f old, ()), { w with journal := calls old ++ w.journal }) := rfl
      have wrote : view.writeBytes (view.layout.address index) fresh
          { w with journal := calls old ++ w.journal } =
            (.returned (), w.mutated view.buffer bytes (calls old)) :=
        writeBytes_apply (w := { w with journal := calls old ++ w.journal }) found _ _
      rw [replaceElements, bind_of_returned (elementNow_apply typed found offsets.1 inside.1)]
      dsimp only
      rw [bind_of_returned called]
      dsimp only
      rw [bind_of_returned wrote, bind_of_returned loop, World.mutated_mutated]
      rfl

/-- Where no two elements share a byte, the function is called once for each of them, on the element as it was
before the first call. -/
theorem called_of_apart {indices : List (List Nat)} {bytes : List UInt8}
    (inside : ∀ index ∈ indices, view.layout.address index + type.bytes ≤ bytes.length)
    (apart : indices.Pairwise (view.layout.Apart type.bytes)) :
    view.called type f calls indices bytes =
      (indices.map fun index => calls (view.layout.valueAt type bytes index)).reverse.flatten := by
  induction indices generalizing bytes with
  | nil => rfl
  | cons index rest ih =>
      simp only [List.forall_mem_cons] at inside
      obtain ⟨apartFirst, apartRest⟩ := List.pairwise_cons.mp apart
      set fresh := type.write (f (view.layout.valueAt type bytes index)) with made
      have count : fresh.length = type.bytes := ElementType.write_length type _
      have insideNext : ∀ other ∈ rest, view.layout.address other + type.bytes ≤
          (overwrite bytes (view.layout.address index) fresh).length := by
        simpa only [overwrite_length] using inside.2
      have values : rest.map (fun other => calls (view.layout.valueAt type
            (overwrite bytes (view.layout.address index) fresh) other)) =
          rest.map fun other => calls (view.layout.valueAt type bytes other) := by
        refine List.map_congr_left fun other member => ?_
        rw [Layout.valueAt, Layout.bytesAt_overwrite_of_apart count inside.1 (apartFirst other member),
          ← Layout.valueAt]
      rw [called, ← made, ih insideNext apartRest, values]
      simp only [List.map_cons, List.reverse_cons, List.flatten_append, List.flatten_cons, List.flatten_nil,
        List.append_nil]

namespace Mutable

theorem later {bytes : List UInt8} (mutable : view.Mutable w buffer)
    (length : bytes.length = buffer.bytes.length) (events : List Event) :
    view.Mutable (w.mutated view.buffer bytes events) { buffer with bytes } where
  found := World.buffer?_mutated mutable.found bytes events
  writable := mutable.writable
  idle := mutable.idle
  valid := length ▸ mutable.valid
  inhabited := mutable.inhabited
  apart := mutable.apart

theorem of_buffers (mutable : view.Mutable w buffer) (same : after.buffers = w.buffers) :
    view.Mutable after buffer where
  found := (congrArg (·[view.buffer]?) same).trans mutable.found
  writable := mutable.writable
  idle := mutable.idle
  valid := mutable.valid
  inhabited := mutable.inhabited
  apart := mutable.apart

variable (mutable : view.Mutable w buffer) (typed : view.dtype = .number type)

include mutable typed

theorem inside {index : List Nat} (member : index ∈ Index.all view.shape) :
    view.layout.address index + type.bytes ≤ buffer.bytes.length := by
  have size : view.layout.dtype.size = type.bytes := congrArg DType.size typed
  rw [← size]
  exact (Layout.validate_inside mutable.valid mutable.inhabited (Index.within_of_mem_all member)).2

theorem pairwise : (Index.all view.shape).Pairwise (view.layout.Apart type.bytes) := by
  have size : view.layout.dtype.size = type.bytes := congrArg DType.size typed
  refine (Index.nodup_all _).pairwise_of_forall_ne fun i thereI j thereJ ne => ?_
  rw [← size]
  exact mutable.apart i j (Index.within_of_mem_all thereI) (Index.within_of_mem_all thereJ) ne

theorem replaces (f : type.Carrier → type.Carrier) :
    view.layout.Replaces type f buffer.bytes
      (view.layout.replaced type f (Index.all view.shape) buffer.bytes) where
  length := Layout.replaced_length
  element _ within := Layout.bytesAt_replaced (fun _ => mutable.inside typed) (mutable.pairwise typed)
    ((Index.mem_all mutable.inhabited).mpr within)
  outside _ between := Layout.replaced_between (fun _ => mutable.inside typed) between

end Mutable

theorem writable_apply (found : w.buffer? view = some buffer) (unsealed : buffer.isReadonly = false)
    (idle : buffer.access = .idle) : view.writable w = (.returned buffer.bytes, w) := by
  unfold writable
  rw [bind_of_returned (memory_apply found)]
  simp only [unsealed, idle, Bool.false_eq_true, ↓reduceIte, Access.seize?, ofOption_some, pure_bind]
  rfl

theorem whileHeld_mutated (found : w.buffer? view = some buffer) (idle : buffer.access = .idle)
    {act : Act σ α} {a : α} {bytes : List UInt8} {events : List Event}
    (ran : ∀ held : World σ, held.buffer? view = some { buffer with access := .exclusive } →
      act held = (.returned a, held.mutated view.buffer bytes events)) :
    view.whileHeld true act w = (.returned a, w.mutated view.buffer bytes events) := by
  have there : w.buffers[view.buffer]? = some buffer := found
  have entered : (view.setAccess (fun access => (access.enter? true).getD access) w).buffer? view =
      some { buffer with access := .exclusive } := by
    simp only [setAccess, World.setBuffer, World.buffer?, List.getElem?_modify_eq, there,
      Option.map_eq_map, Option.map_some, idle]
    rfl
  have ended := ran _ entered
  simp only [whileHeld, bracket, ended]
  refine congrArg (Prod.mk _) ?_
  simp only [setAccess, World.mutated, World.setBuffer, List.modify_modify_eq]
  congr 1
  refine World.modify_congr there ?_
  simp only [Function.comp_apply, idle]
  rfl

/-- What replacing the elements of a view writes to the journal in the end. -/
def mutating (view : ArrayView) : Event :=
  ⟨.trace, .array, "mutated array in place", [.ofNat "id" view.id, .ofNat "elements" view.layout.size]⟩

/-- What is not refused for its overlap is replaced, element by element, whether elements share bytes or
not. -/
theorem mapElements_returns (typed : view.dtype = .number type) (found : w.buffer? view = some buffer)
    (unsealed : buffer.isReadonly = false) (idle : buffer.access = .idle)
    (valid : view.layout.validate buffer.bytes.length = .ok ()) (moving : view.layout.hasOverlap = false) :
    view.mapElements type (noting f calls) w =
      (.returned (), w.mutated view.buffer (view.layout.replaced type f (Index.all view.shape) buffer.bytes)
        (view.mutating :: view.called type f calls (Index.all view.shape) buffer.bytes)) := by
  have checked : view.checkElement type = .ok () := by simp only [checkElement, typed, ↓reduceIte]
  have size : view.layout.dtype.size = type.bytes := congrArg DType.size typed
  have placed : ∀ index ∈ Index.all view.shape,
      view.layout.elementOffset index = .ok (view.layout.address index) ∧
        view.layout.address index + type.bytes ≤ buffer.bytes.length := by
    intro index member
    have within := Index.within_of_mem_all member
    rw [← size]
    exact Layout.validate_inside valid (Index.Within.inhabited within) within
  have loop : view.whileHeld true (view.replaceElements type
      (fun old => do return (← noting f calls old, ())) (Index.all view.shape)) w = (.returned _, _) :=
    whileHeld_mutated found idle fun held there => replaceElements_noting typed there
      (fun index member => (placed index member).1) fun index member => (placed index member).2
  simp only [mapElements, updateElements, checked, ofExcept_ok, pure_bind, moving, Bool.false_eq_true,
    ↓reduceIte]
  rw [bind_assoc, bind_of_returned (writable_apply found unsealed idle), bind_assoc, bind_of_returned loop]
  rfl

theorem mapElements_noting (typed : view.dtype = .number type) (mutable : view.Mutable w buffer) :
    view.mapElements type (noting f calls) w =
      (.returned (), w.mutated view.buffer (view.layout.replaced type f (Index.all view.shape) buffer.bytes)
        (view.mutating :: ((Index.all view.shape).map fun index =>
          calls (view.layout.valueAt type buffer.bytes index)).reverse.flatten)) := by
  have moving : view.layout.hasOverlap = false :=
    Layout.hasOverlap_of_apart view.layout.dtype.size_pos mutable.inhabited mutable.apart
  rw [mapElements_returns typed mutable.found mutable.writable mutable.idle mutable.valid moving,
    called_of_apart (fun _ => mutable.inside typed) (mutable.pairwise typed)]

theorem succeeds_elementNow (index : List Nat) :
    Succeeds (view.elementNow type index : Act σ (Nat × type.Carrier)) := by
  simp only [elementNow, elementAt]
  refine (succeeds_read _).bind fun found => (succeeds_address _).bind fun offset => ?_
  exact (succeeds_bytesBetween _ _ _).bind fun _ => succeeds_pure _

theorem succeeds_replaceElements (indices : List (List Nat)) :
    Succeeds (view.replaceElements type (fun old => do return (← noting f calls old, ())) indices :
      Act σ (List Unit)) := by
  have called (old : type.Carrier) : Succeeds (noting f calls old : Act σ type.Carrier) := by
    rintro w e after ⟨⟩
  induction indices with
  | nil => exact succeeds_pure _
  | cons index rest ih =>
      refine (succeeds_elementNow index).bind fun found => ?_
      refine ((called _).bind fun _ => succeeds_pure _).bind fun made => ?_
      exact (succeeds_modify _).bind fun _ => ih.bind fun _ => succeeds_pure _

/-- Where replacing the elements is refused, nothing changes. -/
theorem refuses_mapElements : Refuses (view.mapElements type (noting f calls) : Act σ Unit) := by
  have checked : Keeps (σ := σ) Eq (ofExcept (view.checkElement type)) := keeps_ofExcept _
  simp only [mapElements, updateElements, bind_assoc]
  refine Refuses.after_keeps checked fun _ => ?_
  split
  · rw [fail_bind]
    exact refuses_fail _
  · rw [bind_assoc]
    refine Refuses.after_keeps view.keeps_writable fun _ => Succeeds.refuses ?_
    rw [bind_assoc]
    refine ((succeeds_replaceElements _).bracket _ _).bind fun _ => ?_
    exact (succeeds_modify _).bind fun _ => succeeds_pure _

end ArrayView

end Marshal
