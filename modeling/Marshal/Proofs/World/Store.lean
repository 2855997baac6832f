import Mathlib
import Marshal.Proofs.World.Inside
import Marshal.Proofs.World.Mutation

namespace Marshal

open World
open Act hiding pure bind

variable {σ : Type} {w after : World σ}

namespace ArrayView

variable {view : ArrayView} {type : ElementType} {index : List Nat} {buffer : Buffer}

theorem Inside.address (inside : view.Inside w) (found : w.buffer? view = some buffer)
    (within : Index.Within index view.shape) :
    view.layout.byteOffset index = .ok (some (view.layout.address index)) ∧
      view.layout.address index + view.dtype.size ≤ buffer.bytes.length := by
  obtain ⟨room, known, bounds⟩ := inside
  obtain ⟨offset, computed, fits⟩ := bounds index within
  cases known.symm.trans (room?_of_found found)
  have same := elementOffset_of_byteOffset computed
  simp only [Layout.elementOffset, Size.address] at same
  split at same
  · cases same
    exact ⟨computed, fits⟩
  · cases same

theorem Inside.reach (inside : view.Inside w) (typed : view.dtype = .number type)
    (found : w.buffer? view = some buffer) (within : Index.Within index view.shape) :
    view.layout.address index + type.bytes ≤ buffer.bytes.length := by
  have size : view.dtype.size = type.bytes := congrArg DType.size typed
  rw [← size]
  exact (inside.address found within).2

theorem Inside.offsetOf_apply (inside : view.Inside w) (found : w.buffer? view = some buffer)
    (within : Index.Within index view.shape) :
    (view.offsetOf index : Act σ Nat) = pure (view.layout.address index) := by
  simp only [ArrayView.offsetOf]
  rw [(inside.address found within).1]
  rfl

theorem Inside.get_apply (inside : view.Inside w) (typed : view.dtype = .number type)
    (found : w.buffer? view = some buffer) (unwritten : buffer.access ≠ .exclusive)
    (within : Index.Within index view.shape) :
    view.get type index w = (.returned (view.layout.valueAt type buffer.bytes index), w) := by
  have fits := inside.reach typed found within
  have checked : view.checkElement type = .ok () := by simp only [checkElement, typed, ↓reduceIte]
  have size : view.dtype.size = type.bytes := congrArg DType.size typed
  simp only [ArrayView.get, ArrayView.elementAt]
  rw [checked, ofExcept_ok, pure_bind, inside.offsetOf_apply found within, pure_bind,
    bind_of_returned (readable_apply found unwritten), size, bytesBetween_of_le (Nat.le_add_right _ _) fits,
    pure_bind, Nat.add_sub_cancel_left]
  rfl

/-- Writing an element of memory that nobody uses and that is not read-only. -/
theorem Inside.set_apply (inside : view.Inside w) (typed : view.dtype = .number type)
    (found : w.buffer? view = some buffer) (unsealed : buffer.isReadonly = false)
    (idle : buffer.access = .idle) (within : Index.Within index view.shape) (x : type.Carrier) :
    view.set type index x w =
      (.returned (), w.mutated view.buffer
        (overwrite buffer.bytes (view.layout.address index) (type.write x)) []) := by
  have fits := inside.reach typed found within
  have checked : view.checkElement type = .ok () := by simp only [checkElement, typed, ↓reduceIte]
  simp only [ArrayView.set]
  rw [checked, ofExcept_ok, pure_bind, inside.offsetOf_apply found within, pure_bind,
    bind_of_returned (writable_apply found unsealed idle), bytesBetween_of_le (Nat.le_add_right _ _) fits,
    pure_bind, writeBytes_apply found]

theorem Inside.sets (inside : view.Inside w) (typed : view.dtype = .number type)
    (within : Index.Within index view.shape) (idle : w.bufferAccess view.buffer = .idle)
    (unsealed : w.sealed? view.buffer = none) (x : type.Carrier) :
    ∃ after, view.set type index x w = (.returned (), after) := by
  have ⟨room, known, _⟩ := inside
  obtain ⟨buffer, found, _⟩ := Option.map_eq_some_iff.mp known
  have unused : buffer.access = .idle := by
    simpa only [bufferAccess, found, Option.map_some, Option.getD_some] using idle
  have writable : buffer.isReadonly = false := by simpa [sealed?, found] using unsealed
  exact ⟨_, inside.set_apply typed found writable unused within x⟩

theorem readable_congr (same : after.buffer? view = w.buffer? view) :
    (∃ bytes, view.readable w = (.returned bytes, w) ∧ view.readable after = (.returned bytes, after)) ∨
      ∃ e, view.readable w = (.failed e, w) ∧ view.readable after = (.failed e, after) := by
  have memory : ∀ now : World σ,
      view.memory now = (.returned ((now.buffer? view).getD (ownedBuffer [])), now) := fun _ => rfl
  simp only [ArrayView.readable]
  rw [bind_of_returned (memory w), bind_of_returned (memory after), same]
  cases ((w.buffer? view).getD (ownedBuffer [])).access.share? with
  | none => exact .inr ⟨_, rfl, rfl⟩
  | some access => exact .inl ⟨_, rfl, rfl⟩

/-- What is read depends on the memory of the view only. -/
theorem get_congr (same : after.buffer? view = w.buffer? view) :
    (view.get type index after).1 = (view.get type index w).1 := by
  simp only [ArrayView.get, ArrayView.offsetOf]
  cases view.checkElement type with
  | error e => rfl
  | ok _ =>
      rw [ofExcept_ok, pure_bind]
      rcases view.layout.byteOffset index with (e | _) | (_ | offset)
      · rfl
      · rfl
      · rfl
      · simp only [ofAddress_ok, pure_bind, ofOption_some]
        rcases readable_congr same with ⟨bytes, before, now⟩ | ⟨e, before, now⟩
        · rw [bind_of_returned before, bind_of_returned now]
          simp only [ArrayView.elementAt, bytesBetween]
          split
          · rfl
          · split <;> rfl
        · rw [bind_of_failed before, bind_of_failed now]

/-- What writing an element does, if it is done. -/
theorem Inside.returned_of_set {x : type.Carrier} (inside : view.Inside w)
    (done : view.set type index x w = (.returned (), after)) :
    view.dtype = .number type ∧ Index.Within index view.shape ∧
      ∃ buffer, w.buffer? view = some buffer ∧ buffer.access = .idle ∧
        after = w.mutated view.buffer
          (overwrite buffer.bytes (view.layout.address index) (type.write x)) [] := by
  simp only [ArrayView.set] at done
  obtain ⟨_, _, accepted, located⟩ := returned_of_bind done
  obtain ⟨checked, rfl⟩ := returned_of_ofExcept accepted
  have typed := dtype_of_checkElement type checked
  rcases inside.offsetOf index with ⟨e, refused⟩ | ⟨within, offset, computed, known⟩
  · rw [refused] at located
    cases located
  · rw [computed, pure_bind] at located
    obtain ⟨bytes, _, borrowed, bounded⟩ := returned_of_bind located
    obtain ⟨rfl, buffer, found, idle, rfl⟩ := inside.writable borrowed
    cases known.symm.trans (inside.address found within).1
    have fits := inside.reach typed found within
    rw [bytesBetween_of_le (Nat.le_add_right _ _) fits, pure_bind, writeBytes_apply found] at bounded
    cases bounded
    exact ⟨typed, within, buffer, found, idle, rfl⟩

section Sharing

variable {reader : ArrayView} {other : List Nat} {x : type.Carrier} (inside : view.Inside w)
  (done : view.set type index x w = (.returned (), after))

include inside done

/-- Memory that is not the writer's stays as it is. -/
theorem Inside.buffer?_after_set (separate : reader.buffer ≠ view.buffer) :
    after.buffer? reader = w.buffer? reader := by
  obtain ⟨_, _, buffer, _, _, rfl⟩ := inside.returned_of_set done
  exact buffer?_mutated_of_ne separate _ _

variable (readable : reader.Inside w) (shared : reader.buffer = view.buffer)
  (sameType : reader.dtype = view.dtype) (within : Index.Within other reader.shape)

include readable shared sameType within

/-- A reader of the same memory finds its elements there, before and after. -/
private theorem Inside.gets_around_set :
    ∃ buffer : Buffer, view.layout.address index + type.bytes ≤ buffer.bytes.length ∧
      reader.get type other w = (.returned (reader.layout.valueAt type buffer.bytes other), w) ∧
      reader.get type other after =
        (.returned (reader.layout.valueAt type
          (overwrite buffer.bytes (view.layout.address index) (type.write x)) other), after) := by
  have later := readable.later (((view.quiet_set type index x).room).ended done)
  obtain ⟨typed, withinView, buffer, found, idle, rfl⟩ := inside.returned_of_set done
  have readerTyped := sameType.trans typed
  have foundReader : w.buffer? reader = some buffer := by
    simp only [buffer?, shared]
    exact found
  have fits := inside.reach typed found withinView
  refine ⟨buffer, fits, readable.get_apply readerTyped foundReader (by simp [idle]) within, ?_⟩
  have foundAfter := buffer?_mutated foundReader
    (overwrite buffer.bytes (view.layout.address index) (type.write x)) []
  rw [← shared] at later ⊢
  exact later.get_apply readerTyped foundAfter (by simp [idle]) within

theorem Inside.get_written (same : reader.layout.address other = view.layout.address index) :
    reader.get type other after = (.returned x, after) := by
  obtain ⟨buffer, fits, _, read⟩ := inside.gets_around_set done readable shared sameType within
  rw [read, Layout.valueAt, ← same, Layout.bytesAt_overwrite (type.write_length x) (by omega),
    ElementType.read_write]

theorem Inside.get_unwritten
    (apart : view.layout.address index + type.bytes ≤ reader.layout.address other ∨
      reader.layout.address other + type.bytes ≤ view.layout.address index) :
    ∃ old, reader.get type other w = (.returned old, w) ∧
      reader.get type other after = (.returned old, after) := by
  obtain ⟨buffer, fits, before, read⟩ := inside.gets_around_set done readable shared sameType within
  refine ⟨_, before, ?_⟩
  rw [read, Layout.valueAt, Layout.bytesAt_overwrite_of_apart (type.write_length x) fits apart]
  rfl

end Sharing

end ArrayView

end Marshal
