import Mathlib
import Marshal.Proofs.World.Bytes
import Marshal.Proofs.World.Quiet

/-!
# Views inside their buffers

A view is inside its buffer when every index of its shape leads to bytes of the buffer.  Buffers keep
their sizes, so that a view stays inside.  Nothing that reads or writes elements of such a view
panics over an index: what panics is the caller's own code, or a request for too much room.
-/

namespace Marshal

open World
open Act hiding pure bind

variable {σ α : Type} {view : ArrayView} {w after : World σ} {index : List Nat}

namespace ArrayView

/-- Every element of the view lies inside its buffer. -/
def Inside (view : ArrayView) (w : World σ) : Prop :=
  ∃ room, w.room? view.buffer = some room ∧
    ∀ index, Index.Within index view.shape →
      ∃ offset, view.layout.byteOffset index = .ok (some offset) ∧ offset + view.dtype.size ≤ room

theorem Inside.later (inside : view.Inside w) (kept : w.KeepsRoom after) : view.Inside after := by
  obtain ⟨room, known, within⟩ := inside
  exact ⟨room, kept _ _ known, within⟩

theorem Inside.of_fits {length : Nat} (known : w.room? view.buffer = some length)
    (bounded : length ≤ Size.max) (fits : 0 ∉ view.shape → view.layout.Fits length) :
    view.Inside w := by
  refine ⟨length, known, fun index within => ?_⟩
  have fits := fits within.inhabited
  exact ⟨_, fits.byteOffset bounded within, fits.inside index within⟩

theorem elementOffset_of_byteOffset {offset : Nat}
    (found : view.layout.byteOffset index = .ok (some offset)) :
    view.layout.elementOffset index = .ok offset := by
  simp only [Layout.byteOffset] at found
  split at found
  · cases computed : view.layout.elementOffset index with
    | error fault =>
        rw [computed] at found
        cases found
    | ok address =>
        rw [computed] at found
        cases found
        rfl
  · cases found

/-- An index out of bounds is refused; any other one has an offset inside the buffer. -/
theorem Inside.offsetOf (inside : view.Inside w) (index : List Nat) :
    (∃ e, (view.offsetOf index : Act σ Nat) = Act.fail e) ∨
      Index.Within index view.shape ∧ ∃ offset, (view.offsetOf index : Act σ Nat) = pure offset ∧
        view.layout.byteOffset index = .ok (some offset) := by
  obtain ⟨room, known, within⟩ := inside
  simp only [ArrayView.offsetOf]
  by_cases bounds : Index.Within index view.shape
  · obtain ⟨offset, found, _⟩ := within index bounds
    rw [found]
    exact .inr ⟨bounds, offset, rfl, rfl⟩
  · rw [Layout.byteOffset_of_outside bounds]
    exact .inl ⟨_, rfl⟩

theorem room?_of_found {buffer : Buffer} (found : w.buffer? view = some buffer) :
    w.room? view.buffer = some buffer.bytes.length :=
  congrArg (Option.map fun buffer : Buffer => buffer.bytes.length) found

theorem Inside.readable (inside : view.Inside w) {bytes : List UInt8}
    (read : view.readable w = (.returned bytes, after)) :
    after = w ∧ w.room? view.buffer = some bytes.length := by
  obtain ⟨room, known, _⟩ := inside
  obtain ⟨buffer, found, rfl⟩ := Option.map_eq_some_iff.mp known
  simp only [ArrayView.readable] at read
  rw [Act.bind_of_returned (memory_apply found)] at read
  cases shared : buffer.access.share? with
  | none =>
      rw [shared] at read
      cases read
  | some access =>
      rw [shared] at read
      cases read
      exact ⟨rfl, known⟩

theorem Inside.elementBytes (inside : view.Inside w) {bytes : List UInt8}
    (known : w.room? view.buffer = some bytes.length) (within : Index.Within index view.shape) :
    ∃ element, (view.elementBytes bytes index : Act σ (List UInt8)) = pure element := by
  obtain ⟨room, same, bounds⟩ := inside
  cases known.symm.trans same
  obtain ⟨offset, found, fits⟩ := bounds index within
  simp only [ArrayView.elementBytes, elementAt]
  rw [elementOffset_of_byteOffset found, ofAddress_ok, pure_bind,
    bytesBetween_of_le (Nat.le_add_right _ _) fits]
  exact ⟨_, rfl⟩

variable {allowed : Payload → Prop}

theorem Inside.elementAt (inside : view.Inside w) {bytes : List UInt8} {offset : Nat}
    (known : w.room? view.buffer = some bytes.length) (within : Index.Within index view.shape)
    (found : view.layout.byteOffset index = .ok (some offset)) :
    ∃ element, (bytesBetween bytes offset (offset + view.dtype.size) : Act σ (List UInt8)) =
      pure element := by
  obtain ⟨room, same, bounds⟩ := inside
  cases known.symm.trans same
  obtain ⟨other, foundOther, fits⟩ := bounds index within
  cases found.symm.trans foundOther
  exact ⟨_, bytesBetween_of_le (Nat.le_add_right _ _) fits⟩

theorem Inside.scalarIn (inside : view.Inside w) {bytes : List UInt8}
    (known : w.room? view.buffer = some bytes.length) (within : Index.Within index view.shape)
    (now : World σ) : PanicsOnly allowed (view.scalarIn bytes index) now := by
  obtain ⟨element, read⟩ := inside.elementBytes known within
  simp only [ArrayView.scalarIn]
  rw [read, pure_bind]
  exact panicsOnly_ofOption _ _

theorem panicsOnly_readable : PanicsOnly allowed view.readable w := by
  simp only [readable]
  refine (panicsOnly_read _).bind fun buffer _ _ => ?_
  exact (panicsOnly_ofOption _ _).bind fun _ _ _ => panicsOnly_pure _

theorem panicsOnly_writable : PanicsOnly allowed view.writable w := by
  unfold writable
  refine (panicsOnly_read _).bind fun buffer _ _ => ?_
  dsimp only
  split
  · exact panicsOnly_fail _
  · exact (panicsOnly_ofOption _ _).bind fun _ _ _ => panicsOnly_pure _

theorem Inside.panicsOnly_offsetOf {next : Nat → Act σ α} (inside : view.Inside w)
    (rest : ∀ offset, Index.Within index view.shape →
      view.layout.byteOffset index = .ok (some offset) → PanicsOnly allowed (next offset) w) :
    PanicsOnly allowed (view.offsetOf index >>= next) w := by
  rcases inside.offsetOf index with ⟨e, refused⟩ | ⟨within, offset, computed, found⟩
  · rw [refused, fail_bind]
    exact panicsOnly_fail e
  · rw [computed, pure_bind]
    exact rest offset within found

theorem Inside.panicsOnly_readable {next : List UInt8 → Act σ α} (inside : view.Inside w)
    (rest : ∀ bytes, w.room? view.buffer = some bytes.length → PanicsOnly allowed (next bytes) w) :
    PanicsOnly allowed (view.readable >>= next) w := by
  refine ArrayView.panicsOnly_readable.bind fun bytes after read => ?_
  obtain ⟨rfl, known⟩ := inside.readable read
  exact rest bytes known

variable (type : ElementType)

theorem Inside.get (inside : view.Inside w) (index : List Nat) :
    PanicsOnly (fun _ => False) (view.get type index) w := by
  simp only [ArrayView.get]
  refine panicsOnly_ofExcept_bind fun _ _ => ?_
  refine inside.panicsOnly_offsetOf fun offset within found => ?_
  refine inside.panicsOnly_readable fun bytes known => ?_
  obtain ⟨element, read⟩ := inside.elementAt known within found
  simp only [ArrayView.elementAt]
  rw [read, pure_bind]
  exact panicsOnly_pure _

theorem Inside.writable (inside : view.Inside w) {bytes : List UInt8}
    (written : view.writable w = (.returned bytes, after)) :
    after = w ∧ ∃ buffer, w.buffer? view = some buffer ∧ buffer.access = .idle ∧ buffer.bytes = bytes := by
  obtain ⟨room, known, _⟩ := inside
  obtain ⟨buffer, found, rfl⟩ := Option.map_eq_some_iff.mp known
  unfold ArrayView.writable at written
  rw [Act.bind_of_returned (memory_apply found)] at written
  dsimp only at written
  split at written
  · cases written
  · cases held : buffer.access with
    | idle =>
        rw [held] at written
        cases written
        exact ⟨rfl, buffer, found, held, rfl⟩
    | _ =>
        rw [held] at written
        cases written

theorem dtype_of_checkElement (checked : view.checkElement type = .ok ()) :
    view.dtype = .number type := by
  simp only [checkElement] at checked
  split at checked
  · assumption
  · cases checked

theorem Inside.set (inside : view.Inside w) (index : List Nat) (element : type.Carrier) :
    PanicsOnly (fun _ => False) (view.set type index element) w := by
  simp only [ArrayView.set]
  refine panicsOnly_ofExcept_bind fun _ checked => ?_
  have typed := dtype_of_checkElement type checked
  refine inside.panicsOnly_offsetOf fun offset within found => ?_
  refine panicsOnly_writable.bind fun bytes after written => ?_
  obtain ⟨rfl, buffer, there, _, rfl⟩ := inside.writable written
  have known := room?_of_found there
  obtain ⟨old, read⟩ := inside.elementAt known within found
  rw [typed] at read
  change PanicsOnly _ (bytesBetween buffer.bytes offset (offset + (DType.number type).size) >>= _) _
  rw [read, pure_bind]
  exact panicsOnly_modify _

theorem Inside.scalarAt (inside : view.Inside w) (index : List Nat) :
    PanicsOnly (fun _ => False) (view.scalarAt index) w := by
  simp only [ArrayView.scalarAt]
  refine inside.panicsOnly_offsetOf fun _ within _ => ?_
  exact inside.panicsOnly_readable fun bytes known => inside.scalarIn known within w

theorem Inside.elements (inside : view.Inside w) :
    PanicsOnly (fun _ => False) (view.elements type) w := by
  simp only [ArrayView.elements]
  refine panicsOnly_ofExcept_bind fun _ _ => ?_
  refine inside.panicsOnly_readable fun bytes known => ?_
  refine panicsOnly_mapM fun index member now => ?_
  obtain ⟨element, read⟩ := inside.elementBytes known (Index.within_of_mem_all member)
  rw [read, pure_bind]
  exact panicsOnly_pure _

theorem Inside.scalars (inside : view.Inside w) :
    PanicsOnly (fun _ => False) view.scalars w := by
  simp only [ArrayView.scalars]
  refine inside.panicsOnly_readable fun bytes known => ?_
  exact panicsOnly_mapM fun index member now =>
    inside.scalarIn known (Index.within_of_mem_all member) now

theorem panicsOnly_allocate (count : Nat) :
    PanicsOnly (· = .text "capacity overflow") (allocate count : Act σ Unit) w := by
  simp only [allocate]
  split
  · rintro p after ⟨⟩
    rfl
  · exact panicsOnly_pure _

theorem Inside.copy (inside : view.Inside w) :
    PanicsOnly (· = .text "capacity overflow") view.copy w := by
  simp only [ArrayView.copy]
  refine inside.panicsOnly_readable fun bytes known => ?_
  refine panicsOnly_ofOption_bind fun nbytes _ => ?_
  refine (panicsOnly_allocate nbytes).bind fun _ _ _ => ?_
  refine (panicsOnly_mapM fun index member now => ?_).bind fun data _ _ => ?_
  · obtain ⟨element, read⟩ := inside.elementBytes known (Index.within_of_mem_all member)
    rw [read]
    exact panicsOnly_pure _
  · rintro _ _ ⟨⟩

theorem Inside.nestFrom (inside : view.Inside w) {bytes : List UInt8}
    (known : w.room? view.buffer = some bytes.length) {shape : List Nat}
    (continued : ∀ rest, Index.Within rest shape → Index.Within (index ++ rest) view.shape)
    (now : World σ) :
    PanicsOnly (· = .text "capacity overflow") (view.nestFrom bytes shape index) now := by
  induction shape generalizing index now with
  | nil =>
      have within : Index.Within index view.shape := by simpa using continued [] .nil
      exact (inside.scalarIn known within now).bind fun _ _ _ => panicsOnly_pure _
  | cons dim shape ih =>
      refine (panicsOnly_allocate _).bind fun _ after _ => ?_
      refine (panicsOnly_mapM fun i member now => ?_).bind fun _ _ _ => panicsOnly_pure _
      refine ih (fun rest within => ?_) now
      rw [List.append_assoc]
      exact continued (i :: rest) (.cons (List.mem_range.mp member) within)

theorem Inside.nested (inside : view.Inside w) :
    PanicsOnly (· = .text "capacity overflow") view.nested w := by
  simp only [ArrayView.nested]
  refine inside.panicsOnly_readable fun bytes known => ?_
  exact inside.nestFrom known (fun _ within => by exact within) w

theorem Inside.elementNow (inside : view.Inside w) (within : Index.Within index view.shape) :
    ∃ found, view.elementNow type index w = (.returned found, w) := by
  have ⟨room, known, bounds⟩ := inside
  obtain ⟨buffer, found, rfl⟩ := Option.map_eq_some_iff.mp known
  obtain ⟨offset, computed, _⟩ := bounds index within
  obtain ⟨element, read⟩ := inside.elementAt known within computed
  refine ⟨(offset, type.read element), ?_⟩
  simp only [ArrayView.elementNow, ArrayView.elementAt]
  rw [Act.bind_of_returned (memory_apply found), elementOffset_of_byteOffset computed, ofAddress_ok,
    pure_bind, read, pure_bind]
  rfl

theorem Inside.replaceElements {f : type.Carrier → Act σ (type.Carrier × α)}
    (inside : view.Inside w) (keeps : ∀ old, Keeps KeepsRoom (f old))
    (each : ∀ old now, PanicsOnly allowed (f old) now) {indices : List (List Nat)}
    (within : ∀ index ∈ indices, Index.Within index view.shape) :
    PanicsOnly allowed (view.replaceElements type f indices) w := by
  induction indices generalizing w with
  | nil => exact panicsOnly_pure _
  | cons index rest ih =>
      obtain ⟨old, read⟩ := inside.elementNow type (within index (by simp))
      simp only [ArrayView.replaceElements]
      rw [PanicsOnly, Act.bind_of_returned read]
      refine (each old.2 w).bind fun found after given => ?_
      have later := inside.later ((keeps _).ended given)
      have silent : PanicsOnly allowed (view.writeBytes old.1 (type.write found.1)) after :=
        panicsOnly_modify _
      refine silent.bind fun _ written wrote => ?_
      have room := (view.keepsRoom_writeBytes old.1 (type.write found.1)).ended wrote
      have others := ih (later.later room) fun index member => within index (by simp [member])
      exact others.bind fun _ _ _ => panicsOnly_pure _

theorem room?_setAccess {f : Access → Access} (buffer : Nat) :
    (view.setAccess f w).room? buffer = w.room? buffer := by
  simp only [ArrayView.setAccess]
  exact room?_setBuffer _ (fun _ => by rfl) _

theorem Inside.setAccess (inside : view.Inside w) {f : Access → Access} (held : ArrayView) :
    view.Inside (held.setAccess f w) :=
  inside.later fun buffer room known => by rwa [room?_setAccess]

theorem Inside.mapElements {f : type.Carrier → Act σ type.Carrier} (inside : view.Inside w)
    (keeps : ∀ old, Keeps KeepsRoom (f old)) (each : ∀ old now, PanicsOnly allowed (f old) now) :
    PanicsOnly allowed (view.mapElements type f) w := by
  simp only [ArrayView.mapElements, updateElements]
  refine PanicsOnly.bind ?_ fun _ _ _ => panicsOnly_pure _
  refine panicsOnly_ofExcept_bind fun _ _ => ?_
  split
  · exact panicsOnly_fail _
  · refine panicsOnly_writable.bind fun bytes after written => ?_
    obtain ⟨rfl, _⟩ := inside.writable written
    refine PanicsOnly.bind ?_ fun _ _ _ => (panicsOnly_modify _).bind fun _ _ _ => panicsOnly_pure _
    refine PanicsOnly.bracket ?_
    exact (inside.setAccess view).replaceElements type
      (fun old => (keeps old).bind fun _ => keeps_pure _)
      (fun old now => (each old now).bind fun _ _ _ => panicsOnly_pure _)
      fun index member => Index.within_of_mem_all member

end ArrayView

end Marshal
