import Mathlib
import Marshal.Proofs.Array.Slice
import Marshal.Proofs.World.Act

namespace Marshal

variable {σ : Type} {bytes : List UInt8} {start stop : Nat}

theorem bytesBetween_of_le (ordered : start ≤ stop) (inside : stop ≤ bytes.length) :
    (bytesBetween bytes start stop : Act σ (List UInt8)) =
      pure ((bytes.drop start).take (stop - start)) := by
  simp only [bytesBetween]
  rw [if_neg (by omega), if_neg (by omega)]

theorem bytesBetween_of_lt (outside : bytes.length < stop) :
    ∃ p, (bytesBetween bytes start stop : Act σ (List UInt8)) = Act.panic p := by
  simp only [bytesBetween]
  split
  · exact ⟨_, rfl⟩
  · exact ⟨_, rfl⟩

theorem Access.share?_of_unwritten {access : Access} (unwritten : access ≠ .exclusive) :
    ∃ shared, access.share? = some shared := by
  cases access with
  | idle => exact ⟨_, rfl⟩
  | shared others => exact ⟨_, rfl⟩
  | exclusive => exact absurd rfl unwritten

namespace ArrayView

variable {view : ArrayView} {buffer : Buffer} {w : World σ}

theorem packedBytes_of_le (inside : view.layout.offset + view.layout.nbytes ≤ bytes.length)
    (bounded : bytes.length ≤ Size.max) :
    (view.packedBytes bytes : Act σ (List UInt8)) =
      pure ((bytes.drop view.layout.offset).take view.layout.nbytes) := by
  simp only [packedBytes, Layout.packedEnd, Size.address]
  rw [if_pos (by omega), Act.ofAddress_ok, pure_bind, bytesBetween_of_le (by omega) inside,
    Nat.add_sub_cancel_left]

theorem packedBytes_of_lt (outside : bytes.length < view.layout.offset + view.layout.nbytes) :
    ∃ p, (view.packedBytes bytes : Act σ (List UInt8)) = Act.panic p := by
  simp only [packedBytes, Layout.packedEnd, Size.address]
  split
  · rw [Act.ofAddress_ok, pure_bind]
    exact bytesBetween_of_lt outside
  · exact ⟨_, rfl⟩

theorem memory_apply (found : w.buffer? view = some buffer) :
    view.memory w = (.returned buffer, w) := by
  simp [memory, found]

theorem readable_apply (found : w.buffer? view = some buffer) (unwritten : buffer.access ≠ .exclusive) :
    view.readable w = (.returned buffer.bytes, w) := by
  obtain ⟨access, shared⟩ := Access.share?_of_unwritten unwritten
  simp only [readable]
  rw [Act.bind_of_returned (memory_apply found), shared]
  rfl

theorem withBytes_apply {α : Type} {act : List UInt8 → Act σ α}
    (contiguous : view.layout.isContiguous = true) (found : w.buffer? view = some buffer)
    (unwritten : buffer.access ≠ .exclusive) :
    view.withBytes act w = view.whileHeld false (view.packedBytes buffer.bytes >>= act) w := by
  have accepted : view.requireContiguous = .ok () := by simp [requireContiguous, contiguous]
  simp only [withBytes, withHeld, borrowed, accepted, Act.ofExcept_ok, pure_bind]
  exact Act.bind_of_returned (readable_apply found unwritten)

theorem withBytes_returns (contiguous : view.layout.isContiguous = true)
    (found : w.buffer? view = some buffer) (unwritten : buffer.access ≠ .exclusive)
    (bounded : buffer.bytes.length ≤ Size.max) :
    (∃ bytes after, view.withBytes pure w = (.returned bytes, after)) ↔
      view.layout.offset + view.layout.nbytes ≤ buffer.bytes.length := by
  rw [withBytes_apply contiguous found unwritten, bind_pure]
  by_cases inside : view.layout.offset + view.layout.nbytes ≤ buffer.bytes.length
  · rw [packedBytes_of_le inside bounded]
    exact iff_of_true ⟨_, _, rfl⟩ inside
  · obtain ⟨p, panicked⟩ := packedBytes_of_lt (σ := σ) (Nat.lt_of_not_le inside)
    rw [panicked]
    refine iff_of_false ?_ inside
    rintro ⟨_, _, impossible⟩
    cases impossible

end ArrayView

namespace Layout

variable {layout : Layout} {start stop : List Nat} {length : Nat}

theorem nbytes_of_fits (fits : layout.Fits length) (packed : layout.Packed)
    (contiguous : layout.order ≠ .neither) (inhabited : 0 ∉ layout.shape)
    (bounded : length ≤ Size.max) :
    layout.nbytes = layout.dtype.size * layout.shape.prod ∧
      layout.offset + layout.nbytes ≤ length := by
  have inside := packed.inside contiguous fits inhabited
  have few := packed.prod_le contiguous fits inhabited
  have counted := Size.checkedProduct_of_le inhabited (Nat.le_trans few bounded)
  have known : layout.nbytes = layout.dtype.size * layout.shape.prod := by
    simp only [nbytes, checkedNbytes, counted, Option.bind_eq_bind, Option.bind_some]
    rw [Nat.mul_comm, Size.checked_of_le (by omega), Option.getD_some]
  exact ⟨known, by rwa [known]⟩

theorem nbytes_of_empty (empty : 0 ∈ layout.shape) :
    layout.nbytes = if (Size.checkedProduct layout.shape).isSome then 0 else Size.max := by
  simp only [nbytes, checkedNbytes]
  cases counted : Size.checkedProduct layout.shape with
  | none => rfl
  | some count =>
      have none : count = 0 := by
        rw [Size.checkedProduct_eq counted]
        exact List.prod_eq_zero empty
      subst none
      simp [Size.checked]

/-- The bytes of a part are readable when it starts inside the buffer or at its end and its elements
can be counted. -/
theorem part_nbytes (bounded : length ≤ Size.signedMax) (accepted : layout.validate length = .ok ())
    (selects : layout.Selects start stop) (contiguous : (layout.part start stop).isContiguous = true) :
    (layout.part start stop).offset + (layout.part start stop).nbytes ≤ length ↔
      layout.address start ≤ length ∧
        (Size.checkedProduct (layout.part start stop).shape).isSome = true := by
  have small : length < Size.max := Nat.lt_of_le_of_lt bounded (by decide)
  by_cases empty : 0 ∈ (layout.part start stop).shape
  · rw [nbytes_of_empty empty]
    change layout.address start + _ ≤ length ↔ _
    split <;> rename_i counted
    · simp [counted]
    · simp only [counted, Bool.false_eq_true, and_false, iff_false]
      omega
  · have fits := part_fits (Nat.le_of_lt small) accepted selects empty
    have packed : (layout.part start stop).Packed := packed_of_detectOrder rfl
    have order : (layout.part start stop).order ≠ .neither := by
      simpa [isContiguous] using contiguous
    have inside := (nbytes_of_fits fits packed order empty (Nat.le_of_lt small)).2
    have few := packed.prod_le order fits empty
    have counted := Size.checkedProduct_of_le empty (by omega)
    refine iff_of_true inside ⟨?_, by simp [counted]⟩
    exact (part_validate (Nat.le_of_lt small) accepted selects).mp
      ((validate_iff_fits empty (Nat.le_of_lt small)).mpr fits)

/-- What slices keep.  Take a layout that a buffer of `length` bytes accepts.  Bounds that do not
select a part of it never give one, and are refused unless the axes before the first bad one already
lead too far.  Bounds that select a part give one that the buffer accepts just when its start lies
inside the buffer or at its end, as it does when every axis keeps an element.  A contiguous part can be
read just when, besides, its elements can be counted. -/
theorem slice_exact (layout : Layout) (length : Nat) (start stop : List Nat)
    (bounded : length ≤ Size.max) (accepted : layout.validate length = .ok ()) :
    ((∃ e, layout.slice start stop = .error (.refused e)) ↔
      start.length ≠ layout.ndim ∨ stop.length ≠ layout.ndim ∨
        ∃ axis cut, (layout.cuts start stop)[axis]? = some cut ∧ ¬ cut.Sound ∧
          layout.address (start.take axis) ≤ Size.max) ∧
    (¬ layout.Selects start stop → ∀ result, layout.slice start stop ≠ .ok result) ∧
    (layout.Selects start stop →
      ((∃ result, layout.slice start stop = .ok result ∧ result.validate length = .ok ()) ↔
        layout.address start ≤ length) ∧
      (layout.slice start stop = .error .overflow ↔ Size.max < layout.address start) ∧
      (List.Forall₂ (· < ·) start stop → layout.address start ≤ length) ∧
      ∀ result, layout.slice start stop = .ok result → result.isContiguous = true →
        ∀ (σ : Type) (w : World σ) (view : ArrayView) (buffer : Buffer), view.layout = result →
          w.buffer? view = some buffer → buffer.bytes.length = length →
          length ≤ Size.signedMax → buffer.access ≠ .exclusive →
          ((∃ bytes after, view.withBytes pure w = (.returned bytes, after)) ↔
            layout.address start ≤ length ∧ (Size.checkedProduct result.shape).isSome = true)) := by
  obtain ⟨lengths, _, extent, computed, reached⟩ := validate_eq_ok.mp accepted
  have small : layout.offset ≤ Size.max := by
    by_cases empty : 0 ∈ layout.shape
    · rw [byteExtent_of_empty empty] at computed
      cases computed
      omega
    · have last := ((byteExtent_eq_ok empty).mp computed).1
      simp only [address] at last
      omega
  refine ⟨slice_refused lengths small, fun unselected result computed => ?_, fun selects => ?_⟩
  · exact unselected (slice_eq_ok lengths computed).1
  · have outcome := slice_of_selects selects lengths small
    have partAccepted := part_validate bounded accepted selects
    refine ⟨?_, ?_, fun ordered => ?_, ?_⟩
    · rw [outcome]
      split
      · simpa using partAccepted
      · refine iff_of_false ?_ (by omega)
        rintro ⟨_, impossible, _⟩
        cases impossible
    · rw [outcome]
      split <;> simp <;> omega
    · exact address_start_le bounded accepted ordered selects.within
    · intro result computed contiguous σ w view buffer same found held small unwritten
      rw [outcome] at computed
      split at computed
      · cases computed
        have view_nbytes := part_nbytes small accepted selects contiguous
        rw [← same] at contiguous view_nbytes ⊢
        rw [ArrayView.withBytes_returns contiguous found unwritten (by omega), held]
        exact view_nbytes
      · cases computed

/-- One byte, with a stride that only a second element would need. -/
def longStride : Layout :=
  { shape := [1], strides := [100], dtype := .number (.int .u8), order := .c, offset := 0 }

theorem slice_exact_longStride :
    1 ≤ Size.max ∧ longStride.validate 1 = .ok () ∧
      longStride.slice [1] [1] = .ok { longStride with shape := [0], offset := 100 } ∧
      ¬ ∃ result, longStride.slice [1] [1] = .ok result ∧ result.validate 1 = .ok () := by
  have small : 1 ≤ Size.max := by decide
  have accepted : longStride.validate 1 = .ok () := by decide
  have selects : longStride.Selects [1] [1] := ⟨by decide, by decide⟩
  have exact := ((slice_exact longStride 1 [1] [1] small accepted).2.2 selects).1
  refine ⟨small, accepted, rfl, fun kept => ?_⟩
  exact absurd (exact.mp kept) (by decide)

end Layout

end Marshal
