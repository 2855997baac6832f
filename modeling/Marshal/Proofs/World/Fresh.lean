import Mathlib
import Marshal.Proofs.Array.Settled
import Marshal.Proofs.World.Quiet

namespace Marshal

open World
open Act hiding pure bind

variable {σ α β : Type} {view : ArrayView} {w after : World σ} {layout : Layout}

theorem toLittleEndian_length (count n : Nat) : (toLittleEndian count n).length = count := by
  induction count generalizing n with
  | zero => rfl
  | succ count ih => simp [toLittleEndian, ih]

theorem ElementType.write_length (type : ElementType) (x : type.Carrier) :
    (type.write x).length = type.bytes := by
  cases type with
  | int t => exact toLittleEndian_length _ _
  | float t => exact toLittleEndian_length _ _

theorem ElementType.flatMap_write_length (type : ElementType) (items : List type.Carrier) :
    (items.flatMap type.write).length = items.length * type.bytes := by
  simp [List.length_flatMap, ElementType.write_length]

theorem Index.product_length (shape : List Nat) : (Index.product shape).length = shape.prod := by
  induction shape with
  | nil => rfl
  | cons dim shape ih => simp [Index.product, List.length_flatMap, ih]

theorem Index.all_length (shape : List Nat) : (Index.all shape).length = shape.prod := by
  simp only [Index.all]
  split
  · rename_i empty
    exact (List.prod_eq_zero (by simpa using empty)).symm
  · exact Index.product_length shape

theorem Act.length_of_mapM {f : α → Act σ β} {items : List α} {found : List β}
    (ended : items.mapM f w = (.returned found, after)) : found.length = items.length := by
  induction items generalizing found w with
  | nil =>
      cases ended
      rfl
  | cons item rest ih =>
      rw [List.mapM_cons] at ended
      obtain ⟨first, _, _, ended⟩ := returned_of_bind ended
      obtain ⟨others, _, rests, ended⟩ := returned_of_bind ended
      cases ended
      simp [ih rests]

theorem Act.forall_of_mapM {f : α → Act σ β} {P : β → Prop} {items : List α} {found : List β}
    (each : ∀ item ∈ items, ∀ (w after : World σ) b, f item w = (.returned b, after) → P b)
    (ended : items.mapM f w = (.returned found, after)) : ∀ b ∈ found, P b := by
  induction items generalizing found w with
  | nil =>
      cases ended
      simp
  | cons item rest ih =>
      rw [List.mapM_cons] at ended
      obtain ⟨first, _, head, ended⟩ := returned_of_bind ended
      obtain ⟨others, _, rests, ended⟩ := returned_of_bind ended
      cases ended
      intro b member
      rcases List.mem_cons.mp member with rfl | member
      · exact each item (by simp) _ _ b head
      · exact ih (fun other inside => each other (by simp [inside])) rests b member

namespace ArrayView

/-- The view lies over a buffer of this many bytes, which is no more than memory can have. -/
structure Over (view : ArrayView) (w : World σ) (length : Nat) : Prop where
  room : w.room? view.buffer = some length
  bounded : length ≤ Size.signedMax

/-- A new array has a buffer that no view had before. -/
theorem buffer_of_make {buffer : Buffer} {ownership : Ownership}
    (made : make layout buffer ownership w = (.returned view, after)) :
    view.layout = layout ∧ view.buffer = w.buffers.length ∧ after.buffers = w.buffers ++ [buffer] := by
  simp only [make] at made
  cases made
  exact ⟨rfl, rfl, rfl⟩

theorem owner_of_make {buffer : Buffer} {ownership : Ownership}
    (made : make layout buffer ownership w = (.returned view, after)) :
    view.ownership = ownership ∧ view.base? = none ∧ view.id = w.arrayCount + 1 := by
  simp only [make] at made
  cases made
  exact ⟨rfl, rfl, rfl⟩

theorem found_of_make {buffer : Buffer} {ownership : Ownership}
    (made : make layout buffer ownership w = (.returned view, after)) : after.buffer? view = some buffer := by
  obtain ⟨_, place, buffers⟩ := buffer_of_make made
  rw [World.buffer?, buffers, place, List.getElem?_concat_length]

theorem kept_of_make {buffer kept : Buffer} {ownership : Ownership} {other : ArrayView}
    (made : make layout buffer ownership w = (.returned view, after)) (there : w.buffer? other = some kept) :
    other.buffer ≠ view.buffer ∧ after.buffer? other = some kept := by
  obtain ⟨_, place, buffers⟩ := buffer_of_make made
  have below : other.buffer < w.buffers.length := (List.getElem?_eq_some_iff.mp there).1
  refine ⟨by omega, ?_⟩
  rw [World.buffer?, buffers, List.getElem?_append_left below]
  exact there

theorem over_of_make {buffer : Buffer} {ownership : Ownership}
    (made : make layout buffer ownership w = (.returned view, after))
    (bounded : buffer.bytes.length ≤ Size.signedMax) :
    view.layout = layout ∧ view.Over after buffer.bytes.length := by
  simp only [make] at made
  cases made
  refine ⟨rfl, ?_, bounded⟩
  simp [room?]

/-- The view keeps its promises in the buffer that it lies over. -/
def Settled (view : ArrayView) (w : World σ) : Prop :=
  ∃ length, view.Over w length ∧ view.layout.Settled length

theorem settled_of_make {buffer : Buffer} {ownership : Ownership}
    (made : make layout buffer ownership w = (.returned view, after))
    (bounded : buffer.bytes.length ≤ Size.signedMax)
    (settled : layout.Settled buffer.bytes.length) : view.Settled after := by
  obtain ⟨rfl, lies⟩ := over_of_make made bounded
  exact ⟨_, lies, settled⟩

theorem settled_of_wrap {data : List UInt8} {shape : List Nat} {strides : List Int} {dtype : DType}
    (wrapped : wrap data shape strides dtype w = (.returned view, after))
    (bounded : data.length ≤ Size.signedMax) : view.Settled after := by
  simp only [wrap] at wrapped
  obtain ⟨_, _, _, wrapped⟩ := returned_of_bind wrapped
  obtain ⟨layout, _, laid, wrapped⟩ := returned_of_bind wrapped
  obtain ⟨made, _⟩ := returned_of_ofExcept laid
  obtain ⟨_, _, checked, wrapped⟩ := returned_of_bind wrapped
  obtain ⟨accepted, _⟩ := returned_of_ofExcept checked
  exact settled_of_make wrapped bounded
    (Layout.strided_settled made (Nat.le_trans bounded Size.signedMax_le_max) accepted)

theorem prod_of_checkedNbytes {nbytes : Nat} (counted : layout.checkedNbytes = some nbytes) :
    layout.shape.prod * layout.dtype.size = nbytes := by
  simp only [Layout.checkedNbytes] at counted
  obtain ⟨count, known, checked⟩ := Option.bind_eq_some_iff.mp counted
  rw [← Size.checkedProduct_eq known]
  exact (Size.checked_eq_some.mp checked).1

/-- As many bytes as the elements of a layout take, which memory can have. -/
structure Filled (layout : Layout) (bytes : List UInt8) : Prop where
  total : layout.shape.prod * layout.dtype.size = bytes.length
  bounded : bytes.length ≤ Size.signedMax

theorem make_of_zeros {shape : List Nat} {dtype : DType}
    (zeroed : zeros shape dtype w = (.returned view, after)) :
    ∃ bytes, Filled (Layout.cContiguous shape dtype) bytes ∧
      make (Layout.cContiguous shape dtype) (ownedBuffer bytes) .owned w = (.returned view, after) := by
  simp only [zeros] at zeroed
  obtain ⟨_, _, checked, sized⟩ := returned_of_bind zeroed
  obtain ⟨_, rfl⟩ := returned_of_ofExcept checked
  obtain ⟨nbytes, _, found, allocated⟩ := returned_of_bind sized
  obtain ⟨counted, rfl⟩ := returned_of_ofOption found
  obtain ⟨_, _, room, made⟩ := returned_of_bind allocated
  obtain ⟨bounded, rfl⟩ := returned_of_allocate room
  have length : (List.replicate nbytes (0 : UInt8)).length = nbytes := List.length_replicate
  exact ⟨_, ⟨by rw [length, prod_of_checkedNbytes counted], by rwa [length]⟩, made⟩

theorem make_of_ofElements {type : ElementType} {items : List type.Carrier} {shape : List Nat}
    (made : ofElements type items shape w = (.returned view, after))
    (bounded : items.length * type.bytes ≤ Size.signedMax) :
    Size.checkedProduct shape = some items.length ∧
      Filled (Layout.cContiguous shape (.number type)) (items.flatMap type.write) ∧
      make (Layout.cContiguous shape (.number type)) (ownedBuffer (items.flatMap type.write)) .owned w =
        (.returned view, after) := by
  simp only [ofElements] at made
  split at made
  · cases made
  · rename_i counted
    have count : (Size.checkedProduct shape).getD Size.max = items.length := not_not.mp counted
    have length := type.flatMap_write_length items
    -- a saturated count would be more elements than memory can have
    cases known : Size.checkedProduct shape with
    | none =>
        have positive := (DType.number type).size_pos
        have many : items.length ≤ items.length * type.bytes := Nat.le_mul_of_pos_right _ positive
        have gap : Size.signedMax < Size.max := by decide
        rw [known, Option.getD_none] at count
        omega
    | some product =>
        rw [known, Option.getD_some] at count
        subst count
        refine ⟨rfl, ⟨?_, by rwa [length]⟩, made⟩
        rw [length, Size.checkedProduct_eq known]
        rfl

theorem length_of_bytesBetween {bytes found : List UInt8} {start stop : Nat}
    (read : bytesBetween bytes start stop w = (.returned found, after)) :
    found.length = stop - start := by
  simp only [bytesBetween] at read
  split at read
  · cases read
  · split at read
    · cases read
    · cases read
      simp only [List.length_take, List.length_drop]
      omega

theorem length_of_elementBytes {bytes found : List UInt8} {index : List Nat} {source : ArrayView}
    (read : source.elementBytes bytes index w = (.returned found, after)) :
    found.length = source.dtype.size := by
  simp only [elementBytes, elementAt] at read
  obtain ⟨offset, _, _, read⟩ := returned_of_bind read
  rw [length_of_bytesBetween read, Nat.add_sub_cancel_left]

theorem make_of_copy {source : ArrayView} (copied : source.copy w = (.returned view, after)) :
    ∃ bytes, Filled (Layout.cContiguous source.shape source.dtype) bytes ∧
      make (Layout.cContiguous source.shape source.dtype) (ownedBuffer bytes) .owned w =
        (.returned view, after) := by
  simp only [copy] at copied
  obtain ⟨bytes, _, read, sized⟩ := returned_of_bind copied
  obtain rfl := (source.keeps_readable (R := Eq)).ended read
  obtain ⟨nbytes, _, found, allocated⟩ := returned_of_bind sized
  obtain ⟨counted, rfl⟩ := returned_of_ofOption found
  obtain ⟨_, _, room, gathered⟩ := returned_of_bind allocated
  obtain ⟨bounded, rfl⟩ := returned_of_allocate room
  obtain ⟨data, _, elements, made⟩ := returned_of_bind gathered
  obtain rfl := (keeps_mapM (R := Eq) fun index _ => source.keeps_elementBytes bytes index).ended elements
  have each : ∀ element ∈ data, element.length = source.dtype.size :=
    forall_of_mapM (fun _ _ _ _ _ read => length_of_elementBytes read) elements
  have length : data.flatten.length = nbytes := by
    have count := (length_of_mapM elements).trans (Index.all_length source.shape)
    rw [List.length_flatten, List.map_congr_left each, List.map_const', List.sum_replicate, count,
      smul_eq_mul]
    exact prod_of_checkedNbytes counted
  exact ⟨_, ⟨(prod_of_checkedNbytes counted).trans length.symm, by rwa [length]⟩, made⟩

theorem settled_of_filled {shape : List Nat} {dtype : DType} {bytes : List UInt8}
    (filled : Filled (Layout.cContiguous shape dtype) bytes)
    (made : make (Layout.cContiguous shape dtype) (ownedBuffer bytes) .owned w = (.returned view, after)) :
    view.Settled after := by
  refine settled_of_make made filled.bounded ?_
  refine (Layout.Contiguous.c shape dtype 0).settled_of_bytes (fun _ => ?_) filled.bounded
  simp only [Nat.zero_add]
  rw [Nat.mul_comm]
  exact Nat.le_of_eq filled.total

end ArrayView

/-- The layouts that callers make for memory of their own. -/
inductive Layout.Made : Layout → Prop
  | c (shape : List Nat) (dtype : DType) : Made (cContiguous shape dtype)
  | fortran (shape : List Nat) (dtype : DType) : Made (fortranContiguous shape dtype)
  | strided {shape : List Nat} {strides : List Int} {dtype : DType} {offset : Nat} {layout : Layout}
      (made : Layout.strided shape strides dtype offset = .ok layout) : Made layout

theorem ArrayView.settled_of_borrow {data : List UInt8} {readonly : Bool} {keeper : Keeper}
    (borrowed : ArrayView.borrow data layout readonly keeper w = (.returned view, after))
    (bounded : data.length ≤ Size.signedMax) (made : layout.Made) : view.Settled after := by
  simp only [ArrayView.borrow] at borrowed
  obtain ⟨_, _, _, borrowed⟩ := returned_of_bind borrowed
  obtain ⟨_, _, checked, borrowed⟩ := returned_of_bind borrowed
  obtain ⟨accepted, _⟩ := returned_of_ofExcept checked
  refine ArrayView.settled_of_make borrowed bounded ?_
  cases made with
  | c shape dtype => exact (Layout.Contiguous.c shape dtype 0).settled_of_validate bounded accepted
  | fortran shape dtype =>
      exact (Layout.Contiguous.fortran shape dtype 0).settled_of_validate bounded accepted
  | strided made =>
      exact Layout.strided_settled made (Nat.le_trans bounded Size.signedMax_le_max) accepted

end Marshal
