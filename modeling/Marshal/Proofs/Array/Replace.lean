import Mathlib
import Marshal.Proofs.Array.Element
import Marshal.Proofs.Array.Extent
import Marshal.Proofs.World.Fresh
import Marshal.World.Array

namespace Marshal

section Overwrite

variable {bytes fresh : List UInt8} {start : Nat}

theorem getElem?_overwrite (inside : start + fresh.length ≤ bytes.length) (place : Nat) :
    (overwrite bytes start fresh)[place]? =
      if start ≤ place ∧ place < start + fresh.length then fresh[place - start]? else bytes[place]? := by
  have whole : fresh.take (bytes.length - start) = fresh := List.take_of_length_le (by omega)
  have head : (bytes.take start).length = start := List.length_take_of_le (by omega)
  simp only [overwrite, whole, List.append_assoc]
  rcases Nat.lt_or_ge place start with before | reached
  · rw [List.getElem?_append_left (by omega), List.getElem?_take_of_lt before, if_neg (by omega)]
  · rw [List.getElem?_append_right (by omega), head]
    rcases Nat.lt_or_ge place (start + fresh.length) with within | beyond
    · rw [List.getElem?_append_left (by omega), if_pos ⟨reached, within⟩]
    · rw [List.getElem?_append_right (by omega), List.getElem?_drop, if_neg (by omega)]
      congr 1
      omega

theorem getElem?_span (bytes : List UInt8) (start count place : Nat) :
    ((bytes.drop start).take count)[place]? = if place < count then bytes[start + place]? else none := by
  split
  · rename_i within
    rw [List.getElem?_take_of_lt within, List.getElem?_drop]
  · rename_i beyond
    exact List.getElem?_take_eq_none (Nat.le_of_not_lt beyond)

theorem span_overwrite (inside : start + fresh.length ≤ bytes.length) :
    ((overwrite bytes start fresh).drop start).take fresh.length = fresh := by
  refine List.ext_getElem? fun place => ?_
  rw [getElem?_span]
  split
  · rename_i within
    rw [getElem?_overwrite inside, if_pos (by omega), Nat.add_sub_cancel_left]
  · rename_i beyond
    exact (List.getElem?_eq_none (Nat.le_of_not_lt beyond)).symm

theorem span_congr {after : List UInt8} {count : Nat}
    (same : ∀ place, start ≤ place → place < start + count → after[place]? = bytes[place]?) :
    (after.drop start).take count = (bytes.drop start).take count := by
  refine List.ext_getElem? fun place => ?_
  rw [getElem?_span, getElem?_span]
  split
  · exact same _ (by omega) (by omega)
  · rfl

end Overwrite

theorem Index.nodup_product (shape : List Nat) : (Index.product shape).Nodup := by
  induction shape with
  | nil => simp [Index.product]
  | cons dim shape ih =>
      refine List.nodup_flatMap.mpr ⟨fun i _ => ih.map fun _ _ same => List.tail_eq_of_cons_eq same, ?_⟩
      refine List.nodup_range.imp fun {i j} ne => ?_
      simp only [Function.onFun, List.disjoint_left, List.mem_map]
      rintro _ ⟨_, _, rfl⟩ ⟨_, _, same⟩
      exact ne (List.head_eq_of_cons_eq same).symm

theorem Index.nodup_all (shape : List Nat) : (Index.all shape).Nodup := by
  simp only [Index.all]
  split
  · exact List.nodup_nil
  · exact Index.nodup_product shape

theorem Index.mem_all {index shape : List Nat} (inhabited : 0 ∉ shape) :
    index ∈ Index.all shape ↔ Index.Within index shape := by
  have notEmpty : shape.contains 0 = false := by simpa using inhabited
  simp only [Index.all, notEmpty, Bool.false_eq_true, ↓reduceIte, Index.mem_product]

namespace Layout

variable (layout : Layout) (type : ElementType)

/-- The elements at two indices have no byte in common. -/
def Apart (count : Nat) (i j : List Nat) : Prop :=
  layout.address i + count ≤ layout.address j ∨ layout.address j + count ≤ layout.address i

/-- A byte that no element has at any of these indices. -/
def Between (count : Nat) (indices : List (List Nat)) (place : Nat) : Prop :=
  ∀ index ∈ indices, place < layout.address index ∨ layout.address index + count ≤ place

theorem exists_same_steps {shape : List Nat} {strides : List Int} (inhabited : 0 ∉ shape)
    (overlap : (shape.zip strides).any (fun (dim, stride) => 1 < dim && stride == 0) = true) :
    ∃ i j, Index.Within i shape ∧ Index.Within j shape ∧ i ≠ j ∧
      i.zipWith (fun i (stride : Int) => i * stride.natAbs) strides =
        j.zipWith (fun i (stride : Int) => i * stride.natAbs) strides := by
  induction shape generalizing strides with
  | nil => cases overlap
  | cons dim shape ih =>
      simp only [List.mem_cons, not_or] at inhabited
      cases strides with
      | nil => cases overlap
      | cons stride strides =>
          simp only [List.zip_cons_cons, List.any_cons, Bool.or_eq_true, Bool.and_eq_true,
            decide_eq_true_eq, beq_iff_eq] at overlap
          rcases overlap with ⟨several, rfl⟩ | later
          · have rest := Index.last_within inhabited.2
            exact ⟨0 :: Index.last shape, 1 :: Index.last shape, .cons (by omega) rest, .cons several rest,
              by simp, by simp⟩
          · obtain ⟨i, j, withinI, withinJ, ne, same⟩ := ih inhabited.2 later
            have positive : 0 < dim := Nat.pos_of_ne_zero (Ne.symm inhabited.1)
            exact ⟨0 :: i, 0 :: j, .cons positive withinI, .cons positive withinJ, by simpa using ne,
              by simp [same]⟩

variable {layout} in
/-- Where elements share no byte, no axis of several elements stays in place. -/
theorem hasOverlap_of_apart {count : Nat} (positive : 0 < count) (inhabited : 0 ∉ layout.shape)
    (apart : ∀ i j, Index.Within i layout.shape → Index.Within j layout.shape → i ≠ j →
      layout.Apart count i j) : layout.hasOverlap = false := by
  by_contra overlap
  obtain ⟨i, j, withinI, withinJ, ne, same⟩ :=
    exists_same_steps inhabited (Bool.not_eq_false _ ▸ overlap : layout.hasOverlap = true)
  have free := apart i j withinI withinJ ne
  simp only [Apart, address, steps, same] at free
  omega

def bytesAt (bytes : List UInt8) (index : List Nat) : List UInt8 :=
  (bytes.drop (layout.address index)).take type.bytes

/-- The element at an index. -/
def valueAt (bytes : List UInt8) (index : List Nat) : type.Carrier :=
  type.read (layout.bytesAt type bytes index)

/-- The bytes after the elements at these indices were replaced, one after the other. -/
def replaced (f : type.Carrier → type.Carrier) : List (List Nat) → List UInt8 → List UInt8
  | [], bytes => bytes
  | index :: rest, bytes =>
    replaced f rest
      (overwrite bytes (layout.address index) (type.write (f (layout.valueAt type bytes index))))

variable {layout type} {f g : type.Carrier → type.Carrier} {bytes after : List UInt8}
  {index : List Nat} {indices : List (List Nat)}

theorem replaced_length : (layout.replaced type f indices bytes).length = bytes.length := by
  induction indices generalizing bytes with
  | nil => rfl
  | cons index rest ih => rw [replaced, ih, overwrite_length]

/-- Nothing between the elements is written. -/
theorem replaced_between (inside : ∀ index ∈ indices, layout.address index + type.bytes ≤ bytes.length)
    {place : Nat} (between : layout.Between type.bytes indices place) :
    (layout.replaced type f indices bytes)[place]? = bytes[place]? := by
  induction indices generalizing bytes with
  | nil => rfl
  | cons index rest ih =>
      simp only [Between, List.forall_mem_cons] at inside between
      have written := ElementType.write_length type (f (layout.valueAt type bytes index))
      rw [replaced, ih (by simpa only [overwrite_length] using inside.2) between.2,
        getElem?_overwrite (by omega), if_neg (by omega)]

theorem bytesAt_overwrite_of_apart {start : Nat} {fresh : List UInt8} (count : fresh.length = type.bytes)
    (inside : start + type.bytes ≤ bytes.length)
    (apart : start + type.bytes ≤ layout.address index ∨ layout.address index + type.bytes ≤ start) :
    layout.bytesAt type (overwrite bytes start fresh) index = layout.bytesAt type bytes index := by
  refine span_congr fun place reached within => ?_
  rw [getElem?_overwrite (by omega), if_neg (by omega)]

theorem bytesAt_overwrite {fresh : List UInt8} (count : fresh.length = type.bytes)
    (inside : layout.address index + type.bytes ≤ bytes.length) :
    layout.bytesAt type (overwrite bytes (layout.address index) fresh) index = fresh := by
  rw [bytesAt, ← count]
  exact span_overwrite (by omega)

theorem bytesAt_replaced_of_apart
    (inside : ∀ index ∈ indices, layout.address index + type.bytes ≤ bytes.length)
    (apart : ∀ other ∈ indices, layout.Apart type.bytes index other) :
    layout.bytesAt type (layout.replaced type f indices bytes) index = layout.bytesAt type bytes index := by
  refine span_congr fun place reached within => replaced_between inside fun other member => ?_
  have free := apart other member
  simp only [Apart] at free
  omega

/-- Every element is replaced by what the function gives for it as it was at first. -/
theorem bytesAt_replaced (inside : ∀ index ∈ indices, layout.address index + type.bytes ≤ bytes.length)
    (apart : indices.Pairwise (layout.Apart type.bytes)) (member : index ∈ indices) :
    layout.bytesAt type (layout.replaced type f indices bytes) index =
      type.write (f (layout.valueAt type bytes index)) := by
  induction indices generalizing bytes with
  | nil => cases member
  | cons first rest ih =>
      simp only [List.forall_mem_cons] at inside
      obtain ⟨apartFirst, apartRest⟩ := List.pairwise_cons.mp apart
      set fresh := type.write (f (layout.valueAt type bytes first)) with made
      have count : fresh.length = type.bytes := ElementType.write_length type _
      have insideRest : ∀ index ∈ rest, layout.address index + type.bytes ≤
          (overwrite bytes (layout.address first) fresh).length := by
        simpa only [overwrite_length] using inside.2
      rw [replaced]
      rcases List.mem_cons.mp member with rfl | later
      · rw [bytesAt_replaced_of_apart insideRest apartFirst, ← made, bytesAt_overwrite count inside.1]
      · have same : layout.bytesAt type (overwrite bytes (layout.address first) fresh) index =
            layout.bytesAt type bytes index :=
          bytesAt_overwrite_of_apart count inside.1 (apartFirst index later)
        rw [ih insideRest apartRest later, valueAt, same, ← valueAt]

/-- All elements were replaced by what the function gives for them, and nothing else was. -/
structure Replaces (layout : Layout) (type : ElementType) (f : type.Carrier → type.Carrier)
    (bytes after : List UInt8) : Prop where
  length : after.length = bytes.length
  element : ∀ index, Index.Within index layout.shape →
    layout.bytesAt type after index = type.write (f (layout.valueAt type bytes index))
  outside : ∀ place, layout.Between type.bytes (Index.all layout.shape) place →
    after[place]? = bytes[place]?

namespace Replaces

theorem value (replaces : layout.Replaces type f bytes after) (within : Index.Within index layout.shape) :
    layout.valueAt type after index = f (layout.valueAt type bytes index) := by
  rw [valueAt, replaces.element index within, ElementType.read_write]

theorem comp {last : List UInt8} (first : layout.Replaces type f bytes after)
    (second : layout.Replaces type g after last) : layout.Replaces type (g ∘ f) bytes last where
  length := second.length.trans first.length
  element index within := by rw [second.element index within, first.value within, Function.comp_apply]
  outside place between := (second.outside place between).trans (first.outside place between)

/-- What is between the elements and what the elements are is all there is. -/
theorem unique {other : List UInt8} (inhabited : 0 ∉ layout.shape)
    (left : layout.Replaces type f bytes after) (right : layout.Replaces type f bytes other) :
    after = other := by
  refine List.ext_getElem? fun place => ?_
  by_cases between : layout.Between type.bytes (Index.all layout.shape) place
  · rw [left.outside place between, right.outside place between]
  · simp only [Between, not_forall, not_or] at between
    obtain ⟨index, member, reached, within⟩ := between
    have inBounds := (Index.mem_all inhabited).mp member
    have same := (left.element index inBounds).trans (right.element index inBounds).symm
    have here := congrArg (·[place - layout.address index]?) same
    have near : place - layout.address index < type.bytes := by omega
    have there : layout.address index + (place - layout.address index) = place := by omega
    simpa only [bytesAt, getElem?_span, near, ↓reduceIte, there] using here

end Replaces

end Layout

end Marshal
