import Mathlib
import Marshal.Proofs.World.Readers

namespace Marshal

open Act hiding pure bind

-- Powers with natural exponents are the core ones, whatever else is in scope.
attribute [local instance (2000)] instPowNat

namespace ArrayView

variable {σ : Type} {w after : World σ} {view result : ArrayView} {type : ElementType}
  {elements : List type.Carrier} {shape : List Nat}

/-- The view has rows of these elements, which are all that is in its memory. -/
structure Lists (view : ArrayView) (type : ElementType) (elements : List type.Carrier) (w : World σ) :
    Prop where
  layout : view.layout = Layout.cContiguous view.shape (.number type)
  counted : Size.checkedProduct view.shape = some elements.length
  found : w.buffer? view = some (ownedBuffer (elements.flatMap type.write))
  bounded : elements.length * type.bytes ≤ Size.signedMax

theorem lists_of_ofElements (bounded : elements.length * type.bytes ≤ Size.signedMax)
    (made : ofElements type elements shape w = (.returned view, after)) :
    view.Lists type elements after := by
  obtain ⟨counted, _, made⟩ := make_of_ofElements made bounded
  obtain ⟨layout, _, _⟩ := buffer_of_make made
  have same : view.shape = shape := congrArg Layout.shape layout
  exact ⟨by rw [layout, same], by rw [same, counted], found_of_make made, bounded⟩

namespace Lists

variable (lists : view.Lists type elements w)

include lists

theorem dtype : view.dtype = .number type := congrArg Layout.dtype lists.layout

theorem prod : view.shape.prod = elements.length := (Size.checkedProduct_eq lists.counted).symm

theorem filled : Filled (Layout.cContiguous view.shape (.number type)) (elements.flatMap type.write) where
  total := by
    rw [type.flatMap_write_length, ← lists.prod]
    rfl
  bounded := by
    rw [type.flatMap_write_length]
    exact lists.bounded

theorem readable : view.Readable w (ownedBuffer (elements.flatMap type.write)) where
  found := lists.found
  unwritten := nofun
  valid := by
    rw [lists.layout]
    exact validate_of_filled lists.filled

/-- Reshaping a view that has these elements in rows leaves them all in place. -/
theorem reshape (reshaped : view.reshape shape w = (.returned result, after)) :
    result.Lists type elements after := by
  simp only [ArrayView.reshape] at reshaped
  obtain ⟨layout, _, laid, derived⟩ := returned_of_bind reshaped
  obtain ⟨laid, rfl⟩ := returned_of_ofExcept laid
  have size : view.layout.size = elements.length := by
    have counted : Size.checkedProduct view.layout.shape = some elements.length := lists.counted
    rw [Layout.size, counted, Option.getD_some]
  have order : view.layout.order = .c := congrArg Layout.order lists.layout
  have offset : view.layout.offset = 0 := congrArg Layout.offset lists.layout
  have dtype : view.layout.dtype = .number type := lists.dtype
  simp only [Layout.reshape, size, order, offset, dtype] at laid
  split at laid
  · cases laid
  · rename_i counted
    cases laid
    cases derived
    exact ⟨rfl, not_not.mp counted, lists.found, lists.bounded⟩

theorem valueAt {index : List Nat} {x : type.Carrier} {k : Nat}
    (there : (Index.all view.shape)[k]? = some index) (element : elements[k]? = some x) :
    view.layout.valueAt type (elements.flatMap type.write) index = x := by
  have within := Index.within_of_mem_all (List.mem_of_getElem? there)
  have place : Index.place view.shape index = k := by
    rw [Index.all_eq_product] at there
    exact Index.place_of_getElem? there
  have each : ∀ bytes ∈ elements.map type.write, bytes.length = type.bytes := by
    simp [ElementType.write_length]
  have written : (elements.map type.write)[k]? = some (type.write x) := by
    rw [List.getElem?_map, element, Option.map_some]
  have address : view.layout.address index = k * type.bytes := by
    rw [lists.layout, address_of_filled lists.filled within, place, Nat.mul_comm]
    rfl
  rw [Layout.valueAt, Layout.bytesAt, address, List.flatMap_def, span_flatten each written, type.read_write]

theorem valuesIn : view.valuesIn type (elements.flatMap type.write) = elements := by
  have length : (Index.all view.shape).length = elements.length := by rw [Index.all_length, lists.prod]
  refine List.ext_getElem? fun k => ?_
  rw [ArrayView.valuesIn, List.getElem?_map]
  rcases Nat.lt_or_ge k elements.length with below | beyond
  · have there := List.getElem?_eq_getElem (length ▸ below : k < (Index.all view.shape).length)
    have element := List.getElem?_eq_getElem below
    rw [there, element, Option.map_some, lists.valueAt there element]
  · rw [List.getElem?_eq_none beyond, List.getElem?_eq_none (length ▸ beyond), Option.map_none]

end Lists

theorem Lists.reshapes {shapes : List (List Nat)} (lists : view.Lists type elements w)
    (reshaped : shapes.foldlM ArrayView.reshape view w = (.returned result, after)) :
    result.Lists type elements after := by
  induction shapes generalizing view w with
  | nil =>
      cases reshaped
      exact lists
  | cons shape shapes ih =>
      rw [List.foldlM_cons] at reshaped
      obtain ⟨next, between, first, rest⟩ := returned_of_bind reshaped
      exact ih (lists.reshape first) rest

theorem Lists.elements_apply (lists : view.Lists type elements w) :
    view.elements type w = (.returned elements, w) := by
  have read := lists.readable.elements lists.dtype
  simp only [ownedBuffer, lists.valuesIn] at read
  exact read

theorem Lists.get (lists : view.Lists type elements w) :
    List.Forall₂ (fun index x => view.get type index w = (.returned x, w))
      (Index.all view.shape) elements := by
  have each : List.Forall₂ (fun index x => view.get type index w = (.returned x, w)) (Index.all view.shape)
      (view.valuesIn type (elements.flatMap type.write)) := by
    rw [ArrayView.valuesIn, List.forall₂_map_right_iff, List.forall₂_same]
    exact fun index member => lists.readable.get lists.dtype (Index.within_of_mem_all member)
  rwa [lists.valuesIn] at each

theorem getElem?_flatMap_write {t : IntType} {place : Nat} (below : place < t.bytes)
    (elements : List (Fixed t))
    (k : Nat) : (elements.flatMap (ElementType.int t).write)[k * t.bytes + place]? =
      elements[k]?.map fun x => UInt8.ofInt (x.val / 256 ^ place) := by
  have each : ∀ bytes ∈ elements.map (ElementType.int t).write, bytes.length = t.bytes := by
    intro bytes member
    obtain ⟨x, _, rfl⟩ := List.mem_map.mp member
    exact ElementType.write_length (.int t) x
  rw [List.flatMap_def, getElem?_flatten_of_width each below, List.getElem?_map]
  cases elements[k]? with
  | none => rfl
  | some x => exact ElementType.getElem?_write_int below x

/-- An array made from integers, which lie in memory themselves and so take no more bytes than one
allocation holds, has them in row-major order.  Its buffer is their digits in two's complement, the
lowest byte first, one integer after the other.  Whatever it is reshaped to, time after time, the same
integers are read from it, all at once or one by one. -/
theorem ofElements_exact {t : IntType} {elements : List (Fixed t)}
    (bounded : elements.length * t.bytes ≤ Size.signedMax)
    (made : ofElements (.int t) elements shape w = (.returned view, after)) :
    (∃ bytes, after.buffer? view = some (ownedBuffer bytes) ∧ bytes.length = elements.length * t.bytes ∧
      ∀ k place, place < t.bytes → bytes[k * t.bytes + place]? =
        elements[k]?.map fun x => UInt8.ofInt (x.val / 256 ^ place)) ∧
    ∀ (shapes : List (List Nat)) (last : ArrayView) (later : World σ),
      shapes.foldlM ArrayView.reshape view after = (.returned last, later) →
      last.elements (.int t) later = (.returned elements, later) ∧
      List.Forall₂ (fun index x => last.get (.int t) index later = (.returned x, later))
        (Index.all last.shape) elements := by
  have lists := lists_of_ofElements bounded made
  refine ⟨⟨_, lists.found, ElementType.flatMap_write_length (.int t) elements, ?_⟩, ?_⟩
  · exact fun k place below => getElem?_flatMap_write below elements k
  · intro shapes last later reshaped
    have kept := lists.reshapes reshaped
    exact ⟨kept.elements_apply, kept.get⟩

/-- Six short integers in two rows, then in three, then in one. -/
theorem ofElements_exact_rows :
    ∃ (view last : ArrayView) (after later : World Unit),
      ofElements (.int .i16) ([1, -2, 300, -32768, 32767, 0].map (Fixed.wrap .i16)) [2, 3] {} =
          (.returned view, after) ∧
        after.buffer? view = some (ownedBuffer [1, 0, 254, 255, 44, 1, 0, 128, 255, 127, 0, 0]) ∧
        [[3, 2], [6]].foldlM ArrayView.reshape view after = (.returned last, later) ∧
        last.get (.int .i16) [3] later = (.returned (Fixed.wrap .i16 (-32768)), later) := by
  let elements : List (Fixed .i16) := [1, -2, 300, -32768, 32767, 0].map (Fixed.wrap .i16)
  have made : ofElements (.int .i16) elements [2, 3] ({} : World Unit) = (.returned _, _) := rfl
  obtain ⟨_, again⟩ := ofElements_exact (t := .i16) (by decide) made
  obtain ⟨_, each⟩ := again [[3, 2], [6]] _ _ rfl
  have fourth := List.forall₂_iff_get.mp each
  exact ⟨_, _, _, _, made, rfl, rfl, fourth.2 3 (by decide) (by decide)⟩

end ArrayView

end Marshal
