import Mathlib
import Marshal.Proofs.Array.Tiling
import Marshal.Proofs.Program.Views
import Marshal.Proofs.World.Store

namespace Marshal

open World
open Act hiding pure bind

variable {σ : Type}

namespace ArrayRequest

/-- Requests that make an array of elements of its own. -/
def Makes : ArrayRequest → Prop
  | .zeros _ _ | .copy _ => True
  | .ofElements type items _ => items.length * type.bytes ≤ Size.signedMax
  | _ => False

/-- Requests that derive a view from one of these. -/
def Derives (views : List ArrayView) : ArrayRequest → Prop
  | .reshape view _ | .transpose view | .slice view _ _ => view ∈ views
  | _ => False

end ArrayRequest

/-- A world, the members of a family in it, and copies of members.  The members are an array that was
made there and views that were derived from members; none of them is empty. -/
inductive Family [NativeState σ] : World σ → List ArrayView → List ArrayView → Prop
  | made {w after : World σ} {request : ArrayRequest} {view : ArrayView} (makes : request.Makes)
      (served : request.serve w = (.returned (.array view), after)) (inhabited : 0 ∉ view.shape) :
      Family after [view] []
  | derived {w after : World σ} {members copies : List ArrayView} {request : ArrayRequest}
      {view : ArrayView} (earlier : Family w members copies) (derives : request.Derives members)
      (served : request.serve w = (.returned (.array view), after)) (inhabited : 0 ∉ view.shape) :
      Family after (view :: members) copies
  | copied {w after : World σ} {members copies : List ArrayView} {member copy : ArrayView}
      (earlier : Family w members copies) (belongs : member ∈ members)
      (made : member.copy w = (.returned copy, after)) : Family after members (copy :: copies)
  | later {w : World σ} {members copies : List ArrayView} (earlier : Family w members copies)
      (stack : Nat) (frames : List Frame) (program : Program σ) :
      Family (Program.run stack frames program w).2 members copies

/-- A view without empty axes over a grid in this buffer, with elements of this type. -/
structure ArrayView.Tiles (view : ArrayView) (buffer : Nat) (dtype : DType) (w : World σ) : Prop where
  buffer : view.buffer = buffer
  dtype : view.dtype = dtype
  inhabited : 0 ∉ view.shape
  settled : view.Settled w
  tiled : view.layout.Tiled

namespace ArrayView

variable {view source : ArrayView} {buffer : Nat} {dtype : DType} {w after : World σ}

theorem Tiles.later (tiles : view.Tiles buffer dtype w) (kept : w.KeepsRoom after) :
    view.Tiles buffer dtype after :=
  { tiles with settled := tiles.settled.later kept }

theorem tiles_of_filled {shape : List Nat} {bytes : List UInt8}
    (filled : Filled (Layout.cContiguous shape dtype) bytes)
    (made : make (Layout.cContiguous shape dtype) (ownedBuffer bytes) .owned w = (.returned view, after))
    (inhabited : 0 ∉ view.shape) : view.Tiles view.buffer view.dtype after := by
  obtain ⟨same, _, _⟩ := buffer_of_make made
  have contiguous : Layout.Contiguous view.layout := by
    rw [same]
    exact .c shape dtype 0
  have start : view.layout.dtype.size ∣ view.layout.offset := by
    rw [same]
    exact Nat.dvd_zero _
  obtain ⟨length, lies, settled⟩ := settled_of_filled filled made
  have packed := settled.packed inhabited
  exact ⟨rfl, rfl, inhabited, ⟨length, lies, settled⟩,
    packed.tiled contiguous.order_ne contiguous.lengths start⟩

theorem Tiles.byteOffset {index : List Nat} (tiles : view.Tiles buffer dtype w)
    (within : Index.Within index view.shape) :
    view.layout.byteOffset index = .ok (some (view.layout.address index)) := by
  obtain ⟨length, lies, settled⟩ := tiles.settled
  have bounded := Nat.le_trans lies.bounded Size.signedMax_le_max
  exact (settled.fits tiles.inhabited).byteOffset bounded within

theorem Tiles.same_or_apart {i j : List Nat} (tiles : view.Tiles buffer dtype w)
    (sourceTiles : source.Tiles buffer dtype w) (withinI : Index.Within i view.shape)
    (withinJ : Index.Within j source.shape) :
    view.layout.address i = source.layout.address j ∨
      view.layout.address i + view.dtype.size ≤ source.layout.address j ∨
      source.layout.address j + view.dtype.size ≤ view.layout.address i :=
  tiles.tiled.same_or_apart sourceTiles.tiled (sourceTiles.dtype.trans tiles.dtype.symm) withinI withinJ

/-- What a view over the same grid reads after an element was written. -/
theorem Tiles.gets_after_set {type : ElementType} {i j : List Nat} {x : type.Carrier}
    (tiles : view.Tiles buffer dtype w) (sourceTiles : source.Tiles buffer dtype w)
    (done : view.set type i x w = (.returned (), after)) (withinJ : Index.Within j source.shape) :
    (source.layout.byteOffset j = view.layout.byteOffset i →
        source.get type j after = (.returned x, after)) ∧
      (source.layout.byteOffset j ≠ view.layout.byteOffset i →
        ∃ old, source.get type j w = (.returned old, w) ∧
          source.get type j after = (.returned old, after)) := by
  have inside := tiles.settled.inside
  obtain ⟨typed, withinI, _⟩ := inside.returned_of_set done
  have size : view.dtype.size = type.bytes := congrArg DType.size typed
  have shared := sourceTiles.buffer.trans tiles.buffer.symm
  have sameType := sourceTiles.dtype.trans tiles.dtype.symm
  have place := tiles.same_or_apart sourceTiles withinI withinJ
  rw [size] at place
  rw [tiles.byteOffset withinI, sourceTiles.byteOffset withinJ]
  simp only [Except.ok.injEq, Option.some.injEq, ne_eq]
  constructor
  · intro same
    exact inside.get_written done sourceTiles.settled.inside shared sameType withinJ same
  · intro other
    have apart := place.resolve_left fun same => other same.symm
    exact inside.get_unwritten done sourceTiles.settled.inside shared sameType withinJ apart

theorem Tiles.derive {layout : Layout} (tiles : source.Tiles buffer dtype w)
    (derived : source.derive layout w = (.returned view, after)) (inhabited : 0 ∉ view.shape)
    (sameType : layout.dtype = source.layout.dtype)
    (keeps : ∀ length ≤ Size.signedMax, source.layout.Settled length → 0 ∉ layout.shape →
      layout.Settled length ∧ layout.Tiled) : view.Tiles buffer dtype after := by
  obtain ⟨rfl, sameBuffer, kept⟩ := derive_returned derived
  obtain ⟨length, lies, settled⟩ := tiles.settled
  obtain ⟨still, tiled⟩ := keeps length lies.bounded settled inhabited
  have moved : view.Over after length := ⟨by rw [sameBuffer]; exact kept _ _ lies.room, lies.bounded⟩
  exact ⟨sameBuffer.trans tiles.buffer, sameType.trans tiles.dtype, inhabited, ⟨length, moved, still⟩,
    tiled⟩

end ArrayView

namespace ArrayRequest

variable {request : ArrayRequest} {view : ArrayView} {w after : World σ}

theorem Makes.tiles (makes : request.Makes) (served : request.serve w = (.returned (.array view), after))
    (inhabited : 0 ∉ view.shape) : view.Tiles view.buffer view.dtype after := by
  cases request with
  | zeros shape dtype =>
      obtain ⟨bytes, filled, made⟩ := ArrayView.make_of_zeros (returned_array served)
      exact ArrayView.tiles_of_filled filled made inhabited
  | ofElements type items shape =>
      obtain ⟨_, filled, made⟩ := ArrayView.make_of_ofElements (returned_array served) makes
      exact ArrayView.tiles_of_filled filled made inhabited
  | copy source =>
      obtain ⟨bytes, filled, made⟩ := ArrayView.make_of_copy (returned_array served)
      exact ArrayView.tiles_of_filled filled made inhabited
  | _ => exact makes.elim

theorem Derives.tiles {members : List ArrayView} {buffer : Nat} {dtype : DType}
    (derives : request.Derives members) (served : request.serve w = (.returned (.array view), after))
    (tile : ∀ member ∈ members, member.Tiles buffer dtype w) (inhabited : 0 ∉ view.shape) :
    view.Tiles buffer dtype after := by
  cases request with
  | reshape source shape =>
      obtain ⟨layout, _, laid, derived⟩ := returned_of_bind (returned_array served)
      obtain ⟨reshaped, rfl⟩ := returned_of_ofExcept laid
      have tiles := tile source derives
      have sameType := (Layout.reshape_eq_ok reshaped).2.2.2.1
      refine tiles.derive derived inhabited sameType fun length bounded settled populated => ?_
      exact tiles.tiled.reshape tiles.inhabited settled bounded reshaped populated
  | transpose source =>
      have tiles := tile source derives
      refine tiles.derive (returned_array served) inhabited rfl fun length _ settled _ => ?_
      exact ⟨settled.transpose, tiles.tiled.transpose settled.lengths⟩
  | slice source start stop =>
      obtain ⟨layout, _, laid, derived⟩ := returned_of_bind (returned_array served)
      obtain ⟨computed, rfl⟩ := returned_of_ofAddress laid
      have tiles := tile source derives
      obtain ⟨length, _, settled⟩ := tiles.settled
      obtain ⟨selects, rfl⟩ := Layout.slice_eq_ok settled.lengths computed
      refine tiles.derive derived inhabited rfl fun length _ settled _ => ?_
      exact ⟨settled.part selects, tiles.tiled.part selects⟩
  | _ => exact derives.elim

end ArrayRequest

/-- All members of a family tile one buffer, which no copy lies over. -/
theorem Family.tiles [NativeState σ] {w : World σ} {members copies : List ArrayView}
    (family : Family w members copies) :
    ∃ buffer dtype, (∀ member ∈ members, member.Tiles buffer dtype w) ∧
      ∀ copy ∈ copies, copy.buffer ≠ buffer := by
  induction family with
  | @made w after request view makes served inhabited =>
      have tiles := makes.tiles served inhabited
      exact ⟨view.buffer, view.dtype, by simpa using tiles, by simp⟩
  | derived earlier derives served inhabited ih =>
      obtain ⟨buffer, dtype, tile, separate⟩ := ih
      have kept := (ArrayRequest.quiet_serve _).room.ended served
      have added := derives.tiles served tile inhabited
      refine ⟨buffer, dtype, ?_, separate⟩
      rintro other (_ | ⟨_, member⟩)
      · exact added
      · exact (tile other member).later kept
  | copied earlier belongs made ih =>
      obtain ⟨buffer, dtype, tile, separate⟩ := ih
      have kept := (ArrayView.quiet_copy _).room.ended made
      obtain ⟨bytes, _, fresh⟩ := ArrayView.make_of_copy made
      obtain ⟨_, new, _⟩ := ArrayView.buffer_of_make fresh
      refine ⟨buffer, dtype, fun other member => (tile other member).later kept, ?_⟩
      rintro other (_ | ⟨_, member⟩)
      · -- the buffer of the family was there before the one of the copy
        obtain ⟨length, lies, _⟩ := (tile _ belongs).settled
        obtain ⟨_, there, _⟩ := Option.map_eq_some_iff.mp lies.room
        have old := (List.getElem?_eq_some_iff.mp there).1
        rw [(tile _ belongs).buffer] at old
        omega
      · exact separate other member
  | later earlier stack frames program ih =>
      obtain ⟨buffer, dtype, tile, separate⟩ := ih
      have kept := Program.keepsRoom_run stack frames program
      exact ⟨buffer, dtype, fun other member => (tile other member).later (kept _), separate⟩

/-- Aliasing in a family is exact.  Any two elements of members are the same bytes or have none in common,
and within one member two different ones have none in common, so that every member may be mutated in
place.  An element can be written through a member while nobody uses the buffer, unless that is read-only.
Once it is written, every member reads it where it has the same bytes and what was there before at all its
other indices; copies stay as they are. -/
theorem aliasing_exact [NativeState σ] {w : World σ} {members copies : List ArrayView}
    (family : Family w members copies) :
    (∀ a ∈ members, ∀ b ∈ members, a.buffer = b.buffer ∧ a.dtype = b.dtype ∧
      ∀ i j, Index.Within i a.shape → Index.Within j b.shape →
        ∃ p q, a.layout.byteOffset i = .ok (some p) ∧ b.layout.byteOffset j = .ok (some q) ∧
          (p = q ∨ p + a.dtype.size ≤ q ∨ q + a.dtype.size ≤ p)) ∧
    (∀ a ∈ members, a.layout.hasOverlap = false ∧
      ∀ i j, Index.Within i a.shape → Index.Within j a.shape → i ≠ j →
        ∃ p q, a.layout.byteOffset i = .ok (some p) ∧ a.layout.byteOffset j = .ok (some q) ∧
          (p + a.dtype.size ≤ q ∨ q + a.dtype.size ≤ p)) ∧
    ∀ a ∈ members, ∀ (type : ElementType) (i : List Nat) (x : type.Carrier),
      (a.dtype = .number type → Index.Within i a.shape → w.bufferAccess a.buffer = .idle →
        w.sealed? a.buffer = none → ∃ after, a.set type i x w = (.returned (), after)) ∧
      ∀ after : World σ, a.set type i x w = (.returned (), after) →
        (∀ b ∈ members, ∀ j, Index.Within j b.shape →
          (b.layout.byteOffset j = a.layout.byteOffset i →
            b.get type j after = (.returned x, after)) ∧
          (b.layout.byteOffset j ≠ a.layout.byteOffset i →
            ∃ old, b.get type j w = (.returned old, w) ∧ b.get type j after = (.returned old, after))) ∧
        ∀ copy ∈ copies, after.buffer? copy = w.buffer? copy ∧
          ∀ j, (copy.get type j after).1 = (copy.get type j w).1 := by
  obtain ⟨buffer, dtype, tile, separate⟩ := family.tiles
  refine ⟨fun a memberA b memberB => ?_, fun a member => ?_, fun a member type i x => ⟨?_, ?_⟩⟩
  · have tilesA := tile a memberA
    have tilesB := tile b memberB
    refine ⟨tilesA.buffer.trans tilesB.buffer.symm, tilesA.dtype.trans tilesB.dtype.symm, ?_⟩
    intro i j withinI withinJ
    exact ⟨_, _, tilesA.byteOffset withinI, tilesB.byteOffset withinJ,
      tilesA.same_or_apart tilesB withinI withinJ⟩
  · have tiles := tile a member
    refine ⟨tiles.tiled.hasOverlap tiles.inhabited, fun i j withinI withinJ ne => ?_⟩
    exact ⟨_, _, tiles.byteOffset withinI, tiles.byteOffset withinJ, tiles.tiled.apart withinI withinJ ne⟩
  · intro typed within idle unsealed
    exact (tile a member).settled.inside.sets typed within idle unsealed x
  · intro after done
    have tiles := tile a member
    refine ⟨fun b memberB j within => ?_, fun copy copied => ?_⟩
    · exact tiles.gets_after_set (tile b memberB) done within
    · have same := tiles.settled.inside.buffer?_after_set done (tiles.buffer ▸ separate copy copied)
      exact ⟨same, fun j => ArrayView.get_congr same⟩

/-- Two rows of three numbers. -/
def rows : ArrayView :=
  { id := 1
    layout := Layout.cContiguous [2, 3] (.number (.int .i32))
    buffer := 0
    ownership := .owned
    base? := none }

/-- The same numbers as three columns. -/
def columns : ArrayView :=
  { rows with id := 2, layout := rows.layout.transpose, ownership := .view, base? := some 1 }

theorem aliasing_exact_columns :
    ∃ (w after : World Sample.State) (copy : ArrayView),
      Family w [columns, rows] [copy] ∧
      columns.set (.int .i32) [2, 1] (Fixed.wrap .i32 7) w = (.returned (), after) ∧
      rows.get (.int .i32) [1, 2] after = (.returned (Fixed.wrap .i32 7), after) ∧
      after.buffer? copy = w.buffer? copy := by
  let start : World Sample.State := {}
  let zeros := ArrayRequest.zeros [2, 3] (.number (.int .i32))
  let transpose := ArrayRequest.transpose rows
  let seven := Fixed.wrap .i32 7
  let made := (zeros.serve start).2
  let derived := (transpose.serve made).2
  let copied := (rows.copy derived).2
  let after := (columns.set (.int .i32) [2, 1] seven copied).2
  let copy : ArrayView := { rows with id := 3, buffer := 1 }
  have zeroed : zeros.serve start = (.returned (.array rows), made) := apply_of_outcome (by rfl)
  have turned : transpose.serve made = (.returned (.array columns), derived) := apply_of_outcome (by rfl)
  have filled : rows.copy derived = (.returned copy, copied) := apply_of_outcome (by rfl)
  have written : columns.set (.int .i32) [2, 1] seven copied = (.returned (), after) :=
    apply_of_outcome (by rfl)
  have makes : zeros.Makes := trivial
  have derives : transpose.Derives [rows] := List.mem_singleton_self rows
  have family : Family copied [columns, rows] [copy] :=
    .copied (.derived (.made makes zeroed (by decide)) derives turned (by decide)) (by simp) filled
  have exact := ((aliasing_exact family).2.2 columns (by simp) (.int .i32) [2, 1] seven).2 after written
  have seen := (exact.1 rows (by simp) [1, 2] (by decide)).1 rfl
  exact ⟨copied, after, copy, family, written, seen, (exact.2 copy (by simp)).1⟩

end Marshal
