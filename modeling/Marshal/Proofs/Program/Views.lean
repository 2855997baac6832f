import Mathlib
import Marshal.Proofs.Program.Lasting
import Marshal.Proofs.World.Fresh
import Marshal.Proofs.World.Inside
import Marshal.Sample.State

/-!
# Views that programs can come by

A history makes arrays and derives views from them, with anything else that native code does in between.
Its views stay inside their buffers, unless a view whose elements cannot be counted is reshaped: such a
view is empty, but counts as one of the largest size, and what it is reshaped to has that many
elements.
-/

namespace Marshal

open World
open Act hiding pure bind

variable {σ : Type}

namespace ArrayRequest

/-- Requests that make an array of data that fits in memory, or derive a view from one of these. -/
def Draws (views : List ArrayView) : ArrayRequest → Prop
  | .wrap data _ _ _ => data.length ≤ Size.signedMax
  | .zeros _ _ => True
  | .ofElements type items _ => items.length * type.bytes ≤ Size.signedMax
  | .borrow data layout _ _ => data.length ≤ Size.signedMax ∧ layout.Made
  | .copy view | .reshape view _ | .transpose view | .slice view _ _ => view ∈ views
  | _ => False

/-- Whether the elements of a view can be counted before it is reshaped. -/
def isCounted : ArrayRequest → Bool
  | .reshape view _ => view.layout.isCounted
  | _ => true

end ArrayRequest

/-- A world and views that were made or derived on the way to it.  The flag says whether every view
that was reshaped could be counted. -/
inductive History [NativeState σ] : World σ → List ArrayView → Bool → Prop
  | start (w : World σ) : History w [] true
  | view {w after : World σ} {views : List ArrayView} {counted : Bool} {request : ArrayRequest}
      {view : ArrayView} (earlier : History w views counted) (draws : request.Draws views)
      (served : request.serve w = (.returned (.array view), after)) :
      History after (view :: views) (counted && request.isCounted)
  | later {w : World σ} {views : List ArrayView} {counted : Bool} (earlier : History w views counted)
      (stack : Nat) (frames : List Frame) (program : Program σ) :
      History (Program.run stack frames program w).2 views counted

namespace ArrayView

variable {view source : ArrayView} {w after : World σ}

theorem Over.later {length : Nat} (lies : view.Over w length) (kept : w.KeepsRoom after) :
    view.Over after length :=
  ⟨kept _ _ lies.room, lies.bounded⟩

theorem Settled.later (settled : view.Settled w) (kept : w.KeepsRoom after) : view.Settled after := by
  obtain ⟨length, lies, settled⟩ := settled
  exact ⟨length, lies.later kept, settled⟩

theorem Settled.inside (settled : view.Settled w) : view.Inside w := by
  obtain ⟨length, lies, settled⟩ := settled
  exact .of_fits lies.room (Nat.le_trans lies.bounded Size.signedMax_le_max) settled.fits

/-- The last element of the view lies beyond the end of its buffer. -/
def Leaves (view : ArrayView) (w : World σ) : Prop :=
  ∃ length, view.Over w length ∧ 0 ∉ view.shape ∧
    length < view.layout.address (Index.last view.shape) + view.dtype.size

theorem Leaves.later (leaves : view.Leaves w) (kept : w.KeepsRoom after) : view.Leaves after := by
  obtain ⟨length, lies, inhabited, beyond⟩ := leaves
  exact ⟨length, lies.later kept, inhabited, beyond⟩

theorem Leaves.not_inside (leaves : view.Leaves w) : ¬ view.Inside w := by
  obtain ⟨length, lies, inhabited, beyond⟩ := leaves
  rintro ⟨room, known, inside⟩
  cases known.symm.trans lies.room
  obtain ⟨offset, found, fits⟩ := inside _ (Index.last_within inhabited)
  have computed := elementOffset_of_byteOffset found
  simp only [Layout.elementOffset, Size.address] at computed
  split at computed
  · cases computed
    omega
  · cases computed

theorem derive_returned {layout : Layout}
    (derived : source.derive layout w = (.returned view, after)) :
    view.layout = layout ∧ view.buffer = source.buffer ∧ w.KeepsRoom after := by
  have quiet := (source.quiet_derive layout).ended derived
  cases derived
  exact ⟨rfl, rfl, quiet.room⟩

end ArrayView

namespace ArrayRequest

variable {request : ArrayRequest} {views : List ArrayView} {view : ArrayView} {w after : World σ}

theorem returned_array {act : Act σ ArrayView}
    (ended : (do return Value.array (← act)) w = (.returned (.array view), after)) :
    act w = (.returned view, after) := by
  obtain ⟨found, _, first, rest⟩ := returned_of_bind ended
  cases rest
  exact first

theorem derived_view {source : ArrayView} {layout : Layout}
    (derived : source.derive layout w = (.returned view, after))
    (lies : ∃ length, source.Over w length) :
    (∃ length, view.Over after length) ∧
      ((∀ length ≤ Size.signedMax, source.layout.Settled length → layout.Settled length) →
        source.Settled w → view.Settled after) ∧
      ((∀ length ≤ Size.signedMax, 0 ∉ layout.shape ∧
        length < layout.address (Index.last layout.shape) + layout.dtype.size) →
        view.Leaves after) := by
  obtain ⟨rfl, sameBuffer, kept⟩ := ArrayView.derive_returned derived
  have moved : ∀ {length}, source.Over w length → view.Over after length := fun lies =>
    ⟨by rw [sameBuffer]; exact kept _ _ lies.room, lies.bounded⟩
  obtain ⟨length, lies⟩ := lies
  refine ⟨⟨length, moved lies⟩, fun keeps => ?_, fun leaves => ?_⟩
  · rintro ⟨other, liesOther, settled⟩
    exact ⟨other, moved liesOther, keeps other liesOther.bounded settled⟩
  · obtain ⟨inhabited, beyond⟩ := leaves length lies.bounded
    exact ⟨length, moved lies, inhabited, beyond⟩

/-- What one request adds to a history: a view that keeps its promises if all the views before it do,
unless it reshapes a view that cannot be counted. -/
theorem serve_view (draws : request.Draws views)
    (served : request.serve w = (.returned (.array view), after))
    (lies : ∀ source ∈ views, ∃ length, source.Over w length) :
    (∃ length, view.Over after length) ∧
      (request.isCounted = true → (∀ source ∈ views, source.Settled w) → view.Settled after) ∧
      (request.isCounted = false → view.Leaves after) := by
  have fresh : view.Settled after → request.isCounted = true →
      (∃ length, view.Over after length) ∧
        (request.isCounted = true → (∀ source ∈ views, source.Settled w) → view.Settled after) ∧
        (request.isCounted = false → view.Leaves after) := by
    intro settled counted
    obtain ⟨length, lies, _⟩ := id settled
    refine ⟨⟨length, lies⟩, fun _ _ => settled, fun uncounted => ?_⟩
    rw [counted] at uncounted
    cases uncounted
  cases request with
  | wrap data shape strides dtype =>
      exact fresh (ArrayView.settled_of_wrap (returned_array served) draws) rfl
  | zeros shape dtype =>
      obtain ⟨bytes, filled, made⟩ := ArrayView.make_of_zeros (returned_array served)
      exact fresh (ArrayView.settled_of_filled filled made) rfl
  | ofElements type items shape =>
      obtain ⟨_, filled, made⟩ := ArrayView.make_of_ofElements (returned_array served) draws
      exact fresh (ArrayView.settled_of_filled filled made) rfl
  | borrow data layout readonly keeper =>
      exact fresh (ArrayView.settled_of_borrow (returned_array served) draws.1 draws.2) rfl
  | copy source =>
      obtain ⟨bytes, filled, made⟩ := ArrayView.make_of_copy (returned_array served)
      exact fresh (ArrayView.settled_of_filled filled made) rfl
  | reshape source shape =>
      obtain ⟨layout, _, laid, derived⟩ := returned_of_bind (returned_array served)
      obtain ⟨reshaped, rfl⟩ := returned_of_ofExcept laid
      obtain ⟨still, settles, leaves⟩ := derived_view derived (lies source draws)
      refine ⟨still, fun counted settled => ?_, fun uncounted => ?_⟩
      · exact settles (fun length bounded before => before.reshape reshaped counted bounded)
          (settled source draws)
      · exact leaves fun length bounded => Layout.reshape_leaves reshaped uncounted bounded
  | transpose source =>
      obtain ⟨still, settles, _⟩ := derived_view (returned_array served) (lies source draws)
      refine ⟨still, fun _ settled => ?_, fun impossible => by cases impossible⟩
      exact settles (fun _ _ before => before.transpose) (settled source draws)
  | slice source start stop =>
      obtain ⟨layout, _, laid, derived⟩ := returned_of_bind (returned_array served)
      obtain ⟨computed, rfl⟩ := returned_of_ofAddress laid
      obtain ⟨still, settles, _⟩ := derived_view derived (lies source draws)
      refine ⟨still, fun _ settled => ?_, fun impossible => by cases impossible⟩
      refine settles (fun length bounded before => ?_) (settled source draws)
      exact before.slice computed
  | _ => exact draws.elim

end ArrayRequest

namespace History

variable [NativeState σ] {w : World σ} {views : List ArrayView} {counted : Bool}

theorem lies (history : History w views counted) : ∀ view ∈ views, ∃ length, view.Over w length := by
  induction history with
  | start w => simp
  | view earlier draws served ih =>
      have kept := (ArrayRequest.quiet_serve _).room.ended served
      have added := (ArrayRequest.serve_view draws served ih).1
      rintro other (_ | ⟨_, member⟩)
      · exact added
      · obtain ⟨length, lies⟩ := ih other member
        exact ⟨length, lies.later kept⟩
  | later earlier stack frames program ih =>
      intro view member
      obtain ⟨length, lies⟩ := ih view member
      exact ⟨length, lies.later (Program.keepsRoom_run stack frames program _)⟩

theorem settled (history : History w views counted) (sound : counted = true) :
    ∀ view ∈ views, view.Settled w := by
  induction history with
  | start w => simp
  | view earlier draws served ih =>
      simp only [Bool.and_eq_true] at sound
      have kept := (ArrayRequest.quiet_serve _).room.ended served
      have added := (ArrayRequest.serve_view draws served earlier.lies).2.1 sound.2 (ih sound.1)
      rintro other (_ | ⟨_, member⟩)
      · exact added
      · exact (ih sound.1 other member).later kept
  | later earlier stack frames program ih =>
      intro view member
      exact (ih sound view member).later (Program.keepsRoom_run stack frames program _)

theorem leaves (history : History w views counted) (unsound : counted = false) :
    ∃ view ∈ views, view.Leaves w := by
  induction history with
  | start w => cases unsound
  | @view w after views counted request view earlier draws served ih =>
      have kept := (ArrayRequest.quiet_serve _).room.ended served
      cases before : counted with
      | false =>
          obtain ⟨other, member, leaves⟩ := ih before
          exact ⟨other, List.mem_cons_of_mem _ member, leaves.later kept⟩
      | true =>
          rw [before, Bool.true_and] at unsound
          exact ⟨view, by simp, (ArrayRequest.serve_view draws served earlier.lies).2.2 unsound⟩
  | later earlier stack frames program ih =>
      obtain ⟨view, member, leaves⟩ := ih unsound
      exact ⟨view, member, leaves.later (Program.keepsRoom_run stack frames program _)⟩

end History

/-- Views stay inside their buffers exactly as long as every view that is reshaped can be counted.  On
a view inside its buffer nothing panics over an index: reading and writing elements never panics,
copying and nesting only ask for too much room, and mapping panics only where the mapped native code
does. -/
theorem views_inside_exact [NativeState σ] {w : World σ} {views : List ArrayView} {counted : Bool}
    (history : History w views counted) :
    ((∀ view ∈ views, view.Inside w) ↔ counted = true) ∧
    ∀ view ∈ views, view.Inside w →
      (∀ type index, PanicsOnly (fun _ => False) (view.get type index) w) ∧
      (∀ type index element, PanicsOnly (fun _ => False) (view.set type index element) w) ∧
      (∀ index, PanicsOnly (fun _ => False) (view.scalarAt index) w) ∧
      (∀ type, PanicsOnly (fun _ => False) (view.elements type) w) ∧
      PanicsOnly (fun _ => False) view.scalars w ∧
      PanicsOnly (· = .text "capacity overflow") view.copy w ∧
      PanicsOnly (· = .text "capacity overflow") view.nested w ∧
      ∀ type (body : type.Carrier → Program σ) stack frames,
        PanicsOnly
          (fun p => ∃ old now after, Program.run stack frames (body old) now = (.panicked p, after))
          (view.mapElements type fun old => do
            return Program.elementOr type old (← Program.run stack frames (body old))) w := by
  refine ⟨⟨fun inside => ?_, fun sound view member => ?_⟩, fun view member inside => ?_⟩
  · by_contra unsound
    obtain ⟨view, member, leaves⟩ := history.leaves (by simpa using unsound)
    exact leaves.not_inside (inside view member)
  · exact (history.settled sound view member).inside
  · refine ⟨fun type => inside.get type, fun type => inside.set type, inside.scalarAt,
      fun type => inside.elements type, inside.scalars, inside.copy, inside.nested, ?_⟩
    intro type body stack frames
    refine inside.mapElements type (fun old => ?_) fun old now => ?_
    · exact (Program.keepsRoom_run stack frames (body old)).bind fun _ => keeps_pure _
    · exact PanicsOnly.bind (fun _ after panicked => ⟨old, now, after, panicked⟩)
        fun _ _ _ => panicsOnly_pure _

/-- An array without bytes, whose elements cannot be counted from the left. -/
def uncountable : ArrayView :=
  { id := 1
    layout :=
      { shape := [2 ^ 63, 2, 0], strides := [0, 0, 1], dtype := .number (.int .u8), order := .c, offset := 0 }
    buffer := 0
    ownership := .owned
    base? := none }

theorem views_inside_exact_uncountable :
    ∃ (w : World Sample.State) (reshaped : ArrayView),
      History w [reshaped, uncountable] false ∧ reshaped.shape = [Size.max] ∧
        ¬ ∀ view ∈ [reshaped, uncountable], view.Inside w := by
  let start : World Sample.State := {}
  let wrap := ArrayRequest.wrap [] [2 ^ 63, 2, 0] [0, 0, 1] (.number (.int .u8))
  let reshape := ArrayRequest.reshape uncountable [Size.max]
  let reshaped : ArrayView :=
    { id := 2
      layout := Layout.cContiguous [Size.max] (.number (.int .u8))
      buffer := 0
      ownership := .view
      base? := some 1 }
  have wrapped : (wrap.serve start).1 = .returned (.array uncountable) := by rfl
  have derived : (reshape.serve (wrap.serve start).2).1 = .returned (.array reshaped) := by rfl
  have history : History (reshape.serve (wrap.serve start).2).2 [reshaped, uncountable] false :=
    .view (.view (.start start) (Nat.zero_le _) (Prod.ext wrapped rfl))
      (by simp [reshape, ArrayRequest.Draws])
      (Prod.ext derived rfl)
  refine ⟨_, reshaped, history, rfl, fun inside => ?_⟩
  exact absurd ((views_inside_exact history).1.mp inside) (by decide)

end Marshal
