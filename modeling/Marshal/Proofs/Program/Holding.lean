import Mathlib
import Marshal.Proofs.Program.Walk
import Marshal.Proofs.World.Handle

namespace Marshal

open World
open Act hiding pure bind

variable {σ α : Type}

namespace Handle

variable (handle : Handle) {writable : Bool} {w held : World σ} {state : σ} (act : σ → Act σ α)

theorem whileHeld_of_none (none : handle.entered? writable w = none) :
    (handle.whileHeld writable act w).2 = w := by
  rcases handle.borrowed_cases (w := w) writable with ⟨access, state, borrowed, _⟩ | ⟨e, refused⟩
  · simp only [entered?, borrowed] at none
    cases none
  · simp only [whileHeld, bind_of_failed refused]

/-- What runs while an instance is held runs between taking it and letting it go. -/
theorem whileHeld_of_some (entered : handle.entered? writable w = some (state, held)) :
    (handle.whileHeld writable act w).2 =
      handle.setAccess (Access.leave writable) (act state held).2 := by
  rcases handle.borrowed_cases (w := w) writable with ⟨access, state, borrowed, _⟩ | ⟨e, refused⟩
  · simp only [entered?, borrowed, Option.some.injEq, Prod.mk.injEq] at entered
    obtain ⟨rfl, rfl⟩ := entered
    simp only [whileHeld, bind_of_returned borrowed, bracket]
  · simp only [entered?, refused] at entered
    cases entered

/-- Entering changes only who uses the instance. -/
theorem held_of_entered (entered : handle.entered? writable w = some (state, held)) :
    ∃ f, held = handle.setAccess f w := by
  simp only [entered?] at entered
  split at entered
  · cases entered
    exact ⟨_, rfl⟩
  · cases entered

theorem entered_opens (entered : handle.entered? writable w = some (state, held)) :
    Hold.Opens ⟨.cell handle.slot, writable⟩ w.lives held.lives := by
  rcases handle.borrowed_cases (w := w) writable with
    ⟨access, state, borrowed, enters, live, _, cell, found⟩ | ⟨e, refused⟩
  · simp only [entered?, borrowed, Option.some.injEq, Prod.mk.injEq] at entered
    obtain ⟨rfl, rfl⟩ := entered
    exact ⟨access, enters, live, handle.lives_setAccess (.inr ⟨cell, found⟩)⟩
  · simp only [entered?, refused] at entered
    cases entered

theorem leave_closes (w : World σ) :
    (handle.setAccess (Access.leave writable) w).lives =
      Hold.close ⟨.cell handle.slot, writable⟩ w.lives :=
  handle.lives_setAccess (.inl Access.leave_idle)

theorem close_opened {hold : Hold} {lives after : Lives} (opened : hold.Opens lives after) :
    hold.close after = lives := by
  obtain ⟨place, writable⟩ := hold
  cases place with
  | cell slot =>
      obtain ⟨access, enters, _, rfl⟩ := opened
      simp only [Hold.close, Lives.set_life, Lives.set_set, Access.leave_enter? enters]
      exact Lives.set_self
  | buffer index => exact opened

end Handle

namespace ArrayView

variable (view : ArrayView) {writable : Bool} {type : ElementType} {w held : World σ}

@[simp] theorem lives_setAccess (f : Access → Access) (w : World σ) :
    (view.setAccess f w).lives = w.lives := rfl

@[simp] theorem lives_held (w : World σ) : (view.held writable w).lives = w.lives := rfl

theorem whileHeld_world (act : Act σ α) (w : World σ) :
    (view.whileHeld writable act w).2 =
      view.setAccess (Access.leave writable) (act (view.held writable w)).2 := rfl

theorem withHeld_of_none (act : List UInt8 → Act σ α) (none : view.entered? writable w = none) :
    (view.withHeld writable act w).2 = w ∨
      (view.withHeld writable act w).2 =
        view.setAccess (Access.leave writable) (view.held writable w) := by
  cases contiguous : view.requireContiguous with
  | error e => exact .inl (by simp only [withHeld, contiguous, ofExcept_error, fail_bind, fail_apply])
  | ok _ =>
      simp only [withHeld, contiguous, ofExcept_ok, pure_bind]
      rcases borrowed : view.borrowed writable w with ⟨outcome, after⟩
      obtain rfl := (view.keeps_borrowed (R := Eq) writable).ended borrowed
      cases outcome with
      | returned bytes =>
          rw [bind_of_returned borrowed, whileHeld_world]
          simp only [entered?, contiguous, borrowed] at none
          rcases packed : view.packedBytes bytes (view.held writable w) with ⟨outcome, after⟩
          obtain rfl := (view.keeps_packedBytes (R := Eq) bytes).ended packed
          rw [packed] at none
          cases outcome with
          | returned found => cases none
          | _ => exact .inr (by rw [world_of_stuck packed nofun])
      | _ => exact .inl (world_of_stuck borrowed nofun)

theorem withHeld_of_some (act : Act σ α) (entered : view.entered? writable w = some held) :
    held = view.held writable w ∧ (view.withHeld writable (fun _ => act) w).2 =
      view.setAccess (Access.leave writable) (act held).2 := by
  cases contiguous : view.requireContiguous with
  | error e =>
      simp only [entered?, contiguous] at entered
      cases entered
  | ok _ =>
      simp only [entered?, contiguous] at entered
      rcases borrowed : view.borrowed writable w with ⟨outcome, after⟩
      obtain rfl := (view.keeps_borrowed (R := Eq) writable).ended borrowed
      rw [borrowed] at entered
      cases outcome with
      | returned bytes =>
          dsimp only at entered
          rcases packed : view.packedBytes bytes (view.held writable w) with ⟨outcome, after⟩
          obtain rfl := (view.keeps_packedBytes (R := Eq) bytes).ended packed
          rw [packed] at entered
          cases outcome with
          | returned found =>
              cases entered
              refine ⟨rfl, ?_⟩
              simp only [withHeld, contiguous, ofExcept_ok, pure_bind, bind_of_returned borrowed,
                whileHeld_world, bind_of_returned packed]
          | _ => cases entered
      | _ => cases entered

theorem updateElements_of_none {f : type.Carrier → Act σ (type.Carrier × α)}
    (none : view.replacing? type w = none) : (view.updateElements type f w).2 = w := by
  cases checked : view.checkElement type with
  | error e => simp only [updateElements, checked, ofExcept_error, fail_bind, fail_apply]
  | ok _ =>
      cases overlap : view.layout.hasOverlap with
      | true =>
          simp only [updateElements, checked, ofExcept_ok, pure_bind, overlap, ↓reduceIte, fail_bind,
            fail_apply]
      | false =>
          simp only [updateElements, checked, ofExcept_ok, pure_bind, overlap, Bool.false_eq_true,
            ↓reduceIte]
          rcases writable : view.writable w with ⟨outcome, after⟩
          obtain rfl := (view.keeps_writable (R := Eq)).ended writable
          simp only [replacing?, checked, overlap, writable] at none
          cases outcome with
          | returned bytes => cases none
          | _ => rw [world_of_stuck writable nofun]

/-- Besides replacing elements, updating them only writes to the journal. -/
theorem updateElements_of_some {f : type.Carrier → Act σ (type.Carrier × α)}
    (replacing : view.replacing? type w = some held) :
    held = view.held true w ∧
      Logs (view.setAccess (Access.leave true) (view.replaceElements type f (Index.all view.shape) held).2)
        (view.updateElements type f w).2 := by
  cases checked : view.checkElement type with
  | error e =>
      simp only [replacing?, checked] at replacing
      cases replacing
  | ok _ =>
      cases overlap : view.layout.hasOverlap with
      | true =>
          simp only [replacing?, checked, overlap] at replacing
          cases replacing
      | false =>
          rcases writable : view.writable w with ⟨outcome, after⟩
          obtain rfl := (view.keeps_writable (R := Eq)).ended writable
          simp only [replacing?, checked, overlap, writable] at replacing
          cases outcome with
          | returned bytes =>
              cases replacing
              refine ⟨rfl, ?_⟩
              simp only [updateElements, checked, ofExcept_ok, pure_bind, overlap, Bool.false_eq_true,
                ↓reduceIte, bind_of_returned writable]
              rw [← whileHeld_world]
              exact bind_after fun _ => (logs_log _).bind fun _ => keeps_pure _
          | _ => cases replacing

end ArrayView

end Marshal
