import Mathlib
import Marshal.Proofs.World.Quiet

namespace Marshal

open World
open Act hiding pure bind

variable {σ α : Type} {w after : World σ}

namespace Life

def born : Life := { references := 1, isPresent := true, access := .idle }

def retain (life : Life) : Life := { life with references := life.references + 1 }

def release (life : Life) : Life := { life with references := life.references - 1 }

def destroy (life : Life) : Life := { life with references := 0, isPresent := false }

end Life

namespace Access

/-- The users of an instance or a buffer, each with whether it writes. -/
def users : Access → List Bool
  | .idle => []
  | .shared others => List.replicate (others + 1) false
  | .exclusive => [true]

variable {access entered : Access} {writable : Bool}

theorem users_enter? (enters : access.enter? writable = some entered) :
    entered.users = writable :: access.users := by
  cases writable <;> cases access <;> cases enters <;> rfl

theorem users_leave {others : List Bool} (held : access.users = writable :: others) :
    (access.leave writable).users = others := by
  rcases access with _ | (_ | n) | _ <;> cases held <;> rfl

theorem leave_enter? (enters : access.enter? writable = some entered) :
    entered.leave writable = access := by
  rcases access with _ | (_ | n) | _ <;> cases writable <;> cases enters <;> rfl

@[simp] theorem leave_idle : Access.idle.leave writable = .idle := by
  cases writable <;> rfl

theorem seize?_eq_none : access.seize? = none ↔ access ≠ .idle := by
  cases access <;> simp [seize?]

end Access

namespace Handle

variable (handle : Handle)

abbrev life (w : World σ) : Life := w.lives.life handle.slot

theorem references_eq : w.references handle = (handle.life w).references := by
  simp only [World.references, Handle.life, lives, cell?]
  cases w.cells[handle.slot]? <;> rfl

/-- Either callers hold references, and the instance's cell is there, or the instance is gone. -/
theorem alive_cases :
    (∃ cell, w.cell? handle = some cell ∧ 0 < cell.references ∧
      handle.alive w = (.returned cell, w)) ∨
    ((handle.life w).references = 0 ∧ handle.alive w = (.failed handle.gone, w)) := by
  cases found : w.cell? handle with
  | none =>
      have gone : handle.alive w = (.failed handle.gone, w) := by
        simp only [alive, read_bind_apply, found, fail_apply]
      exact .inr ⟨by rw [life, life_of_none found]; rfl, gone⟩
  | some cell =>
      by_cases live : 0 < cell.references
      · have lives : handle.alive w = (.returned cell, w) := by
          simp only [alive, read_bind_apply, found, live, ↓reduceIte, pure_apply]
        exact .inl ⟨cell, rfl, live, lives⟩
      · have gone : handle.alive w = (.failed handle.gone, w) := by
          simp only [alive, read_bind_apply, found, live, ↓reduceIte, fail_apply]
        have none : cell.references = 0 := by omega
        exact .inr ⟨by rw [life, life_of_cell? found]; exact none, gone⟩

theorem alive_of_gone (gone : (handle.life w).references = 0) :
    handle.alive w = (.failed handle.gone, w) := by
  rcases handle.alive_cases (w := w) with ⟨cell, found, live, _⟩ | ⟨_, failed⟩
  · rw [life, life_of_cell? found] at gone
    exact absurd gone (Nat.ne_of_gt live)
  · exact failed

theorem retain_cases :
    (0 < (handle.life w).references ∧ ∃ after, handle.retain w = (.returned (), after) ∧
      after.lives = w.lives.set handle.slot (handle.life w).retain) ∨
    ((handle.life w).references = 0 ∧ handle.retain w = (.failed handle.gone, w)) := by
  rcases handle.alive_cases (w := w) with ⟨cell, found, live, lives⟩ | ⟨none, gone⟩
  · let retained := w.setCell handle fun other => { other with references := cell.references + 1 }
    have returned : handle.retain w = (.returned (), retained) := by
      simp only [retain, bind_of_returned lives]
      rfl
    refine .inl ⟨by rwa [life, life_of_cell? found], retained, returned, ?_⟩
    rw [lives_setCell found, life, life_of_cell? found]
    rfl
  · exact .inr ⟨none, by simp only [retain, bind_of_failed gone]⟩

/-- Releasing takes a reference back.  The last one is given back only when nobody uses the instance,
and the instance goes with it. -/
theorem release_cases :
    (1 < (handle.life w).references ∧ ∃ after, handle.release w = (.returned false, after) ∧
      after.lives = w.lives.set handle.slot (handle.life w).release) ∨
    ((handle.life w).references = 1 ∧ (handle.life w).access = .idle ∧
      ∃ after, handle.release w = (.returned true, after) ∧
        after.lives = w.lives.set handle.slot (handle.life w).destroy) ∨
    ((handle.life w).references = 1 ∧ (handle.life w).access ≠ .idle ∧
      handle.release w = (.failed handle.busy, w)) ∨
    ((handle.life w).references = 0 ∧ handle.release w = (.failed handle.gone, w)) := by
  rcases handle.alive_cases (w := w) with ⟨cell, found, live, lives⟩ | ⟨none, gone⟩
  · have same : handle.life w = cell.life := life_of_cell? found
    by_cases many : 1 < cell.references
    · let released := w.setCell handle fun other => { other with references := cell.references - 1 }
      have returned : handle.release w = (.returned false, released) := by
        simp only [release, bind_of_returned lives, many, ↓reduceIte]
        rfl
      refine .inl ⟨by rwa [same], released, returned, ?_⟩
      rw [lives_setCell found, same]
      rfl
    · have last : cell.references = 1 := by omega
      by_cases idle : cell.access = .idle
      · let emptied := w.setCell handle fun other => { other with references := 0, state? := none }
        let logged : Act σ Unit := Act.log ⟨.debug, .handle, "destroyed native instance",
          [⟨"class", handle.className⟩, .ofNat "id" handle.id]⟩
        have returned : handle.release w = (.returned true, (logged emptied).2) := by
          simp only [release, bind_of_returned lives, many, ↓reduceIte, idle, Access.seize?,
            ofOption_some, pure_bind]
          rfl
        refine .inr (.inl ⟨by rwa [same], by rwa [same], (logged emptied).2, returned, ?_⟩)
        rw [(quiet_log _ emptied).lives, lives_setCell found, same]
        rfl
      · have busy : cell.access.seize? = none := Access.seize?_eq_none.mpr idle
        refine .inr (.inr (.inl ⟨by rwa [same], by rwa [same], ?_⟩))
        simp only [release, bind_of_returned lives, many, ↓reduceIte, busy, ofOption_none, fail_bind,
          fail_apply]
  · exact .inr (.inr (.inr ⟨none, by simp only [release, bind_of_failed gone]⟩))

theorem create_returned (classId : Nat) (state : σ) :
    ∃ handle after, Handle.create classId state w = (.returned handle, after) ∧
      handle.slot = w.cells.length ∧
      after.lives = { w.lives.set w.cells.length Life.born with count := w.cells.length + 1 } := by
  refine ⟨_, _, rfl, rfl, ?_⟩
  ext1
  · simp [lives]
  · funext slot
    rcases Nat.lt_trichotomy slot w.cells.length with before | same | beyond
    · have ne : slot ≠ w.cells.length := Nat.ne_of_lt before
      simp [lives, Lives.set, List.getElem?_append_left before, ne]
    · subst same
      simp [lives, Lives.set, Cell.life, Life.born]
    · have ne : slot ≠ w.cells.length := Nat.ne_of_gt beyond
      obtain ⟨gap, rfl⟩ := Nat.exists_eq_add_of_lt beyond
      simp [lives, Lives.set, List.getElem?_append, Nat.add_assoc]

theorem borrowed_cases (writable : Bool) :
    (∃ access state, handle.borrowed writable w = (.returned (access, state), w) ∧
      (handle.life w).access.enter? writable = some access ∧ 0 < (handle.life w).references ∧
      (handle.life w).isPresent = true ∧ ∃ cell, w.cell? handle = some cell) ∨
    ∃ e, handle.borrowed writable w = (.failed e, w) := by
  rcases handle.alive_cases (w := w) with ⟨cell, found, live, lives⟩ | ⟨none, gone⟩
  · have same : handle.life w = cell.life := life_of_cell? found
    cases enters : cell.access.enter? writable with
    | none =>
        refine .inr ⟨handle.busy, ?_⟩
        simp only [borrowed, bind_of_returned lives, enters, ofOption_none, fail_bind, fail_apply]
    | some access =>
        cases present : cell.state? with
        | none =>
            refine .inr ⟨handle.gone, ?_⟩
            simp only [borrowed, bind_of_returned lives, enters, ofOption_some, pure_bind, present,
              ofOption_none, fail_bind, fail_apply]
        | some state =>
            refine .inl ⟨access, state, ?_, ?_, ?_, ?_, cell, found⟩
            · simp only [borrowed, bind_of_returned lives, enters, ofOption_some, pure_bind, present,
                pure_apply]
            · rw [same]
              exact enters
            · rw [same]
              exact live
            · rw [same]
              simp [Cell.life, present]
  · exact .inr ⟨handle.gone, by simp only [borrowed, bind_of_failed gone]⟩

theorem lives_setAccess {f : Access → Access} (idle : f .idle = .idle ∨ ∃ cell, w.cell? handle = some cell) :
    (handle.setAccess f w).lives =
      w.lives.set handle.slot { handle.life w with access := f (handle.life w).access } := by
  simp only [setAccess]
  cases found : w.cell? handle with
  | none =>
      have same : f .idle = .idle := idle.resolve_right (by simp [found])
      have unchanged : { handle.life w with access := f (handle.life w).access } = handle.life w := by
        rw [life, life_of_none found, Life.none, same]
      rw [setCell_of_none found, unchanged, Lives.set_self]
  | some cell =>
      rw [lives_setCell found, life, life_of_cell? found]
      rfl

section Gone

variable (gone : (handle.life w).references = 0)

include gone

theorem retain_of_gone : handle.retain w = (.failed handle.gone, w) := by
  simp only [retain, bind_of_failed (handle.alive_of_gone gone)]

theorem release_of_gone : handle.release w = (.failed handle.gone, w) := by
  simp only [release, bind_of_failed (handle.alive_of_gone gone)]

theorem borrowed_of_gone (writable : Bool) : handle.borrowed writable w = (.failed handle.gone, w) := by
  simp only [borrowed, bind_of_failed (handle.alive_of_gone gone)]

variable [NativeState σ] (run : Runner σ)

theorem invoke_of_gone (method : String) (positional : List Value) (keywords : Keywords) :
    handle.invoke run method positional keywords w = (.failed handle.gone, w) := by
  simp only [invoke, prepareInvoke, bind_assoc, bind_of_failed (handle.alive_of_gone gone)]

theorem getAttr_of_gone (name : String) : handle.getAttr run name w = (.failed handle.gone, w) := by
  simp only [getAttr, prepareGet, bind_assoc, bind_of_failed (handle.alive_of_gone gone)]

theorem setAttr_of_gone (name : String) (value : Value) :
    handle.setAttr run name value w = (.failed handle.gone, w) := by
  simp only [setAttr, prepareSet, bind_assoc, bind_of_failed (handle.alive_of_gone gone)]

theorem withInstance_of_gone (type : String) (act : Act σ α) :
    handle.withInstance type act w = (.failed handle.gone, w) := by
  simp only [withInstance, whileHeld, bind_of_failed (handle.borrowed_of_gone gone true)]

end Gone

end Handle

end Marshal
