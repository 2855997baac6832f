import Mathlib
import Marshal.Proofs.Program.Moments
import Marshal.Proofs.World.Handle

/-!
# How a run moves from moment to moment

From one moment to the next an instance is made, retained or released, or something is taken into hold
or let go again, or nothing happens to the lives of instances.  A walk is a sequence of such steps.
-/

namespace Marshal

open World
open Act hiding pure bind

variable {σ : Type}

/-- What a request does to the lives of instances when it succeeds. -/
inductive Deed
  | create (slot : Nat)
  | retain (slot : Nat)
  | release (slot : Nat) (destroys : Bool)
  deriving DecidableEq

namespace Deed

/-- When a deed can be done. -/
def Allowed (lives : Lives) : Deed → Prop
  | .create slot => slot = lives.count
  | .retain slot => 0 < (lives.life slot).references
  | .release slot false => 1 < (lives.life slot).references
  | .release slot true => (lives.life slot).references = 1 ∧ (lives.life slot).access = .idle

def apply (lives : Lives) : Deed → Lives
  | .create slot => { lives.set slot Life.born with count := slot + 1 }
  | .retain slot => lives.set slot (lives.life slot).retain
  | .release slot false => lives.set slot (lives.life slot).release
  | .release slot true => lives.set slot (lives.life slot).destroy

end Deed

namespace Hold

/-- How the lives of instances change when something is taken into hold. -/
def Opens (hold : Hold) (lives after : Lives) : Prop :=
  match hold.place with
  | .cell slot => ∃ access, (lives.life slot).access.enter? hold.writable = some access ∧
      0 < (lives.life slot).references ∧ after = lives.set slot { lives.life slot with access }
  | .buffer _ => after = lives

def close (hold : Hold) (lives : Lives) : Lives :=
  match hold.place with
  | .cell slot =>
    lives.set slot { lives.life slot with access := (lives.life slot).access.leave hold.writable }
  | .buffer _ => lives

end Hold

namespace Moment

/-- What the request that is about to be made does, if it succeeds and is one that counts. -/
def deed? (m : Moment σ) : Option Deed :=
  match m.asked? with
  | some (.create _ _) => some (.create m.world.cells.length)
  | some (.retain handle) =>
    match (handle.retain m.world).1 with
    | .returned _ => some (.retain handle.slot)
    | _ => none
  | some (.release handle) =>
    match (handle.release m.world).1 with
    | .returned destroyed => some (.release handle.slot destroyed)
    | _ => none
  | _ => none

/-- One step of a run: the lives of instances and what is held at the next moment. -/
inductive Leads (m : Moment σ) (after : Lives) : List Hold → Prop
  | deed {deed : Deed} (does : m.deed? = some deed) (allowed : deed.Allowed m.world.lives)
      (lives : after = deed.apply m.world.lives) : Leads m after m.holds
  | quiet (still : m.deed? = none) (lives : after = m.world.lives) : Leads m after m.holds
  | opens {hold : Hold} (still : m.deed? = none) (opened : hold.Opens m.world.lives after) :
      Leads m after (hold :: m.holds)
  | closes {hold : Hold} {holds : List Hold} (still : m.deed? = none)
      (held : m.holds = hold :: holds) (lives : after = hold.close m.world.lives) :
      Leads m after holds

end Moment

/-- Moments that lead from one to the next, from the lives and what is held at the first to those at
the last. -/
inductive Walk : Lives → List Hold → List (Moment σ) → Lives → List Hold → Prop
  | stop (w : World σ) (holds : List Hold) : Walk w.lives holds [{ world := w, holds }] w.lives holds
  | step {m : Moment σ} {next last : Lives} {between final : List Hold} {rest : List (Moment σ)}
      (leads : m.Leads next between) (walk : Walk next between rest last final) :
      Walk m.world.lives m.holds (m :: rest) last final

namespace Walk

variable {first last : Lives} {holds final : List Hold} {m : Moment σ} {ms before rest : List (Moment σ)}

theorem starts (walk : Walk first holds (m :: rest) last final) :
    first = m.world.lives ∧ holds = m.holds := by
  cases walk with
  | stop w holds => exact ⟨rfl, rfl⟩
  | step leads walk => exact ⟨rfl, rfl⟩

theorem leads (walk : Walk first holds (m :: rest) last final) (more : rest ≠ []) :
    ∃ next between, m.Leads next between ∧ Walk next between rest last final := by
  cases walk with
  | stop w holds => exact absurd rfl more
  | step leads walk => exact ⟨_, _, leads, walk⟩

theorem invariant {P : Lives → List Hold → Prop}
    (steps : ∀ (m : Moment σ) next after, m.Leads next after → P m.world.lives m.holds → P next after)
    (walk : Walk first holds ms last final) (start : P first holds) :
    ∀ m ∈ ms, P m.world.lives m.holds := by
  induction walk with
  | stop w holds =>
      intro m member
      obtain rfl := List.mem_singleton.mp member
      exact start
  | step leads walk ih =>
      intro m member
      rcases List.mem_cons.mp member with rfl | member
      · exact start
      · exact ih (steps _ _ _ leads start) m member

theorem onward (walk : Walk first holds (before ++ m :: rest) last final) :
    Walk m.world.lives m.holds (m :: rest) last final := by
  induction before generalizing first holds with
  | nil =>
      obtain ⟨rfl, rfl⟩ := walk.starts
      exact walk
  | cons earlier before ih =>
      obtain ⟨next, between, _, further⟩ := walk.leads (by simp)
      exact ih further

end Walk

end Marshal
