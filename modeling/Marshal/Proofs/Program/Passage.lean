import Mathlib
import Marshal.Proofs.Program.Trail

namespace Marshal

open World
open Act hiding pure bind

variable {σ : Type} [NativeState σ]

namespace Request

variable {asked : Request σ (Program σ)} {run : Runner σ} {w : World σ}

/-- A request that cannot enter native code does its deed, if it has one, or is quiet. -/
theorem leads_of_unprepared (unprepared : asked.prepare? = none) (holds : List Hold) :
    ({ world := w, holds, asked? := some asked } : Moment σ).Leads (asked.serve run w).2.lives holds := by
  have quiet : ∀ (asked : Request σ (Program σ)), Keeps Quiet (asked.serve run) →
      ({ world := w, holds, asked? := some asked } : Moment σ).deed? = none →
      ({ world := w, holds, asked? := some asked } : Moment σ).Leads (asked.serve run w).2.lives holds :=
    fun asked quiet still => .quiet still (quiet w).lives
  cases asked with
  | log event => exact quiet _ ((quiet_log event).bind fun _ => keeps_pure _) rfl
  | print text => exact quiet _ ((quiet_print text).bind fun _ => keeps_pure _) rfl
  | defineMethod classId m =>
      exact quiet _ ((ClassDef.quiet_define classId m).bind fun _ => keeps_pure _) rfl
  | array request => exact quiet _ request.quiet_serve rfl
  | create classId state =>
      obtain ⟨handle, after, created, slot, lives⟩ := Handle.create_returned classId state (w := w)
      have done : ((Request.create classId state).serve run w).2 = after := by
        simp only [serve, bind_of_returned created, pure_apply]
      rw [done]
      exact .deed rfl rfl lives
  | retain handle =>
      rcases handle.retain_cases (w := w) with ⟨live, after, retained, lives⟩ | ⟨_, failed⟩
      · have does : Moment.deed? { world := w, holds, asked? := some (.retain handle) } =
            some (.retain handle.slot) := by simp only [Moment.deed?, retained]
        refine .deed does live ?_
        simp only [serve, bind_of_returned retained, pure_apply]
        exact lives
      · refine .quiet ?_ ?_
        · simp only [Moment.deed?, failed]
        · simp only [serve, bind_of_failed failed]
  | release handle =>
      rcases handle.release_cases (w := w) with ⟨many, after, released, lives⟩ |
        ⟨last, idle, after, released, lives⟩ | ⟨_, _, failed⟩ | ⟨_, failed⟩
      · have does : Moment.deed? { world := w, holds, asked? := some (.release handle) } =
            some (.release handle.slot false) := by simp only [Moment.deed?, released]
        refine .deed does many ?_
        simp only [serve, bind_of_returned released, pure_apply]
        exact lives
      · have does : Moment.deed? { world := w, holds, asked? := some (.release handle) } =
            some (.release handle.slot true) := by simp only [Moment.deed?, released]
        refine .deed does ⟨last, idle⟩ ?_
        simp only [serve, bind_of_returned released, pure_apply]
        exact lives
      · refine .quiet ?_ ?_
        · simp only [Moment.deed?, failed]
        · simp only [serve, bind_of_failed failed]
      · refine .quiet ?_ ?_
        · simp only [Moment.deed?, failed]
        · simp only [serve, bind_of_failed failed]
  | _ => cases unprepared

end Request

namespace Moment

variable {m : Moment σ} {after : World σ} {holds : List Hold}

theorem deed_of_calls (calls : m.Calls) : m.deed? = none := by
  obtain ⟨w, holds, asked⟩ := m
  cases asked with
  | none => rfl
  | some asked =>
      obtain ⟨prepare, prepared⟩ := calls asked rfl
      cases asked with
      | create classId state => cases prepared
      | retain handle => cases prepared
      | release handle => cases prepared
      | _ => rfl

theorem Passes.leads (passes : m.Passes after holds) : m.Leads after.lives holds := by
  cases passes with
  | serves asks unprepared served =>
      obtain ⟨w, holds, asked⟩ := m
      cases asks
      cases served
      exact Request.leads_of_unprepared unprepared holds
  | @takes hold? calls takes =>
      cases hold? with
      | none => exact .quiet (deed_of_calls calls) takes.lives
      | some hold => exact .opens (deed_of_calls calls) takes.lives
  | @leaves hold? holds calls held left =>
      cases hold? with
      | none =>
          cases held
          exact .quiet (deed_of_calls calls) left.lives
      | some hold => exact .closes (deed_of_calls calls) held left.lives

end Moment

theorem Trail.walk {first last : World σ} {holds final : List Hold} {ms : List (Moment σ)}
    (trail : Trail first holds ms last final) : Walk first.lives holds ms last.lives final := by
  induction trail with
  | stop w holds => exact .stop w holds
  | step passes trail ih => exact .step passes.leads ih

theorem Program.walk_session (stack : Nat) (programs : List (Program σ)) (w : World σ) :
    Walk w.lives [] (sessionMoments stack programs w) (session stack programs w).lives [] :=
  (trail_session stack programs w).walk

end Marshal
