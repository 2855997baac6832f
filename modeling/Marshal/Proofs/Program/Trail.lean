import Mathlib
import Marshal.Proofs.Program.Holding
import Marshal.Proofs.World.Issued
import Marshal.Proofs.World.Oblivious

/-!
# The trail of a run

The moments of a run follow one another from world to world.  What happens between two of them is what a
request does that cannot enter native code, or else something is taken into hold for code that is entered,
or it is let go of when that has ended; the rest is calm.  All that is known of how instances live, of what
classes become and of what is handed out in a run follows from this.
-/

namespace Marshal

open World
open Act hiding pure bind

variable {σ α β ι : Type}

namespace World

/-- Instances live on as before, every class is as it was, and nothing was handed out. -/
structure Calm (w after : World σ) : Prop where
  lives : after.lives = w.lives
  classes : after.classes = w.classes
  steady : w.Steady after

instance : IsPreorder (World σ) Calm where
  refl _ := ⟨rfl, rfl, rfl⟩
  trans _ _ _ first rest :=
    ⟨rest.lives.trans first.lives, rest.classes.trans first.classes, trans_of Steady first.steady rest.steady⟩

variable {w after : World σ}

theorem Calm.trans {middle : World σ} (first : w.Calm middle) (rest : middle.Calm after) : w.Calm after :=
  trans_of Calm first rest

theorem Logs.calm (logs : w.Logs after) : w.Calm after := by
  obtain ⟨events, rfl⟩ := logs
  exact ⟨rfl, rfl, rfl⟩

/-- How a world changes when something is taken into hold, or nothing. -/
structure TakesHold (hold? : Option Hold) (w after : World σ) : Prop where
  lives : hold?.elim (after.lives = w.lives) fun hold => hold.Opens w.lives after.lives
  classes : after.classes = w.classes
  steady : w.Steady after

/-- How a world changes when what was taken is let go again. -/
structure LetsGo (hold? : Option Hold) (w after : World σ) : Prop where
  lives : after.lives = hold?.elim w.lives fun hold => hold.close w.lives
  classes : after.classes = w.classes
  steady : w.Steady after

section Holds

variable {hold? : Option Hold} {hold : Hold} {start ended : World σ}

theorem Calm.takes (calm : w.Calm after) : TakesHold none w after :=
  ⟨calm.lives, calm.classes, calm.steady⟩

theorem Calm.leaves (calm : w.Calm after) : LetsGo none w after :=
  ⟨calm.lives, calm.classes, calm.steady⟩

theorem TakesHold.after_calm (calm : w.Calm start) (takes : TakesHold hold? start after) :
    TakesHold hold? w after :=
  ⟨calm.lives ▸ takes.lives, takes.classes.trans calm.classes, trans_of Steady calm.steady takes.steady⟩

theorem LetsGo.after_calm (calm : w.Calm ended) (leaves : LetsGo hold? ended after) : LetsGo hold? w after :=
  ⟨calm.lives ▸ leaves.lives, leaves.classes.trans calm.classes, trans_of Steady calm.steady leaves.steady⟩

theorem LetsGo.before_calm (leaves : LetsGo hold? ended w) (calm : w.Calm after) : LetsGo hold? ended after :=
  ⟨calm.lives.trans leaves.lives, calm.classes.trans leaves.classes,
    trans_of Steady leaves.steady calm.steady⟩

/-- Taking something and letting go of it is calm, if what happens meanwhile is. -/
theorem TakesHold.calm (takes : TakesHold (some hold) w start) (during : start.Calm ended)
    (leaves : LetsGo (some hold) ended after) : w.Calm after where
  lives := by
    have closed : after.lives = hold.close ended.lives := leaves.lives
    rw [closed, during.lives]
    exact Handle.close_opened takes.lives
  classes := leaves.classes.trans (during.classes.trans takes.classes)
  steady := trans_of Steady takes.steady (trans_of Steady during.steady leaves.steady)

end Holds

/-- Code is entered between taking what is held for it and letting go of that; where none is entered nothing
happens to instances and classes. -/
structure Brackets (opened? : Option ι) (start : ι → World σ) (hold? : ι → Option Hold) (ended : ι → World σ)
    (w after : World σ) : Prop where
  calm : opened? = none → w.Calm after
  takes : ∀ o, opened? = some o → TakesHold (hold? o) w (start o)
  leaves : ∀ o, opened? = some o → LetsGo (hold? o) (ended o) after

section Brackets

variable {opened? : Option ι} {start ended : ι → World σ} {hold? : ι → Option Hold}

theorem Brackets.none (calm : w.Calm after) : Brackets none start hold? ended w after where
  calm _ := calm
  takes := by rintro _ ⟨⟩
  leaves := by rintro _ ⟨⟩

theorem Brackets.some {o : ι} (takes : TakesHold (hold? o) w (start o))
    (leaves : LetsGo (hold? o) (ended o) after) : Brackets (.some o) start hold? ended w after where
  calm := by rintro ⟨⟩
  takes := by
    rintro _ ⟨⟩
    exact takes
  leaves := by
    rintro _ ⟨⟩
    exact leaves

theorem Brackets.after_calm {middle : World σ} (calm : w.Calm middle)
    (brackets : Brackets opened? start hold? ended middle after) :
    Brackets opened? start hold? ended w after where
  calm none := calm.trans (brackets.calm none)
  takes o opened := (brackets.takes o opened).after_calm calm
  leaves := brackets.leaves

end Brackets

end World

namespace Handle

variable (handle : Handle) {writable : Bool} {w held : World σ} {state : σ}

theorem takes_entered (entered : handle.entered? writable w = some (state, held)) :
    TakesHold (some ⟨.cell handle.slot, writable⟩) w held := by
  have opens := handle.entered_opens entered
  obtain ⟨f, rfl⟩ := handle.held_of_entered entered
  exact ⟨opens, rfl, handle.steady_setAccess f w⟩

theorem leaves_setAccess (w : World σ) :
    LetsGo (some ⟨.cell handle.slot, writable⟩) w (handle.setAccess (Access.leave writable) w) :=
  ⟨handle.leave_closes w, rfl, handle.steady_setAccess _ w⟩

/-- What runs while an instance is held runs in a bracket, if the state of the instance lets it run. -/
theorem brackets_whileHeld {act : σ → Act σ α} {opens : σ × World σ → Option ι} {start ended : ι → World σ}
    {hold? : ι → Option Hold}
    (refuses : ∀ state held, opens (state, held) = none → held.Calm (act state held).2)
    (enters : ∀ state held o, opens (state, held) = some o →
      start o = held ∧ hold? o = some ⟨.cell handle.slot, writable⟩ ∧ (ended o).Calm (act state held).2) :
    Brackets ((handle.entered? writable w).bind opens) start hold? ended w
      (handle.whileHeld writable act w).2 := by
  cases found : handle.entered? writable w with
  | none =>
      rw [handle.whileHeld_of_none act found]
      exact .none (refl_of Calm w)
  | some both =>
      obtain ⟨state, held⟩ := both
      have takes := handle.takes_entered found
      have leaves : LetsGo (some ⟨.cell handle.slot, writable⟩) (act state held).2 _ :=
        handle.leaves_setAccess (act state held).2
      rw [handle.whileHeld_of_some act found, Option.bind_some]
      cases opened : opens (state, held) with
      | none => exact .none (takes.calm (refuses state held opened) leaves)
      | some o =>
          obtain ⟨starts, holds, calm⟩ := enters state held o opened
          exact .some (by rwa [starts, holds]) (by rw [holds]; exact leaves.after_calm calm)

theorem brackets_withInstance [NativeState σ] (type : String) (act : Act σ α) (w : World σ) :
    Brackets (handle.enteredAs? type w) (fun held => held) (fun _ => some ⟨.cell handle.slot, true⟩)
      (fun held => (act held).2) w (handle.withInstance type act w).2 := by
  have opening : handle.enteredAs? type w = (handle.entered? true w).bind fun entered =>
      if NativeState.typeName entered.1 = type then some entered.2 else none := rfl
  rw [opening]
  refine handle.brackets_whileHeld (fun state held foreign => ?_) (fun state held o opened => ?_)
  · dsimp only at foreign ⊢
    split at foreign
    · cases foreign
    · rename_i other
      rw [if_neg other]
      exact refl_of Calm held
  · dsimp only at opened ⊢
    split at opened
    · rename_i own
      cases opened
      rw [if_pos own]
      exact ⟨rfl, rfl, refl_of Calm _⟩
    · cases opened

end Handle

namespace ArrayView

variable (view : ArrayView) {writable : Bool} {type : ElementType}

theorem takes_held (w : World σ) :
    TakesHold (some ⟨.buffer view.buffer, writable⟩) w (view.held writable w) :=
  ⟨view.lives_held w, rfl, steady_setBuffer _ _⟩

theorem leaves_setAccess (w : World σ) :
    LetsGo (some ⟨.buffer view.buffer, writable⟩) w (view.setAccess (Access.leave writable) w) :=
  ⟨view.lives_setAccess _ w, rfl, steady_setBuffer _ _⟩

theorem brackets_withHeld (act : Act σ α) (w : World σ) :
    Brackets (view.entered? writable w) (fun held => held) (fun _ => some ⟨.buffer view.buffer, writable⟩)
      (fun held => (act held).2) w (view.withHeld writable (fun _ => act) w).2 := by
  cases opened : view.entered? writable w with
  | none =>
      rcases view.withHeld_of_none (fun _ => act) opened with same | left
      · rw [same]
        exact .none (refl_of Calm w)
      · rw [left]
        exact .none ((view.takes_held w).calm (refl_of Calm _) (view.leaves_setAccess _))
  | some held =>
      obtain ⟨rfl, ended⟩ := view.withHeld_of_some act opened
      rw [ended]
      exact .some (view.takes_held w) (view.leaves_setAccess _)

theorem brackets_mapElements (f : type.Carrier → Act σ type.Carrier) (w : World σ) :
    Brackets (view.replacing? type w) (fun held => held) (fun _ => some ⟨.buffer view.buffer, true⟩)
      (fun held =>
        (view.replaceElements type (fun old => do return (← f old, ())) (Index.all view.shape) held).2)
      w (view.mapElements type f w).2 := by
  have updated : (view.mapElements type f w).2 =
      (view.updateElements type (fun old => do return (← f old, ())) w).2 :=
    (bind_after (R := Eq) fun _ => keeps_pure ()).symm
  rw [updated]
  cases replacing : view.replacing? type w with
  | none =>
      rw [view.updateElements_of_none replacing]
      exact .none (refl_of Calm w)
  | some held =>
      obtain ⟨rfl, logs⟩ :=
        view.updateElements_of_some (f := fun old => do return (← f old, ())) replacing
      exact .some (view.takes_held w) ((view.leaves_setAccess _).before_calm logs.calm)

end ArrayView

/-- The native code that a call enters runs in a bracket. -/
theorem NativeCall.brackets_enter (call : NativeCall σ) (run : Runner σ) (w : World σ) :
    Brackets (call.opening? w) Opening.world Opening.hold? (fun o => (run o.frames o.program o.world).2) w
      (call.enter run w).2 := by
  cases call with
  | function program conclusion =>
      exact .some (refl_of Calm w).takes (conclusion.logs_conclude _ w).calm.leaves
  | member handle writable program conclusion =>
      have opening : (NativeCall.member handle writable program conclusion).opening? w =
          (handle.entered? writable w).bind fun entered => (program entered.1).toOption.bind fun program =>
            some { world := entered.2, hold? := some ⟨.cell handle.slot, writable⟩,
                   frames := [.instance handle writable], program } := rfl
      rw [opening]
      refine handle.brackets_whileHeld (fun state held refused => ?_) (fun state held o opened => ?_)
      · cases accepted : program state with
        | ok program =>
            simp only [accepted] at refused
            cases refused
        | error e =>
            simp only [ofExcept_error, fail_bind, fail_apply]
            exact refl_of Calm held
      · cases accepted : program state with
        | error e =>
            simp only [accepted] at opened
            cases opened
        | ok program =>
            simp only [accepted] at opened
            cases opened
            refine ⟨rfl, rfl, ?_⟩
            simp only [ofExcept_ok, pure_bind]
            exact (conclusion.logs_conclude _ held).calm

variable [NativeState σ]

namespace Request

variable {asked : Request σ (Program σ)} {run : Runner σ} {w : World σ}

theorem serve_prepare {prepare : Act σ (NativeCall σ)} (prepared : asked.prepare? = some prepare) :
    asked.serve run = prepare >>= fun call => call.enter run := by
  cases asked with
  | call f positional keywords =>
      cases prepared
      rfl
  | invoke handle method positional keywords =>
      cases prepared
      rfl
  | getAttr handle name =>
      cases prepared
      rfl
  | setAttr handle name value =>
      cases prepared
      rfl
  | _ => cases prepared

/-- The native code that a request enters, if it can enter any, runs in a bracket. -/
theorem brackets_serve {prepare : Act σ (NativeCall σ)} (prepared : asked.prepare? = some prepare)
    (run : Runner σ) (w : World σ) :
    Brackets (asked.opening? w) Opening.world Opening.hold? (fun o => (run o.frames o.program o.world).2) w
      (asked.serve run w).2 := by
  simp only [serve_prepare prepared, opening?, prepared, Option.bind_eq_bind, Option.bind_some]
  rcases ended : prepare w with ⟨outcome, after⟩
  have calm := ((logs_prepare prepared).ended ended).calm
  cases outcome with
  | returned call =>
      rw [bind_of_returned ended]
      exact .after_calm calm (call.brackets_enter run after)
  | _ =>
      rw [world_of_stuck ended (by rintro _ ⟨⟩)]
      exact .none calm

end Request

namespace Moment

/-- What is asked for at a moment, if anything, is a call. -/
def Calls (m : Moment σ) : Prop := ∀ asked, m.asked? = some asked → ∃ prepare, asked.prepare? = some prepare

/-- What happens after a moment: the world at the next one, and what is held there. -/
inductive Passes (m : Moment σ) (after : World σ) : List Hold → Prop
  | serves {asked : Request σ (Program σ)} {run : Runner σ} (asks : m.asked? = some asked)
      (unprepared : asked.prepare? = none) (served : after = (asked.serve run m.world).2) :
      Passes m after m.holds
  | takes {hold? : Option Hold} (calls : m.Calls) (takes : TakesHold hold? m.world after) :
      Passes m after (hold?.toList ++ m.holds)
  | leaves {hold? : Option Hold} {holds : List Hold} (calls : m.Calls)
    (held : m.holds = hold?.toList ++ holds)
      (leaves : LetsGo hold? m.world after) : Passes m after holds

theorem calls_of_quiet {m : Moment σ} (quiet : m.asked? = none) : m.Calls := by
  rw [Calls, quiet]
  rintro _ ⟨⟩

end Moment

/-- Moments that follow one another, from the first world to the last one and from what is held in the
beginning to what is held in the end. -/
inductive Trail : World σ → List Hold → List (Moment σ) → World σ → List Hold → Prop
  | stop (w : World σ) (holds : List Hold) : Trail w holds [{ world := w, holds }] w holds
  | step {m : Moment σ} {next last : World σ} {between final : List Hold} {rest : List (Moment σ)}
      (passes : m.Passes next between) (trail : Trail next between rest last final) :
      Trail m.world m.holds (m :: rest) last final

namespace Trail

variable {first middle next last w after : World σ} {holds final : List Hold} {hold? : Option Hold}
  {asked? : Option (Request σ (Program σ))} {ms rest : List (Moment σ)}

theorem calm (calm : w.Calm next) (trail : Trail next holds rest last final) :
    Trail w holds ({ world := w, holds } :: rest) last final :=
  .step (m := { world := w, holds }) (.takes (Moment.calls_of_quiet rfl) calm.takes) trail

/-- A trail that ends where what was taken is let go, and then goes on. -/
theorem leaves (trail : Trail first holds ms middle (hold?.toList ++ final)) (left : LetsGo hold? middle next)
    (further : Trail next final rest last final) : Trail first holds (ms ++ rest) last final := by
  generalize held : hold?.toList ++ final = between at trail
  induction trail with
  | stop w holds =>
      subst held
      exact .step (m := ⟨w, _, none⟩) (.leaves (Moment.calls_of_quiet rfl) rfl left) further
  | step passes trail ih => exact .step passes (ih left held)

theorem append (trail : Trail first holds ms middle final) (further : Trail middle final rest last final) :
    Trail first holds (ms ++ rest) last final :=
  trail.leaves (refl_of Calm middle).leaves further

/-- A trail around the code that is entered, if any is, and on. -/
theorem around {opened? : Option ι} {start ended : ι → World σ} {hold? : ι → Option Hold}
    {inner : ι → List (Moment σ)} (calls : Moment.Calls { world := w, holds, asked? })
    (brackets : Brackets opened? start hold? ended w after)
    (inside : ∀ o, Trail (start o) ((hold? o).toList ++ holds) (inner o) (ended o)
      ((hold? o).toList ++ holds))
    (further : Trail after holds rest last holds) :
    Trail w holds ({ world := w, holds, asked? } :: (opened?.elim [] inner ++ rest)) last holds := by
  cases opened : opened? with
  | none => exact .step (m := ⟨w, holds, asked?⟩) (.takes calls (brackets.calm opened).takes) further
  | some o =>
      refine .step (m := ⟨w, holds, asked?⟩) (.takes calls (brackets.takes o opened)) ?_
      exact (inside o).leaves (brackets.leaves o opened) further

/-- A trail over what follows an action that has ended. -/
theorem continued {act : Act σ α} {onward : α → Act σ β} {moments : α → World σ → List (Moment σ)}
    (each : ∀ a after, Trail after holds (moments a after) (onward a after).2 holds) :
    Trail (act w).2 holds (Moment.continued holds (act w) moments) ((act >>= onward) w).2 holds := by
  rcases ended : act w with ⟨outcome, after⟩
  cases outcome with
  | returned a =>
      rw [bind_of_returned ended]
      exact each a after
  | _ =>
      rw [world_of_stuck ended (by rintro _ ⟨⟩)]
      exact .stop _ _

end Trail

omit [NativeState σ] in
@[simp] theorem Act.attempt_world (act : Act σ α) (w : World σ) : (act.attempt w).2 = (act w).2 := by
  simp only [Act.attempt]
  rcases act w with ⟨_ | _ | _ | _, after⟩ <;> rfl

/-- The trail of a request: what it does, or around the native code that it enters, and on. -/
theorem Request.trail_serve {asked : Request σ (Program σ)} {w last : World σ} {holds : List Hold}
    {rest : List (Moment σ)} (run : Runner σ) {inner : Opening σ → List (Moment σ)}
    (inside : ∀ o, Trail o.world (o.hold?.toList ++ holds) (inner o) (run o.frames o.program o.world).2
      (o.hold?.toList ++ holds))
    (further : Trail (asked.serve run w).2 holds rest last holds) :
    Trail w holds ({ world := w, holds, asked? := some asked } ::
      ((asked.opening? w).elim [] inner ++ rest)) last holds := by
  cases prepared : asked.prepare? with
  | none =>
      have none : asked.opening? w = none := by rw [opening?, prepared, Option.bind_eq_bind, Option.bind_none]
      rw [none]
      exact .step (m := ⟨w, holds, some asked⟩) (.serves rfl prepared rfl) further
  | some prepare =>
      refine .around ?_ (brackets_serve prepared run w) inside further
      rintro _ ⟨⟩
      exact ⟨prepare, prepared⟩

/-- The trail of elements that are replaced one after the other. -/
theorem ArrayView.trail_replace (view : ArrayView) {type : ElementType} {holds : List Hold}
    {f : type.Carrier → Act σ type.Carrier} {moments : type.Carrier → World σ → List (Moment σ)}
    (each : ∀ old w, Trail w holds (moments old w) (f old w).2 holds) (indices : List (List Nat)) : ∀ w,
    Trail w holds (view.replaceMoments type holds f moments indices w)
      (view.replaceElements type (fun old => do return (← f old, ())) indices w).2 holds := by
  induction indices with
  | nil => exact fun w => .stop w holds
  | cons index rest ih =>
      intro w
      simp only [replaceMoments, replaceElements, bind_assoc, pure_bind]
      refine .calm (view.keeps_elementNow type index w) (.continued fun found after => ?_)
      obtain ⟨offset, old⟩ := found
      have mapped := each old after
      dsimp only
      rcases ended : f old after with ⟨outcome, later⟩
      rw [ended] at mapped
      cases outcome with
      | returned new =>
          have written : later.Calm (view.writeBytes offset (type.write new) later).2 :=
            ⟨rfl, rfl, steady_setBuffer _ _⟩
          have others : ∀ act : Act σ (List Unit), ((view.writeBytes offset (type.write new) >>= fun _ =>
              act >>= fun seen => pure (() :: seen)) later).2 =
                (act (view.writeBytes offset (type.write new) later).2).2 := fun act =>
            (bind_after (R := Eq) fun _ => keeps_pure _).symm
          rw [bind_of_returned ended, others]
          exact mapped.leaves written.leaves (ih _)
      | _ =>
          rw [world_of_stuck ended (by rintro _ ⟨⟩)]
          exact mapped.append (.stop later holds)

omit [NativeState σ] in
theorem Frame.classes_store (frame : Frame) (content : Content σ) (w : World σ) :
    (frame.store content w).classes = w.classes := by
  simp only [store]
  split
  · rfl
  · split <;> rfl
  · rfl

namespace Program

variable {deeper : Runner σ} {inner : List Hold → List Frame → Program σ → World σ → List (Moment σ)}

omit [NativeState σ] in
theorem calm_put (frames : List Frame) (level : Nat) (content : Content σ) (w : World σ) :
    w.Calm (match frames[level]? with
      | some frame => frame.store content w
      | none => w) := by
  cases frames[level]? with
  | none => exact refl_of Calm w
  | some frame => exact ⟨frame.lives_store content w, frame.classes_store content w,
    frame.steady_store content w⟩

/-- The moments of a program are a trail if those of the native code that it enters are one. -/
theorem trail_execute
    (entered : ∀ holds frames program w,
      Trail w holds (inner holds frames program w) (deeper frames program w).2 holds) :
    (program : Program σ) → ∀ holds frames w, Trail w holds
      (executeMoments deeper inner holds frames program w) (execute deeper frames program w).2 holds
  | .done result, holds, frames, w => .stop w holds
  | .panic payload, holds, frames, w => .stop w holds
  | .look level next, holds, frames, w =>
    .calm (refl_of Calm w) (trail_execute entered (next _) holds frames w)
  | .put level content next, holds, frames, w =>
      .calm (calm_put frames level content w) (trail_execute entered next holds frames _)
  | .request asked next, holds, frames, w => by
      simp only [executeMoments, execute]
      refine asked.trail_serve deeper (fun o => entered _ _ _ _) ?_
      rw [← Act.attempt_world]
      exact .continued fun reply after => trail_execute entered (next reply) holds frames after
  | .withInstance handle type body next, holds, frames, w => by
      simp only [executeMoments, execute]
      refine .around (Moment.calls_of_quiet rfl)
        (handle.brackets_withInstance type (execute deeper (.instance handle true :: frames) body) w)
        (fun held => trail_execute entered body _ _ held) ?_
      rw [← Act.attempt_world]
      exact .continued fun reply after => trail_execute entered (next reply) holds frames after
  | .withBytes view writable body next, holds, frames, w => by
      simp only [executeMoments, execute]
      refine .around (Moment.calls_of_quiet rfl)
        (view.brackets_withHeld (execute deeper (Frame.ofView view writable :: frames) body) w)
        (fun held => trail_execute entered body _ _ held) ?_
      rw [← Act.attempt_world]
      exact .continued fun reply after => trail_execute entered (next reply) holds frames after
  | .mapElements view type body next, holds, frames, w => by
      let act (old : type.Carrier) : Act σ type.Carrier := do
        return elementOr type old (← execute deeper frames (body old))
      have replaced : ∀ old w, (act old w).2 = (execute deeper frames (body old) w).2 :=
        fun old w => (bind_after (R := Eq) fun _ => keeps_pure _).symm
      simp only [executeMoments, execute]
      refine .around (Moment.calls_of_quiet rfl) (view.brackets_mapElements act w) (fun held => ?_) ?_
      · refine view.trail_replace (fun old w => ?_) _ held
        rw [replaced old w]
        exact trail_execute entered (body old) _ frames w
      · rw [← Act.attempt_world]
        exact .continued fun reply after => trail_execute entered (next reply) holds frames after

/-- The moments of a run are a trail, and it lets go of everything that it takes. -/
theorem trail_moments (stack : Nat) : ∀ holds frames program (w : World σ),
    Trail w holds (moments stack holds frames program w) (run stack frames program w).2 holds := by
  induction stack with
  | zero => exact fun holds frames program w => .stop w holds
  | succ stack ih => exact fun holds frames program w => trail_execute ih program holds frames w

theorem trail_session (stack : Nat) (programs : List (Program σ)) : ∀ w : World σ,
    Trail w [] (sessionMoments stack programs w) (session stack programs w) [] := by
  induction programs with
  | nil => exact fun w => .stop w []
  | cons program rest ih => exact fun w => (trail_moments stack [] [] program w).append (ih _)

end Program

end Marshal
