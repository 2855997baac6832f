import Mathlib
import Marshal.Proofs.Program.Lasting

/-!
# Invariants of moments

A property of a world and of what is held there is one of all moments of a run, if it survives what
lasts through native code and if taking an instance or bytes into hold keeps it.
-/

namespace Marshal

open World
open Act hiding pure bind

variable {σ α : Type} {spared : Set Nat} {P : World σ → List Hold → Prop}

/-- What makes a property hold at all moments.  It may rely on what the read-only buffers in a set hold,
if it keeps them from being held for writing. -/
structure Moment.Invariant (spared : Set Nat) (P : World σ → List Hold → Prop) : Prop where
  lasts : ∀ {w after holds}, P w holds → w.Lasts spared after → P after holds
  enters : ∀ {handle : Handle} {writable w state held holds}, P w holds →
    handle.entered? writable w = some (state, held) → P held (⟨.cell handle.slot, writable⟩ :: holds)
  borrows : ∀ {view : ArrayView} {writable w bytes holds}, P w holds →
    view.borrowed writable w = (.returned bytes, w) → (writable = true → view.buffer ∉ spared) ∧
      P (view.held writable w) (⟨.buffer view.buffer, writable⟩ :: holds)

theorem Moment.forall_continued {Q : Moment σ → Prop} {holds : List Hold} {ended : Outcome α × World σ}
    {next : α → World σ → List (Moment σ)} (last : Q { world := ended.2, holds })
    (onward : ∀ a, ∀ m ∈ next a ended.2, Q m) : ∀ m ∈ Moment.continued holds ended next, Q m := by
  rcases ended with ⟨_ | _ | _ | _, after⟩
  · exact onward _
  all_goals exact List.forall_mem_singleton.mpr last

theorem Handle.entered_of_enteredAs [NativeState σ] {handle : Handle} {type : String} {w held : World σ}
    (opened : handle.enteredAs? type w = some held) :
    ∃ state, handle.entered? true w = some (state, held) := by
  simp only [enteredAs?, Option.bind_eq_bind, Option.bind_eq_some_iff] at opened
  obtain ⟨⟨state, world⟩, entered, same⟩ := opened
  split at same
  · cases same
    exact ⟨state, entered⟩
  · cases same

namespace ArrayView

variable {view : ArrayView} {writable : Bool} {type : ElementType} {w held : World σ}

theorem borrowed_of_entered (opened : view.entered? writable w = some held) :
    held = view.held writable w ∧ ∃ bytes, view.borrowed writable w = (.returned bytes, w) := by
  rcases view.borrowed_cases writable w with ⟨bytes, _, borrowed, _⟩ | ⟨_, refused, _⟩
  · refine ⟨?_, bytes, borrowed⟩
    simp only [entered?, borrowed] at opened
    split at opened
    · split at opened
      · cases opened
        rfl
      · cases opened
    · cases opened
  · simp only [entered?, refused] at opened
    cases contiguous : view.requireContiguous <;> rw [contiguous] at opened <;> cases opened

theorem borrowed_of_replacing (opened : view.replacing? type w = some held) :
    held = view.held true w ∧ ∃ bytes, view.borrowed true w = (.returned bytes, w) := by
  rcases view.borrowed_cases true w with ⟨bytes, _, borrowed, _⟩ | ⟨_, refused, _⟩
  · have allowed : view.writable w = (.returned bytes, w) := borrowed
    refine ⟨?_, bytes, borrowed⟩
    simp only [replacing?, allowed] at opened
    split at opened
    · cases opened
      rfl
    · cases opened
  · have denied : view.writable w = _ := refused
    simp only [replacing?, denied] at opened
    split at opened
    · rename_i impossible
      cases impossible
    · cases opened

end ArrayView

namespace Moment.Invariant

variable (invariant : Moment.Invariant spared P)

include invariant

theorem opening [NativeState σ] {asked : Request σ (Program σ)} {w : World σ} {o : Opening σ}
    {holds : List Hold} (opened : asked.opening? w = some o) (before : P w holds) :
    P o.world (o.hold?.toList ++ holds) ∧ ∀ frame ∈ o.frames, frame.Spares spared := by
  simp only [Request.opening?, Option.bind_eq_bind, Option.bind_eq_some_iff] at opened
  obtain ⟨prepare, prepared, opened⟩ := opened
  have quiet := (Request.logs_prepare prepared).quiet
  rcases ended : prepare w with ⟨outcome, after⟩
  rw [ended] at opened
  have checked : P after holds := invariant.lasts before (quiet.lasts.ended ended)
  cases outcome with
  | returned call =>
      cases call with
      | function program conclusion =>
          cases opened
          exact ⟨checked, by simp⟩
      | member handle writable program conclusion =>
          simp only [NativeCall.opening?, Option.bind_eq_bind, Option.bind_eq_some_iff] at opened
          obtain ⟨⟨state, held⟩, entered, _, _, opening⟩ := opened
          cases opening
          exact ⟨invariant.enters checked entered, by simp [Frame.Spares]⟩
  | _ => cases opened

theorem replace (view : ArrayView) {type : ElementType} {holds : List Hold}
    {f : type.Carrier → Act σ type.Carrier} {moments : type.Carrier → World σ → List (Moment σ)}
    (apart : view.buffer ∉ spared) (kept : ∀ old, Keeps (Lasts spared) (f old))
    (each : ∀ old w, P w holds → ∀ m ∈ moments old w, P m.world m.holds) (indices : List (List Nat)) :
    ∀ w, P w holds → ∀ m ∈ view.replaceMoments type holds f moments indices w, P m.world m.holds := by
  induction indices with
  | nil => exact fun w before => List.forall_mem_singleton.mpr before
  | cons index rest ih =>
      intro w before
      simp only [ArrayView.replaceMoments]
      refine List.forall_mem_cons.mpr ⟨before, ?_⟩
      have found : P (view.elementNow type index w).2 holds :=
        invariant.lasts before (view.keeps_elementNow type index w)
      refine Moment.forall_continued found fun (offset, old) => ?_
      refine List.forall_mem_append.mpr ⟨each old _ found, ?_⟩
      have mapped := invariant.lasts found (kept old (view.elementNow type index w).2)
      refine Moment.forall_continued mapped fun new => ih _ ?_
      exact invariant.lasts mapped (view.lasts_writeBytes apart _ _ _)

variable [NativeState σ] {deeper : Runner σ}
  {inner : List Hold → List Frame → Program σ → World σ → List (Moment σ)}

/-- The property is one of all moments of a program, if it is of the native code that is entered. -/
theorem execute (kept : deeper.Lasts)
    (entered : ∀ holds frames program w, (∀ frame ∈ frames, frame.Spares spared) → P w holds →
      ∀ m ∈ inner holds frames program w, P m.world m.holds) :
    (program : Program σ) → ∀ holds frames w, (∀ frame ∈ frames, frame.Spares spared) → P w holds →
      ∀ m ∈ Program.executeMoments deeper inner holds frames program w, P m.world m.holds
  | .done _, holds, frames, w, spares, before => List.forall_mem_singleton.mpr before
  | .panic _, holds, frames, w, spares, before => List.forall_mem_singleton.mpr before
  | .look level next, holds, frames, w, spares, before =>
      List.forall_mem_cons.mpr ⟨before, execute kept entered (next _) holds frames w spares before⟩
  | .put level content next, holds, frames, w, spares, before => by
      refine List.forall_mem_cons.mpr ⟨before, execute kept entered next holds frames _ spares ?_⟩
      refine invariant.lasts before ?_
      cases found : frames[level]? with
      | none => exact refl_of (Lasts spared) w
      | some frame => exact Frame.lasts_store (spares frame (List.mem_of_getElem? found)) content w
  | .request asked next, holds, frames, w, spares, before => by
      simp only [Program.executeMoments]
      refine List.forall_mem_cons.mpr ⟨before, List.forall_mem_append.mpr ⟨?_, ?_⟩⟩
      · cases opened : asked.opening? w with
        | none => simp
        | some o =>
            obtain ⟨starts, own⟩ := invariant.opening opened before
            exact entered _ _ _ _ own starts
      · have after := invariant.lasts before ((asked.lasts_serve kept).attempt w)
        exact Moment.forall_continued after fun reply =>
          execute kept entered (next reply) holds frames _ spares after
  | .withInstance handle type body next, holds, frames, w, spares, before => by
      have inside : ∀ frame ∈ Frame.instance handle true :: frames, frame.Spares spared :=
        List.forall_mem_cons.mpr ⟨trivial, spares⟩
      simp only [Program.executeMoments]
      refine List.forall_mem_cons.mpr ⟨before, List.forall_mem_append.mpr ⟨?_, ?_⟩⟩
      · cases opened : handle.enteredAs? type w with
        | none => simp
        | some held =>
            obtain ⟨state, found⟩ := Handle.entered_of_enteredAs opened
            exact execute kept entered body _ _ held inside (invariant.enters before found)
      · have during := Program.lasts_execute kept body spared _ inside
        have after := invariant.lasts before ((handle.lasts_withInstance type during).attempt w)
        exact Moment.forall_continued after fun reply =>
          execute kept entered (next reply) holds frames _ spares after
  | .withBytes view writable body next, holds, frames, w, spares, before => by
      simp only [Program.executeMoments]
      refine List.forall_mem_cons.mpr ⟨before, List.forall_mem_append.mpr ⟨?_, ?_⟩⟩
      · cases opened : view.entered? writable w with
        | none => simp
        | some held =>
            obtain ⟨rfl, bytes, borrowed⟩ := ArrayView.borrowed_of_entered opened
            obtain ⟨apart, starts⟩ := invariant.borrows before borrowed
            refine execute kept entered body _ _ _ (List.forall_mem_cons.mpr ⟨?_, spares⟩) starts
            exact Frame.spares_ofView apart
      · have during : Keeps (Lasts spared) (view.withHeld writable fun _ =>
            Program.execute deeper (Frame.ofView view writable :: frames) body) :=
          view.lasts_withHeld fun fewer within own _ => Program.lasts_execute kept body fewer _
            (List.forall_mem_cons.mpr ⟨own, fun frame member => (spares frame member).narrow within⟩)
        have after := invariant.lasts before (during.attempt w)
        exact Moment.forall_continued after fun reply =>
          execute kept entered (next reply) holds frames _ spares after
  | .mapElements view type body next, holds, frames, w, spares, before => by
      have each : ∀ old, Keeps (Lasts spared) (do
          return Program.elementOr type old (← Program.execute deeper frames (body old))) := fun old =>
        (Program.lasts_execute kept (body old) spared frames spares).bind fun _ => keeps_pure _
      simp only [Program.executeMoments]
      refine List.forall_mem_cons.mpr ⟨before, List.forall_mem_append.mpr ⟨?_, ?_⟩⟩
      · cases opened : view.replacing? type w with
        | none => simp
        | some held =>
            obtain ⟨rfl, bytes, borrowed⟩ := ArrayView.borrowed_of_replacing opened
            obtain ⟨apart, starts⟩ := invariant.borrows before borrowed
            exact invariant.replace view (apart rfl) each
              (fun old w now => execute kept entered (body old) _ frames w spares now) _ _ starts
      · have after := invariant.lasts before ((view.lasts_mapElements type each).attempt w)
        exact Moment.forall_continued after fun reply =>
          execute kept entered (next reply) holds frames _ spares after

/-- The property is one of all moments of a run that it is true of in the beginning. -/
theorem moments (stack : Nat) :
    ∀ (holds : List Hold) (frames : List Frame) (program : Program σ) (w : World σ),
    (∀ frame ∈ frames, frame.Spares spared) → P w holds →
      ∀ m ∈ Program.moments stack holds frames program w, P m.world m.holds := by
  induction stack with
  | zero => exact fun holds frames program w _ before => List.forall_mem_singleton.mpr before
  | succ stack ih =>
      exact fun holds frames program w =>
        invariant.execute (Program.lasts_run stack) ih program holds frames w

end Moment.Invariant

end Marshal
