import Mathlib
import Marshal.Proofs.Program.Trail
import Marshal.Proofs.World.Lineage
import Marshal.Sample.State

namespace Marshal

open World
open Act hiding pure bind

variable {σ : Type}

namespace Moment

/-- The handle of the instance that is about to be made. -/
def handle? (m : Moment σ) : Option Handle :=
  match m.asked? with
  | some (.create classId state) =>
    match (Handle.create classId state m.world).1 with
    | .returned handle => some handle
    | _ => none
  | _ => none

/-- The array that is about to be made, if making it does not fail. -/
def array? (m : Moment σ) : Option ArrayView :=
  match m.asked? with
  | some (.array request) =>
    match (request.serve m.world).1 with
    | .returned (.array view) => some view
    | _ => none
  | _ => none

/-- The view from which another one is about to be derived. -/
def source? (m : Moment σ) : Option ArrayView :=
  match m.asked? with
  | some (.array request) => request.source?
  | _ => none

/-- What a moment hands out. -/
inductive Issues (m : Moment σ) (after : World σ) : Prop
  | nothing (handle : m.handle? = none) (array : m.array? = none) (steady : m.world.Steady after)
  | handle {handle : Handle} (made : m.handle? = some handle) (array : m.array? = none)
      (slot : handle.slot = m.world.issued.handles.length)
      (issued : after.issued = { m.world.issued with handles := m.world.issued.handles ++ [handle] })
  | array {view : ArrayView} (handle : m.handle? = none) (made : m.array? = some view)
      (numbered : view.Numbered m.world after m.source?)

end Moment

namespace Moment.Issues

variable {m : Moment σ} {after : World σ}

theorem handles (issues : m.Issues after) :
    after.issued.handles = m.world.issued.handles ++ m.handle?.toList := by
  cases issues with
  | nothing handle array steady => rw [steady, handle, Option.toList_none, List.append_nil]
  | handle made array slot issued => rw [issued, made, Option.toList_some]
  | array handle made numbered => rw [numbered.handles, handle, Option.toList_none, List.append_nil]

theorem arrays (issues : m.Issues after) :
    after.issued.arrays = m.world.issued.arrays + m.array?.toList.length := by
  cases issues with
  | nothing handle array steady => rw [steady, array, Option.toList_none, List.length_nil, Nat.add_zero]
  | handle made array slot issued => rw [issued, array, Option.toList_none, List.length_nil, Nat.add_zero]
  | array handle made numbered => rw [numbered.arrays, made, Option.toList_some, List.length_singleton]

theorem buffers (issues : m.Issues after) : m.world.issued.buffers ≤ after.issued.buffers := by
  cases issues with
  | nothing handle array steady => rw [steady]
  | handle made array slot issued => rw [issued]
  | array handle made numbered => exact numbered.buffers

theorem slot {handle : Handle} (issues : m.Issues after) (made : m.handle? = some handle) :
    handle.slot = m.world.issued.handles.length := by
  cases issues with
  | nothing none => cases none.symm.trans made
  | handle found array slot issued =>
      cases found.symm.trans made
      exact slot
  | array none => cases none.symm.trans made

theorem numbered {view : ArrayView} (issues : m.Issues after) (made : m.array? = some view) :
    view.Numbered m.world after m.source? := by
  cases issues with
  | nothing handle none => cases none.symm.trans made
  | handle handle none => cases none.symm.trans made
  | array handle found numbered =>
      cases found.symm.trans made
      exact numbered

end Moment.Issues

/-- The handles of the instances that are made at some moments, in the order of time. -/
def handlesMade (ms : List (Moment σ)) : List Handle := ms.filterMap Moment.handle?

/-- The arrays that are made at some moments, in the order of time. -/
def arraysMade (ms : List (Moment σ)) : List ArrayView := ms.filterMap Moment.array?

/-- Whatever a view is derived from at these moments is one of the arrays that were made so far. -/
def Sourced : List ArrayView → List (Moment σ) → Prop
  | _, [] => True
  | made, m :: rest => (∀ source ∈ m.source?, source ∈ made) ∧ Sourced (made ++ m.array?.toList) rest

instance Sourced.decide : (made : List ArrayView) → (ms : List (Moment σ)) → Decidable (Sourced made ms)
  | _, [] => .isTrue trivial
  | made, m :: rest =>
    have _ := Sourced.decide (made ++ m.array?.toList) rest
    inferInstanceAs (Decidable ((∀ source ∈ m.source?, source ∈ made) ∧ _))

/-- The arrays that were made so far, in a world that has handed out their numbers and buffers. -/
structure Grown (count : Nat) (made : List ArrayView) (w : World σ) : Prop where
  lineage : Lineage count made
  arrays : w.issued.arrays = count + made.length
  buffers : ∀ view ∈ made, view.buffer < w.issued.buffers

theorem Grown.step {count : Nat} {made : List ArrayView} {m : Moment σ} {after : World σ}
    (grown : Grown count made m.world) (issues : m.Issues after)
    (sourced : ∀ source ∈ m.source?, source ∈ made) :
    Grown count (made ++ m.array?.toList) after where
  lineage := by
    cases issues with
    | nothing handle array steady =>
        rw [array, Option.toList_none, List.append_nil]
        exact grown.lineage
    | handle made array slot issued =>
        rw [array, Option.toList_none, List.append_nil]
        exact grown.lineage
    | array handle made numbered =>
        rw [made, Option.toList_some]
        have id := numbered.id_eq
        rw [grown.arrays] at id
        generalize source : m.source? = source? at numbered
        cases numbered with
        | root holds base _ buffer issued =>
            refine .root grown.lineage id holds base fun other member => ?_
            -- the new buffer lies behind all that were handed out
            rw [buffer]
            exact Nat.ne_of_lt (grown.buffers other member)
        | derived leans base _ buffer issued =>
            exact .derived grown.lineage id leans base (sourced _ source) buffer
  arrays := by rw [issues.arrays, grown.arrays, List.length_append, Nat.add_assoc]
  buffers := by
    intro view member
    rcases List.mem_append.mp member with old | new
    · exact Nat.lt_of_lt_of_le (grown.buffers view old) issues.buffers
    · have made : m.array? = some view := Option.mem_toList.mp new
      have numbered := issues.numbered made
      generalize source : m.source? = source? at numbered
      cases numbered with
      | root holds base _ buffer issued => simp [buffer, issued]
      | derived leans base _ buffer issued =>
          rw [buffer, issued]
          exact grown.buffers _ (sourced _ source)

section Runs

variable [NativeState σ]

theorem Request.issues_serve {asked : Request σ (Program σ)} {run : Runner σ} {w : World σ}
    {holds : List Hold} (unprepared : asked.prepare? = none) :
    ({ world := w, holds, asked? := some asked } : Moment σ).Issues (asked.serve run w).2 := by
  have still : ∀ asked : Request σ (Program σ), Keeps Steady (asked.serve run) →
      ({ world := w, holds, asked? := some asked } : Moment σ).handle? = none →
      ({ world := w, holds, asked? := some asked } : Moment σ).array? = none →
      ({ world := w, holds, asked? := some asked } : Moment σ).Issues (asked.serve run w).2 :=
    fun asked steady handle array => .nothing handle array (steady w)
  cases asked with
  | log event => exact still _ ((steady_log event).bind fun _ => keeps_pure _) rfl rfl
  | print text => exact still _ (Keeps.bind (keeps_modify fun _ => rfl) fun _ => keeps_pure _) rfl rfl
  | retain handle => exact still _ ((handle.steady_retain).bind fun _ => keeps_pure _) rfl rfl
  | release handle => exact still _ ((handle.steady_release).bind fun _ => keeps_pure _) rfl rfl
  | defineMethod classId m =>
      exact still _ ((ClassDef.steady_define classId m).bind fun _ => keeps_pure _) rfl rfl
  | create classId state =>
      refine .handle rfl rfl (List.length_map _).symm ?_
      have added : ((Request.create classId state).serve run w).2.cells.map Cell.handle =
          w.cells.map Cell.handle ++ [_] := List.map_append
      simp only [issued, added]
      rfl
  | array request =>
      rcases request.numbers_serve w with ⟨view, after, served, numbered⟩ | ⟨nothing, steady⟩
      · refine Moment.Issues.array rfl (?_ : Moment.array? _ = some view) ?_
        · simp only [Moment.array?, served]
        · rw [show (Request.array request).serve run w = _ from served]
          exact numbered
      · refine .nothing rfl ?_ steady
        dsimp only [Moment.array?]
        split
        · rename_i view returned
          exact absurd returned (nothing view)
        · rfl
  | _ => cases unprepared

namespace Moment

variable {m : Moment σ} {after : World σ} {holds : List Hold}

theorem Calls.made (calls : m.Calls) : m.handle? = none ∧ m.array? = none := by
  obtain ⟨w, holds, asked⟩ := m
  cases asked with
  | none => exact ⟨rfl, rfl⟩
  | some asked =>
      obtain ⟨prepare, prepared⟩ := calls asked rfl
      cases asked with
      | create classId state => cases prepared
      | array request => cases prepared
      | _ => exact ⟨rfl, rfl⟩

theorem Passes.issues (passes : m.Passes after holds) : m.Issues after := by
  cases passes with
  | serves asks unprepared served =>
      obtain ⟨w, holds, asked⟩ := m
      cases asks
      cases served
      exact Request.issues_serve unprepared
  | takes calls takes => exact .nothing calls.made.1 calls.made.2 takes.steady
  | leaves calls held left => exact .nothing calls.made.1 calls.made.2 left.steady

end Moment

namespace Trail

variable {first last : World σ} {holds final : List Hold} {m : Moment σ} {ms before rest : List (Moment σ)}

theorem starts (trail : Trail first holds (m :: rest) last final) : first = m.world := by
  cases trail with
  | stop w holds => rfl
  | step passes trail => rfl

theorem passes (trail : Trail first holds (m :: rest) last final) (more : rest ≠ []) :
    ∃ next between, m.Passes next between ∧ Trail next between rest last final := by
  cases trail with
  | stop w holds => exact absurd rfl more
  | step passes trail => exact ⟨_, _, passes, trail⟩

theorem issues (trail : Trail first holds (m :: rest) last final) : ∃ after, m.Issues after := by
  cases trail with
  | stop => exact ⟨first, .nothing rfl rfl rfl⟩
  | step passes trail => exact ⟨_, passes.issues⟩

/-- At each moment the world has handed out what it had in the beginning and what was made since. -/
theorem issued_at (trail : Trail first holds (before ++ m :: rest) last final) :
    m.world.issued.handles = first.issued.handles ++ handlesMade before ∧
      m.world.issued.arrays = first.issued.arrays + (arraysMade before).length ∧
        ∃ after, m.Issues after := by
  simp only [handlesMade, arraysMade, List.filterMap_eq_flatMap_toList]
  induction before generalizing first holds with
  | nil =>
      rw [trail.starts]
      exact ⟨(List.append_nil _).symm, rfl, trail.issues⟩
  | cons earlier before ih =>
      obtain ⟨next, between, passes, further⟩ := trail.passes (by simp)
      obtain ⟨handles, arrays, issues⟩ := ih further
      rw [trail.starts, handles, arrays, passes.issues.handles, passes.issues.arrays, List.flatMap_cons,
        List.flatMap_cons, List.append_assoc, List.length_append, Nat.add_assoc]
      exact ⟨rfl, rfl, issues⟩

end Trail

theorem Trail.grown {count : Nat} {made : List ArrayView} {first last : World σ} {holds final : List Hold}
    {ms : List (Moment σ)} (trail : Trail first holds ms last final) (grown : Grown count made first)
    (sourced : Sourced made ms) : Lineage count (made ++ arraysMade ms) := by
  rw [arraysMade, List.filterMap_eq_flatMap_toList]
  induction trail generalizing made with
  | stop w holds => exact (List.append_nil made).symm ▸ grown.lineage
  | @step m next last between final rest passes trail ih =>
      rw [List.flatMap_cons, ← List.append_assoc]
      exact ih (grown.step passes.issues sourced.1) sourced.2

theorem Program.lineage_session {stack : Nat} {programs : List (Program σ)} {w : World σ}
    (sourced : Sourced [] (sessionMoments stack programs w)) :
    Lineage w.arrayCount (arraysMade (sessionMoments stack programs w)) :=
  (trail_session stack programs w).grown ⟨.nil, rfl, by simp⟩ sourced

/-- Numbers are identities.  At every moment of a session there are the handles of the beginning and
those of the instances that were made since, and so many arrays were counted as were made; each new one
has the next number, whatever failed before it.  The base of an array is what it was derived from, and
those that were derived from none hold their memory themselves.  If arrays are derived only from such as
were made before, base numbers lead down from each array to exactly one root, over arrays that all have
its memory, and arrays share their memory where their roots are the same.  A clone is no new handle or
array, it is the same one.  Both counters have 64 bits, so that this is said of sessions with fewer than
2^64 handles and 2^64 arrays. -/
theorem numbering_exact (stack : Nat) (programs : List (Program σ)) (w : World σ) :
    (∀ (before rest : List (Moment σ)) (m : Moment σ),
      Program.sessionMoments stack programs w = before ++ m :: rest →
      m.world.cells.map Cell.handle = w.cells.map Cell.handle ++ handlesMade before ∧
      m.world.arrayCount = w.arrayCount + (arraysMade before).length ∧
      (∀ handle, m.handle? = some handle → handle.id = w.cells.length + (handlesMade before).length + 1) ∧
      ∀ view, m.array? = some view →
        view.id = w.arrayCount + (arraysMade before).length + 1 ∧
        view.base? = m.source?.map ArrayView.id ∧ (view.base? = none ↔ view.ownership ≠ .view)) ∧
    (Sourced [] (Program.sessionMoments stack programs w) →
      let views := arraysMade (Program.sessionMoments stack programs w)
      ∀ view ∈ views,
        (∀ id, view.base? = some id →
          ∃ source ∈ views, source.id = id ∧ id < view.id ∧ view.sharesStorage source = true) ∧
        (∃ root ∈ views, root.ownership ≠ .view ∧ view.sharesStorage root = true ∧
          ∀ other, view.Ends views other ↔ other = root) ∧
        ∀ other ∈ views, ∀ root otherRoot, view.Ends views root → other.Ends views otherRoot →
          (view.sharesStorage other = true ↔ root = otherRoot)) := by
  have trail := Program.trail_session stack programs w
  refine ⟨fun before rest m split => ?_, fun sourced => ?_⟩
  · rw [split] at trail
    obtain ⟨handles, arrays, after, issues⟩ := trail.issued_at
    refine ⟨handles, arrays, fun handle made => ?_, fun view made => ?_⟩
    · have slot := issues.slot made
      rw [handles, List.length_append] at slot
      simpa only [Handle.id, issued, List.length_map] using congrArg (· + 1) slot
    · have numbered := issues.numbered made
      exact ⟨numbered.id_eq.trans (congrArg (· + 1) arrays), numbered.base?_eq, numbered.base?_eq_none_iff⟩
  · intro views view member
    have lineage := Program.lineage_session sourced
    refine ⟨fun id based => ?_, ?_, fun other memberOther root otherRoot ends ends' => ?_⟩
    · obtain ⟨source, names, same, below, buffer⟩ := lineage.named view member id based
      exact ⟨source, names.1, same, below, ArrayView.sharesStorage_iff.mpr buffer⟩
    · obtain ⟨root, there, ends, buffer⟩ := lineage.exists_ends view member
      obtain ⟨_, holds, _⟩ := lineage.root_of_ends member ends
      refine ⟨root, there, holds, ArrayView.sharesStorage_iff.mpr buffer.symm, fun other =>
        ⟨fun ends' => ?_, ?_⟩⟩
      · exact lineage.ends_unique ends' ends
      · rintro rfl
        exact ends
    · exact ArrayView.sharesStorage_iff.trans (lineage.buffer_eq_iff member memberOther ends ends')

end Runs

/-- A session with an instance and five operations on arrays.  The second of them fails, since there are no
four elements. -/
theorem numbering_exact_reshaped :
    ∃ (moments : List (Moment Sample.State)) (rows flat columns copy : ArrayView),
      Sourced [] moments ∧ arraysMade moments = [rows, flat, columns, copy] ∧
      columns.Ends (arraysMade moments) rows ∧ copy.Ends (arraysMade moments) copy ∧
      columns.sharesStorage copy = false := by
  let dtype := DType.number (.int .i32)
  let rows : ArrayView :=
    { id := 1, layout := Layout.cContiguous [2, 3] dtype, buffer := 0, ownership := .owned, base? := none }
  let flat : ArrayView :=
    { rows with id := 2, layout := Layout.cContiguous [6] dtype, ownership := .view, base? := some 1 }
  let columns : ArrayView := { flat with id := 3, layout := Layout.cContiguous [3, 2] dtype, base? := some 2 }
  let copy : ArrayView := { columns with id := 4, buffer := 1, ownership := .owned, base? := none }
  let program : Program Sample.State :=
    .request (.array (.zeros [2, 3] dtype)) fun _ =>
    .request (.array (.reshape rows [4])) fun _ =>
    .request (.array (.reshape rows [6])) fun _ =>
    .request (.create 0 (.counter Sample.Long.zero)) fun _ =>
    .request (.array (.reshape flat [3, 2])) fun _ =>
    .request (.array (.copy columns)) fun _ => .done (.ok .none)
  let moments := Program.sessionMoments 1 [program] {}
  have made : arraysMade moments = [rows, flat, columns, copy] := by decide +kernel
  have sourced : Sourced [] moments := by decide +kernel
  have exact := (numbering_exact 1 [program] {}).2 sourced columns (by rw [made]; decide)
  have first : columns.Names (arraysMade moments) flat := by
    rw [made]
    exact ⟨by decide, rfl⟩
  have second : flat.Names (arraysMade moments) rows := by
    rw [made]
    exact ⟨by decide, rfl⟩
  have turned : columns.Ends (arraysMade moments) rows := .head first (.head second (.of_root rfl))
  have own : copy.Ends (arraysMade moments) copy := .of_root rfl
  have apart : ¬ columns.sharesStorage copy = true := by
    rw [exact.2.2 copy (by rw [made]; decide) rows copy turned own]
    decide
  exact ⟨moments, rows, flat, columns, copy, sourced, made, turned, own, Bool.eq_false_iff.mpr apart⟩

end Marshal
