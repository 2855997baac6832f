import Mathlib
import Marshal.Proofs.Program.Moments
import Marshal.Proofs.World.Handle

/-!
# What lasts through native code

Whatever native code does, to any depth and however it ends, the users of every instance and every
buffer are afterwards those of before, and no buffer goes away or changes its size.  A read-only buffer
holds what it held, unless the code was given its bytes to write.
-/

namespace Marshal

open World
open Act hiding pure bind

variable {σ α : Type} {w after : World σ} {spared : Set Nat}

/-- What native code leaves as it was.  Of the read-only buffers it is those in a set that hold what
they held. -/
structure World.Lasts (spared : Set Nat) (w after : World σ) : Prop where
  access : ∀ slot, (after.lives.life slot).access = (w.lives.life slot).access
  bufferAccess : after.bufferAccess = w.bufferAccess
  room : w.KeepsRoom after
  sealed : ∀ index ∈ spared, w.KeepsSeal index after

instance : IsPreorder (World σ) (Lasts spared) where
  refl w := ⟨fun _ => rfl, rfl, refl_of KeepsRoom w, fun index _ => refl_of (KeepsSeal index) w⟩
  trans _ _ _ first rest :=
    ⟨fun slot => (rest.access slot).trans (first.access slot),
      rest.bufferAccess.trans first.bufferAccess, trans_of KeepsRoom first.room rest.room,
      fun index member =>
        trans_of (KeepsSeal index) (first.sealed index member) (rest.sealed index member)⟩

theorem World.Quiet.lasts (quiet : w.Quiet after) : w.Lasts spared after where
  access slot := by rw [quiet.lives]
  bufferAccess := quiet.access
  room := quiet.room
  sealed index _ := quiet.sealed index

theorem Act.Keeps.lasts {act : Act σ α} (quiet : Keeps Quiet act) : Keeps (Lasts spared) act :=
  quiet.mono fun _ _ quiet => quiet.lasts

namespace World.Lasts

variable {wider : Set Nat} {index : Nat}

theorem narrow (lasts : w.Lasts wider after) (within : spared ⊆ wider) : w.Lasts spared after :=
  { lasts with sealed := fun index member => lasts.sealed index (within member) }

/-- A buffer that can be written has no contents to keep. -/
theorem widen (lasts : w.Lasts (spared \ {index}) after) (unsealed : w.sealed? index = none) :
    w.Lasts spared after where
  access := lasts.access
  bufferAccess := lasts.bufferAccess
  room := lasts.room
  sealed other member := by
    by_cases same : other = index
    · subst same
      intro bytes sealed
      cases unsealed.symm.trans sealed
    · exact lasts.sealed other ⟨member, same⟩

end World.Lasts

namespace World

theorem lasts_setCell {handle : Handle} {f : Cell σ → Cell σ}
    (same : ∀ cell, (f cell).access = cell.access) : w.Lasts spared (w.setCell handle f) where
  access slot := by
    simp only [lives, setCell, List.getElem?_modify]
    by_cases here : handle.slot = slot
    · cases w.cells[slot]? <;> simp [here, Cell.life, same]
    · cases w.cells[slot]? <;> simp [here]
  bufferAccess := rfl
  room _ _ same := same
  sealed _ _ _ same := same

theorem lasts_addCell {cell : Cell σ} (idle : cell.access = .idle) :
    w.Lasts spared { w with cells := w.cells ++ [cell] } where
  access slot := by
    simp only [lives, List.getElem?_append]
    split
    · rfl
    · rename_i beyond
      rw [List.getElem?_eq_none (Nat.le_of_not_lt beyond)]
      cases slot - w.cells.length <;> simp [Cell.life, Life.none, idle]
  bufferAccess := rfl
  room _ _ same := same
  sealed _ _ _ same := same

end World

/-- The frame does not let a program write any of these buffers. -/
def Frame.Spares (spared : Set Nat) : Frame → Prop
  | .bytes buffer _ _ true => buffer ∉ spared
  | _ => True

theorem Frame.spares_empty (frame : Frame) : frame.Spares ∅ := by
  rcases frame with _ | ⟨_, _, _, _ | _⟩
  · trivial
  · trivial
  · exact Set.notMem_empty _

theorem Frame.Spares.narrow {frame : Frame} {fewer : Set Nat} (spares : frame.Spares spared)
    (within : fewer ⊆ spared) : frame.Spares fewer := by
  rcases frame with _ | ⟨buffer, _, _, _ | _⟩
  · trivial
  · trivial
  · exact fun member => spares (within member)

theorem Frame.spares_ofView {view : ArrayView} {writable : Bool}
    (apart : writable = true → view.buffer ∉ spared) : (Frame.ofView view writable).Spares spared := by
  cases writable with
  | false => trivial
  | true => exact apart rfl

theorem Frame.lasts_store {frame : Frame} (spares : frame.Spares spared) (content : Content σ)
    (w : World σ) : w.Lasts spared (frame.store content w) := by
  simp only [store]
  split
  · exact lasts_setCell fun _ => rfl
  · rename_i buffer start length fresh
    split
    · exact
        { access := fun _ => rfl
          bufferAccess := bufferAccess_setBuffer _ fun _ => rfl
          room := keepsRoom_setBuffer _ fun _ => overwrite_length _ _ _
          sealed := fun index member bytes sealed => by
            have ne : index ≠ buffer := fun same => spares (same ▸ member)
            rwa [sealed?_setBuffer_of_ne ne] }
    · exact refl_of (Lasts spared) w
  · exact refl_of (Lasts spared) w

namespace Handle

variable (handle : Handle)

theorem lasts_whileHeld (writable : Bool) {act : σ → Act σ α}
    (kept : ∀ state, Keeps (Lasts spared) (act state)) :
    Keeps (Lasts spared) (handle.whileHeld writable act) := by
  intro w
  rcases handle.borrowed_cases (w := w) writable with
    ⟨access, state, borrowed, enters, _, _, cell, found⟩ | ⟨e, refused⟩
  · let held := handle.setAccess (fun _ => access) w
    let ended := (act state held).2
    have ran : (handle.whileHeld writable act w).2 = handle.setAccess (Access.leave writable) ended := by
      simp only [whileHeld, bind_of_returned borrowed, bracket]
      rfl
    have during : held.Lasts spared ended := kept state held
    have opened : held.lives = _ := handle.lives_setAccess (.inr ⟨cell, found⟩)
    have idle : Access.idle.leave writable = .idle := Access.leave_idle
    have closed := handle.lives_setAccess (w := ended) (.inl idle)
    rw [ran]
    refine ⟨fun slot => ?_, during.bufferAccess, during.room, during.sealed⟩
    have inside := during.access slot
    rw [opened] at inside
    rw [closed]
    by_cases here : slot = handle.slot
    · subst here
      simp only [Lives.set_life] at inside ⊢
      rw [Handle.life, inside]
      exact Access.leave_enter? enters
    · rwa [Lives.set_life_of_ne here] at inside ⊢
  · rw [whileHeld, bind_of_failed refused]
    exact refl_of (Lasts spared) w

theorem lasts_withInstance [NativeState σ] (type : String) {act : Act σ α}
    (kept : Keeps (Lasts spared) act) : Keeps (Lasts spared) (handle.withInstance type act) := by
  refine handle.lasts_whileHeld true fun state => ?_
  split
  · exact kept
  · exact keeps_fail _

end Handle

namespace ArrayView

variable (view : ArrayView) {writable : Bool}

theorem bufferAccess_setAccess_of_ne {index : Nat} (ne : index ≠ view.buffer) (f : Access → Access) :
    (view.setAccess f w).bufferAccess index = w.bufferAccess index := by
  simp only [setAccess, bufferAccess, setBuffer, List.getElem?_modify]
  cases w.buffers[index]? <;> simp [Ne.symm ne]

theorem bufferAccess_setAccess {f : Access → Access}
    (there : f .idle = .idle ∨ view.buffer < w.buffers.length) :
    (view.setAccess f w).bufferAccess =
      Function.update w.bufferAccess view.buffer (f (w.bufferAccess view.buffer)) := by
  funext index
  by_cases same : index = view.buffer
  · subst same
    simp only [setAccess, bufferAccess, setBuffer, List.getElem?_modify, Function.update_self]
    cases found : w.buffers[view.buffer]? with
    | none =>
        have idle := there.resolve_right (Nat.not_lt_of_le (List.getElem?_eq_none_iff.mp found))
        simp [idle]
    | some buffer => simp
  · rw [Function.update_of_ne same, view.bufferAccess_setAccess_of_ne same]

theorem keepsRoom_setAccess (f : Access → Access) (w : World σ) : w.KeepsRoom (view.setAccess f w) :=
  keepsRoom_setBuffer _ fun _ => rfl

theorem keepsSeal_setAccess (f : Access → Access) (index : Nat) (w : World σ) :
    w.KeepsSeal index (view.setAccess f w) := by
  intro bytes sealed
  simp only [setAccess, sealed?, setBuffer, List.getElem?_modify] at sealed ⊢
  cases found : w.buffers[index]? with
  | none =>
      rw [found] at sealed
      cases sealed
  | some buffer =>
      rw [found] at sealed
      by_cases same : view.buffer = index
      · simpa [same] using sealed
      · simpa [same] using sealed

theorem bufferAccess_held {access : Access} (there : view.buffer < w.buffers.length)
    (enters : (w.bufferAccess view.buffer).enter? writable = some access) :
    (view.held writable w).bufferAccess = Function.update w.bufferAccess view.buffer access := by
  rw [held, view.bufferAccess_setAccess (.inr there), enters, Option.getD_some]

/-- What runs while the bytes of a view are held leaves them to those who used them before. -/
theorem lasts_whileHeld {access : Access} {act : Act σ α}
    (enters : (w.bufferAccess view.buffer).enter? writable = some access)
    (during : (view.held writable w).Lasts spared (act (view.held writable w)).2) :
    w.Lasts spared (view.whileHeld writable act w).2 := by
  let ended := (act (view.held writable w)).2
  have ran : (view.whileHeld writable act w).2 = view.setAccess (Access.leave writable) ended := rfl
  have idle : Access.idle.leave writable = .idle := Access.leave_idle
  have closed := view.bufferAccess_setAccess (w := ended) (.inl idle)
  rw [ran]
  refine ⟨during.access, ?_, ?_, fun index member => ?_⟩
  · rw [closed, during.bufferAccess]
    by_cases there : view.buffer < w.buffers.length
    · rw [view.bufferAccess_held there enters, Function.update_self, Function.update_idem,
        Access.leave_enter? enters, Function.update_eq_self]
    · -- A view without a buffer holds nothing.
      have missing : w.buffers[view.buffer]? = none := List.getElem?_eq_none (Nat.le_of_not_lt there)
      have nothing : view.held writable w = w := by
        simp only [held, setAccess, setBuffer, List.modify_eq_self (Nat.le_of_not_lt there)]
      have idle : w.bufferAccess view.buffer = .idle := by simp [bufferAccess, missing]
      rw [nothing, idle, Access.leave_idle, ← idle, Function.update_eq_self]
  · have opened : w.KeepsRoom (view.held writable w) := view.keepsRoom_setAccess _ w
    exact trans_of KeepsRoom (trans_of KeepsRoom opened during.room) (view.keepsRoom_setAccess _ ended)
  · have opened : w.KeepsSeal index (view.held writable w) := view.keepsSeal_setAccess _ index w
    exact trans_of (KeepsSeal index) (trans_of (KeepsSeal index) opened (during.sealed index member))
      (view.keepsSeal_setAccess _ index ended)

theorem lasts_withHeld {act : List UInt8 → Act σ α}
    (kept : ∀ fewer ⊆ spared, (Frame.ofView view writable).Spares fewer →
      ∀ bytes, Keeps (Lasts fewer) (act bytes)) :
    Keeps (Lasts spared) (view.withHeld writable act) := by
  intro w
  simp only [withHeld]
  refine (keeps_ofExcept _).bind (fun _ w => ?_) w
  rcases view.borrowed_cases writable w with ⟨bytes, access, borrowed, enters, unsealed⟩ | ⟨_, refused, _⟩
  · rw [bind_of_returned borrowed]
    cases writable with
    | false =>
        refine view.lasts_whileHeld enters ?_
        exact ((view.keeps_packedBytes bytes).bind fun _ => kept spared (subset_refl _) trivial _) _
    | true =>
        have apart : view.buffer ∉ spared \ {view.buffer} := fun member => member.2 rfl
        refine Lasts.widen (view.lasts_whileHeld enters ?_) (unsealed rfl)
        exact ((view.keeps_packedBytes bytes).bind fun _ => kept _ Set.sdiff_subset apart _) _
  · rw [bind_of_failed refused]
    exact refl_of (Lasts spared) w

theorem lasts_writeBytes (apart : view.buffer ∉ spared) (start : Nat) (fresh : List UInt8) :
    Keeps (σ := σ) (Lasts spared) (view.writeBytes start fresh) := by
  refine keeps_modify fun w => ⟨fun _ => rfl, bufferAccess_setBuffer _ fun _ => rfl, ?_, ?_⟩
  · exact keepsRoom_setBuffer _ fun _ => overwrite_length _ _ _
  · intro index member bytes sealed
    have ne : index ≠ view.buffer := fun same => apart (same ▸ member)
    rwa [sealed?_setBuffer_of_ne ne]

theorem lasts_replaceElements (apart : view.buffer ∉ spared) (type : ElementType)
    {f : type.Carrier → Act σ (type.Carrier × α)} (kept : ∀ old, Keeps (Lasts spared) (f old))
    (indices : List (List Nat)) : Keeps (Lasts spared) (view.replaceElements type f indices) := by
  induction indices with
  | nil => exact keeps_pure _
  | cons index rest ih =>
      simp only [replaceElements]
      refine (view.keeps_elementNow type index).bind fun old => ?_
      refine (kept old.2).bind fun found => ?_
      refine (view.lasts_writeBytes apart _ _).bind fun _ => ?_
      exact ih.bind fun _ => keeps_pure _

theorem lasts_mapElements (type : ElementType) {f : type.Carrier → Act σ type.Carrier}
    (kept : ∀ old, Keeps (Lasts spared) (f old)) :
    Keeps (Lasts spared) (view.mapElements type f) := by
  simp only [mapElements, updateElements]
  refine Keeps.bind ?_ fun _ => keeps_pure _
  refine (keeps_ofExcept _).bind fun _ => ?_
  split
  · exact keeps_fail _
  · intro w
    rcases view.borrowed_cases true w with ⟨bytes, access, borrowed, enters, unsealed⟩ | ⟨_, refused, _⟩
    · have allowed : view.writable w = (.returned bytes, w) := borrowed
      have apart : view.buffer ∉ spared \ {view.buffer} := fun member => member.2 rfl
      rw [bind_of_returned allowed]
      refine trans_of (Lasts spared) ?_ (bind_after fun _ =>
        (quiet_log _).lasts.bind fun _ => keeps_pure _)
      refine Lasts.widen (view.lasts_whileHeld enters ?_) (unsealed rfl)
      refine view.lasts_replaceElements apart type (fun old => ?_) _ _
      refine ((kept old).mono fun _ _ lasts => lasts.narrow Set.sdiff_subset).bind fun _ => keeps_pure _
    · have denied : view.writable w = _ := refused
      rw [bind_of_failed denied]
      exact refl_of (Lasts spared) w

end ArrayView

/-- What this runner runs leaves everything as it was, with frames that let it write none of the buffers
in the set. -/
def Runner.Lasts (run : Runner σ) : Prop :=
  ∀ spared frames program, (∀ frame ∈ frames, frame.Spares spared) →
    Keeps (World.Lasts spared) (run frames program)

section Runner

variable {run : Runner σ} (kept : run.Lasts)

include kept

theorem NativeCall.lasts_enter (call : NativeCall σ) : Keeps (Lasts spared) (call.enter run) := by
  have concluded : ∀ frames program (conclusion : Conclusion), (∀ frame ∈ frames, frame.Spares spared) →
      Keeps (Lasts spared) (conclusion.conclude (run frames program)) :=
    fun frames program conclusion spares w =>
      trans_of (Lasts spared) (kept spared frames program spares w) (conclusion.logs_conclude _ w).quiet.lasts
  cases call with
  | function program conclusion => exact concluded _ _ _ (by simp)
  | member handle writable program conclusion =>
      refine handle.lasts_whileHeld writable fun state => ?_
      exact (keeps_ofExcept _).bind fun program => concluded _ _ _ (by simp [Frame.Spares])

variable [NativeState σ]

theorem Request.lasts_serve (request : Request σ (Program σ)) :
    Keeps (Lasts spared) (request.serve run) := by
  cases request with
  | log event => exact (quiet_log event).lasts.bind fun _ => keeps_pure _
  | print text => exact (quiet_print text).lasts.bind fun _ => keeps_pure _
  | create classId state =>
      refine Keeps.bind ?_ fun _ => keeps_pure _
      refine (keeps_read _).bind fun handle => ?_
      refine (quiet_log _).lasts.bind fun _ => ?_
      exact Keeps.bind (keeps_modify fun w => lasts_addCell rfl) fun _ => keeps_pure _
  | call f positional keywords =>
      exact (f.logs_prepare positional keywords).quiet.lasts.bind fun call => call.lasts_enter kept
  | invoke handle method positional keywords =>
      exact (handle.logs_prepareInvoke method positional keywords).quiet.lasts.bind fun call =>
        call.lasts_enter kept
  | getAttr handle name =>
      exact (handle.logs_prepareGet name).quiet.lasts.bind fun call => call.lasts_enter kept
  | setAttr handle name value =>
      exact (handle.logs_prepareSet name value).quiet.lasts.bind fun call => call.lasts_enter kept
  | retain handle =>
      refine Keeps.bind ?_ fun _ => keeps_pure _
      refine (handle.keeps_alive).bind fun cell => ?_
      exact keeps_modify fun w => lasts_setCell fun _ => rfl
  | release handle =>
      refine Keeps.bind ?_ fun _ => keeps_pure _
      refine (handle.keeps_alive).bind fun cell => ?_
      split
      · exact Keeps.bind (keeps_modify fun w => lasts_setCell fun _ => rfl) fun _ => keeps_pure _
      · refine (keeps_ofOption _ _).bind fun _ => ?_
        refine Keeps.bind (keeps_modify fun w => lasts_setCell fun _ => rfl) fun _ => ?_
        exact (quiet_log _).lasts.bind fun _ => keeps_pure _
  | defineMethod classId m =>
      exact (ClassDef.quiet_define classId m).lasts.bind fun _ => keeps_pure _
  | array request => exact (request.quiet_serve).lasts

namespace Program

theorem lasts_execute : (program : Program σ) → ∀ spared frames, (∀ frame ∈ frames, frame.Spares spared) →
    Keeps (Lasts spared) (execute run frames program)
  | .done result, spared, frames, spares => keeps_pure _
  | .panic payload, spared, frames, spares => keeps_panic _
  | .look level next, spared, frames, spares => by
      simp only [execute]
      exact (keeps_read _).bind fun content => lasts_execute (next content) spared frames spares
  | .put level content next, spared, frames, spares => by
      simp only [execute]
      refine Keeps.bind (keeps_modify fun w => ?_) fun _ => lasts_execute next spared frames spares
      cases found : frames[level]? with
      | none => exact refl_of (Lasts spared) w
      | some frame => exact Frame.lasts_store (spares frame (List.mem_of_getElem? found)) content w
  | .request asked next, spared, frames, spares => by
      simp only [execute]
      exact (asked.lasts_serve kept).attempt.bind fun reply =>
        lasts_execute (next reply) spared frames spares
  | .withInstance handle type body next, spared, frames, spares => by
      simp only [execute]
      refine Keeps.bind (Keeps.attempt ?_) fun reply => lasts_execute (next reply) spared frames spares
      refine handle.lasts_withInstance type (lasts_execute body spared _ ?_)
      exact List.forall_mem_cons.mpr ⟨trivial, spares⟩
  | .withBytes view writable body next, spared, frames, spares => by
      simp only [execute]
      refine Keeps.bind (Keeps.attempt ?_) fun reply => lasts_execute (next reply) spared frames spares
      refine view.lasts_withHeld fun fewer within own _ => lasts_execute body fewer _ ?_
      exact List.forall_mem_cons.mpr ⟨own, fun frame member => (spares frame member).narrow within⟩
  | .mapElements view type body next, spared, frames, spares => by
      simp only [execute]
      refine Keeps.bind (Keeps.attempt ?_) fun reply => lasts_execute (next reply) spared frames spares
      refine view.lasts_mapElements type fun old => ?_
      exact (lasts_execute (body old) spared frames spares).bind fun _ => keeps_pure _

end Program

end Runner

/-- However deep native code goes and however it ends, it leaves everything as it was. -/
theorem Program.lasts_run [NativeState σ] (stack : Nat) :
    Runner.Lasts (Program.run stack : Runner σ) := by
  induction stack with
  | zero => exact fun spared _ _ _ w => refl_of (Lasts spared) w
  | succ stack ih => exact fun spared frames program => lasts_execute ih program spared frames

/-- Buffers keep their sizes. -/
theorem Program.keepsRoom_run [NativeState σ] (stack : Nat) (frames : List Frame) (program : Program σ) :
    Keeps KeepsRoom (Program.run stack frames program) :=
  (lasts_run stack ∅ frames program fun frame _ => frame.spares_empty).mono fun _ _ lasts => lasts.room

end Marshal
