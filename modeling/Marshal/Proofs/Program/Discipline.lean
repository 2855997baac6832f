import Mathlib
import Marshal.Proofs.Program.Exclusion
import Marshal.Proofs.Program.Holding
import Marshal.Proofs.Program.Invariant
import Marshal.Proofs.Program.Sharing
import Marshal.Proofs.World.Fresh

namespace Marshal

open World
open Act hiding pure bind

variable {σ α : Type}

theorem Handle.buffers_entered {handle : Handle} {writable : Bool} {w held : World σ} {state : σ}
    (entered : handle.entered? writable w = some (state, held)) : held.buffers = w.buffers := by
  obtain ⟨f, rfl⟩ := handle.held_of_entered entered
  rfl

/-- The buffer is there, and those who hold it are those who use it. -/
def World.Accounts (index : Nat) (w : World σ) (holds : List Hold) : Prop :=
  (w.room? index).isSome ∧ (w.bufferAccess index).users = Hold.users (.buffer index) holds

theorem World.accounts_invariant (index : Nat) :
    Moment.Invariant ∅ (World.Accounts index : World σ → List Hold → Prop) where
  lasts := by
    rintro w after holds ⟨there, used⟩ lasts
    obtain ⟨room, known⟩ := Option.isSome_iff_exists.mp there
    exact ⟨by rw [lasts.room index room known]; rfl, by rw [lasts.bufferAccess, used]⟩
  enters := by
    rintro handle writable w state held holds ⟨there, used⟩ entered
    have opened : held.buffers = w.buffers := Handle.buffers_entered entered
    have other : Hold.users (.buffer index) (⟨.cell handle.slot, writable⟩ :: holds) =
        Hold.users (.buffer index) holds := Hold.users_cons_of_ne (by simp)
    refine ⟨by simpa only [room?, opened] using there, ?_⟩
    rw [other]
    simpa only [bufferAccess, opened] using used
  borrows := by
    rintro view writable w bytes holds ⟨there, used⟩ borrowed
    refine ⟨fun _ => Set.notMem_empty _, ?_, ?_⟩
    · obtain ⟨room, known⟩ := Option.isSome_iff_exists.mp there
      have still : (view.held writable w).room? index = some room :=
        view.keepsRoom_setAccess _ w index room known
      rw [still]
      rfl
    · by_cases same : index = view.buffer
      · subst same
        rcases view.borrowed_cases writable w with ⟨_, access, _, enters, _⟩ | ⟨_, refused, _⟩
        · have present : view.buffer < w.buffers.length := by
            obtain ⟨room, known⟩ := Option.isSome_iff_exists.mp there
            obtain ⟨buffer, found, _⟩ := Option.map_eq_some_iff.mp known
            exact (List.getElem?_eq_some_iff.mp found).1
          rw [view.bufferAccess_held present enters, Function.update_self, Access.users_enter? enters,
            Hold.users_cons_self, used]
        · cases refused.symm.trans borrowed
      · have elsewhere : (view.held writable w).bufferAccess index = w.bufferAccess index :=
          view.bufferAccess_setAccess_of_ne same _
        have other : Hold.users (.buffer index) (⟨.buffer view.buffer, writable⟩ :: holds) =
            Hold.users (.buffer index) holds := Hold.users_cons_of_ne (by simpa using Ne.symm same)
        rw [elsewhere, other, used]

/-- The buffer is read-only with these bytes, and nobody holds it for writing. -/
def World.Guards (index : Nat) (bytes : List UInt8) (w : World σ) (holds : List Hold) : Prop :=
  w.sealed? index = some bytes ∧ true ∉ Hold.users (.buffer index) holds

theorem World.guards_invariant (index : Nat) (bytes : List UInt8) :
    Moment.Invariant {index} (World.Guards index bytes : World σ → List Hold → Prop) where
  lasts := by
    rintro w after holds ⟨sealed, unwritten⟩ lasts
    exact ⟨lasts.sealed index rfl bytes sealed, unwritten⟩
  enters := by
    rintro handle writable w state held holds ⟨sealed, unwritten⟩ entered
    have opened : held.buffers = w.buffers := Handle.buffers_entered entered
    refine ⟨by simpa only [sealed?, opened] using sealed, ?_⟩
    rwa [Hold.users_cons_of_ne (by simp)]
  borrows := by
    rintro view writable w found holds ⟨sealed, unwritten⟩ borrowed
    have apart : writable = true → view.buffer ≠ index := by
      rintro rfl rfl
      cases sealed.symm.trans (view.unsealed_of_writable borrowed)
    refine ⟨apart, view.keepsSeal_setAccess _ index w bytes sealed, ?_⟩
    by_cases same : view.buffer = index
    · subst same
      cases writable with
      | true => exact absurd rfl (apart rfl)
      | false =>
          rw [Hold.users_cons_self]
          simpa using unwritten
    · rwa [Hold.users_cons_of_ne (by simpa using same)]

/-- How the memory of a view can be used at a moment, by those who hold it. -/
structure ArrayView.Disciplined (view : ArrayView) (m : Moment σ) : Prop where
  /-- Whoever may write the buffer is alone with it. -/
  alone : true ∈ Hold.users (.buffer view.buffer) m.holds →
    Hold.users (.buffer view.buffer) m.holds = [true]
  denied : ∀ writable, ¬ Access.Admits (Hold.users (.buffer view.buffer) m.holds) writable →
    ∃ reason, view.Denies writable (.borrowedMutation reason) m.world
  /-- While nobody writes, whatever reads gives what it would give if nobody used the buffer. -/
  alike : true ∉ Hold.users (.buffer view.buffer) m.holds →
    (∀ request : ArrayRequest, request.uses? = some (view, false) →
      (request.serve m.world).1 = (request.serve (view.outside m.world)).1) ∧
    ∀ {α : Type} (act : List UInt8 → Act σ α), (∀ bytes, (act bytes).Blind) →
      (view.withHeld false act m.world).1 = (view.withHeld false act (view.outside m.world)).1
  /-- Whoever the users leave room for gets to the memory, to write it if it is not read-only. -/
  admitted : ∀ writable, Access.Admits (Hold.users (.buffer view.buffer) m.holds) writable →
    (writable = true → m.world.sealed? view.buffer = none) →
      ∃ bytes, view.borrowed writable m.world = (.returned bytes, m.world)

theorem ArrayView.disciplined_of_accounts {view : ArrayView} {m : Moment σ}
    (accounts : m.world.Accounts view.buffer m.holds) : view.Disciplined m where
  alone writer := by
    rw [← accounts.2] at writer ⊢
    exact Access.users_alone writer
  denied writable excluded := by
    rw [← accounts.2, ← Access.enter?_isSome] at excluded
    rcases view.borrowed_cases writable m.world with ⟨_, access, _, enters, _⟩ | ⟨reason, refused, _⟩
    · rw [enters] at excluded
      exact absurd rfl excluded
    · exact ⟨reason, ArrayView.denies_of_refused refused⟩
  alike unwritten := by
    have free : m.world.bufferAccess view.buffer ≠ .exclusive := by
      intro writing
      rw [← accounts.2, writing] at unwritten
      exact unwritten (.head _)
    have same := view.alike_outside free
    refine ⟨fun request uses => ?_, fun act blind => ?_⟩
    · exact (ArrayRequest.blind_serve uses _ _ same).1
    · exact (view.blind_withHeld blind _ _ same).1
  admitted writable admits unsealed := by
    rw [← accounts.2, ← Access.enter?_isSome] at admits
    rcases view.borrowed_cases writable m.world with ⟨bytes, _, borrowed, _⟩ | ⟨_, _, taken | fixed⟩
    · exact ⟨bytes, borrowed⟩
    · rw [taken] at admits
      cases admits
    · exact absurd (unsealed fixed.1) fixed.2

/-- A copy has a buffer of its own, which can be written. -/
theorem ArrayView.borrowed_of_copy {view fresh : ArrayView} {w after : World σ}
    (copied : view.copy w = (.returned fresh, after)) :
    w.room? fresh.buffer = none ∧ ∃ bytes, fresh.borrowed true after = (.returned bytes, after) := by
  obtain ⟨data, _, made⟩ := ArrayView.make_of_copy copied
  obtain ⟨_, place, buffers⟩ := ArrayView.buffer_of_make made
  have found : after.buffers[fresh.buffer]? = some (ownedBuffer data) := by
    rw [buffers, place, List.getElem?_concat_length]
  refine ⟨by simp [room?, place], ?_⟩
  rcases fresh.borrowed_cases true after with ⟨bytes, _, borrowed, _⟩ | ⟨_, _, taken | ⟨_, fixed⟩⟩
  · exact ⟨bytes, borrowed⟩
  · simp [bufferAccess, found, ownedBuffer, Access.enter?, Access.seize?] at taken
  · simp [sealed?, found, ownedBuffer] at fixed

/-- Memory that is wrapped read-only gets a buffer that is read-only and that nobody uses. -/
theorem ArrayView.guards_of_borrow {data : List UInt8} {layout : Layout} {keeper : Keeper}
    {view : ArrayView} {w after : World σ}
    (wrapped : ArrayView.borrow data layout true keeper w = (.returned view, after)) :
    after.Accounts view.buffer [] ∧ after.Guards view.buffer data [] := by
  simp only [ArrayView.borrow] at wrapped
  obtain ⟨_, _, _, validated⟩ := returned_of_bind wrapped
  obtain ⟨_, _, _, made⟩ := returned_of_bind validated
  obtain ⟨_, place, buffers⟩ := ArrayView.buffer_of_make made
  have found : after.buffers[view.buffer]? =
      some { bytes := data, isReadonly := true, keeper? := some keeper, access := .idle } := by
    rw [buffers, place, List.getElem?_concat_length]
  refine ⟨⟨?_, ?_⟩, ?_, ?_⟩
  · simp [room?, found]
  · simp [bufferAccess, found, Access.users, Hold.users]
  · simp [sealed?, found]
  · simp [Hold.users]

section Discipline

variable [NativeState σ]

/-- At every moment of a run the holders of a buffer decide what gets to its memory, and after the run it
is used as before.  What a read-only buffer holds never changes, and nothing gets to write it, but what
is copied from it can be written.  Memory that is wrapped read-only has such a buffer. -/
theorem buffer_discipline (stack : Nat) (holds : List Hold) (frames : List Frame) (program : Program σ)
    (w : World σ) (index : Nat) (accounts : w.Accounts index holds) :
    (∀ m ∈ Program.moments stack holds frames program w, ∀ view : ArrayView, view.buffer = index →
      view.Disciplined m) ∧
    (Program.run stack frames program w).2.bufferAccess = w.bufferAccess ∧
    (∀ bytes, w.Guards index bytes holds → (∀ frame ∈ frames, frame.Spares {index}) →
      (Program.run stack frames program w).2.sealed? index = some bytes ∧
      ∀ m ∈ Program.moments stack holds frames program w, m.world.sealed? index = some bytes ∧
        ∀ view : ArrayView, view.buffer = index →
          (∃ reason, view.Denies true (.borrowedMutation reason) m.world) ∧
          ∀ fresh after, view.copy m.world = (.returned fresh, after) →
            m.world.room? fresh.buffer = none ∧ after.sealed? index = some bytes ∧
              ∃ found, fresh.borrowed true after = (.returned found, after)) ∧
    ∀ data layout keeper (view : ArrayView) (before wrapped : World σ),
      ArrayView.borrow data layout true keeper before = (.returned view, wrapped) →
        wrapped.Accounts view.buffer [] ∧ wrapped.Guards view.buffer data [] := by
  refine ⟨fun m member view same => ?_, ?_, fun bytes guards spares => ⟨?_, fun m member => ?_⟩,
    fun _ _ _ _ _ _ wrapped => ArrayView.guards_of_borrow wrapped⟩
  · subst same
    refine ArrayView.disciplined_of_accounts ?_
    exact (accounts_invariant view.buffer).moments stack holds frames program w
      (fun frame _ => frame.spares_empty) accounts m member
  · exact (Program.lasts_run stack ∅ frames program (fun frame _ => frame.spares_empty) w).bufferAccess
  · exact (Program.lasts_run stack {index} frames program spares w).sealed index rfl bytes guards.1
  · obtain ⟨sealed, _⟩ :=
      (guards_invariant index bytes).moments stack holds frames program w spares guards m member
    refine ⟨sealed, fun view same => ⟨?_, fun fresh after copied => ?_⟩⟩
    · subst same
      rcases view.borrowed_cases true m.world with ⟨_, _, _, _, unsealed⟩ | ⟨reason, refused, _⟩
      · cases sealed.symm.trans (unsealed rfl)
      · exact ⟨reason, ArrayView.denies_of_refused refused⟩
    · obtain ⟨new, written⟩ := ArrayView.borrowed_of_copy copied
      exact ⟨new, (view.quiet_copy.ended copied).sealed index bytes sealed, written⟩

end Discipline

/-- A view without bytes, all of whose elements but the first lie where no address is a size. -/
def unaddressable : ArrayView :=
  { id := 1
    layout := { shape := [Size.max], strides := [1], dtype := .number (.int .u8), order := .fortran,
                offset := Size.max }
    buffer := 0
    ownership := .view
    base? := none }

/-- Holds the empty buffer for writing and reads from it through another view. -/
def readWhileHeld : Program Sample.State :=
  .withBytes { unaddressable with layout := Layout.cContiguous [0] (.number (.int .u8)) } true
    (.request (.array (.get unaddressable (.int .u8) [1])) fun _ => .done (.ok .none)) fun _ =>
      .done (.ok .none)

theorem buffer_discipline_readWhileHeld :
    ∃ (w : World Sample.State) (m : Moment Sample.State),
      m ∈ Program.moments 1 [] [] readWhileHeld w ∧ Hold.users (.buffer 0) m.holds = [true] ∧
        unaddressable.Disciplined m ∧
        (ArrayRequest.get unaddressable (.int .u8) [1]).serve m.world =
          (.panicked (.text "attempt to add with overflow"), m.world) := by
  let w : World Sample.State := { buffers := [ArrayView.ownedBuffer []] }
  have accounts : w.Accounts 0 [] := ⟨rfl, rfl⟩
  have inside : ∃ m ∈ Program.moments 1 [] [] readWhileHeld w, Hold.users (.buffer 0) m.holds = [true] ∧
      (ArrayRequest.get unaddressable (.int .u8) [1]).serve m.world =
        (.panicked (.text "attempt to add with overflow"), m.world) :=
    ⟨_, .tail _ (.head _), rfl, rfl⟩
  obtain ⟨m, member, users, panicked⟩ := inside
  refine ⟨w, m, member, users, ?_, panicked⟩
  exact (buffer_discipline 1 [] [] readWhileHeld w 0 accounts).1 m member unaddressable rfl

end Marshal
