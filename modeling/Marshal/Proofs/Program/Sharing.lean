import Mathlib
import Marshal.Proofs.Program.Lasting
import Marshal.Proofs.World.Inside

namespace Marshal

open World
open Act hiding pure bind

variable {σ α β : Type}

namespace ArrayRequest

/-- The view whose memory a request uses, and whether it writes there. -/
def uses? : ArrayRequest → Option (ArrayView × Bool)
  | .copy view | .get view _ _ | .scalarAt view _ | .elements view _ | .scalars view | .nested view =>
    some (view, false)
  | .set view _ _ _ => some (view, true)
  | _ => none

/-- What a request checks before it turns to the memory. -/
def precheck : ArrayRequest → Act σ Unit
  | .get view type index | .set view type index _ => do
    Act.ofExcept (view.checkElement type)
    let _ ← view.offsetOf index
  | .scalarAt view index => do
    let _ ← view.offsetOf index
  | .elements view type => Act.ofExcept (view.checkElement type)
  | _ => pure ()

end ArrayRequest

section Refused

variable {view : ArrayView} {writable : Bool} {w : World σ} {e : Error} {request : ArrayRequest}

theorem Act.bind_of_refused {check : Act σ β} {next : β → Act σ α} (kept : Keeps Eq check)
    (refused : ∀ b, next b w = (.failed e, w)) : (check >>= next) w = (check >>= fun _ => fail e) w := by
  refine bind_apply_congr fun b after ended => ?_
  obtain rfl := kept.ended ended
  exact refused b

namespace ArrayRequest

theorem keeps_precheck {R : World σ → World σ → Prop} [IsPreorder (World σ) R] (request : ArrayRequest) :
    Keeps R request.precheck := by
  cases request with
  | get view type index =>
      exact (keeps_ofExcept _).bind fun _ => (view.keeps_offsetOf index).bind fun _ => keeps_pure _
  | set view type index element =>
      exact (keeps_ofExcept _).bind fun _ => (view.keeps_offsetOf index).bind fun _ => keeps_pure _
  | scalarAt view index => exact (view.keeps_offsetOf index).bind fun _ => keeps_pure _
  | elements view type => exact keeps_ofExcept _
  | _ => exact keeps_pure _

/-- A request that does not get to the memory fails for that reason, if nothing before stops it. -/
theorem serve_of_refused (uses : request.uses? = some (view, writable))
    (refused : view.borrowed writable w = (.failed e, w)) :
    request.serve w = (request.precheck >>= fun _ => Act.fail e) w := by
  cases request with
  | get view type index =>
      cases uses
      have unread : view.readable w = (.failed e, w) := refused
      simp only [serve, precheck, ArrayView.get, bind_assoc, pure_bind]
      cases view.checkElement type with
      | error e => rfl
      | ok _ => exact bind_of_refused (view.keeps_offsetOf index) fun _ => bind_of_failed unread
  | set view type index element =>
      cases uses
      have unwritten : view.writable w = (.failed e, w) := refused
      simp only [serve, precheck, ArrayView.set, bind_assoc, pure_bind]
      cases view.checkElement type with
      | error e => rfl
      | ok _ => exact bind_of_refused (view.keeps_offsetOf index) fun _ => bind_of_failed unwritten
  | scalarAt view index =>
      cases uses
      have unread : view.readable w = (.failed e, w) := refused
      simp only [serve, precheck, ArrayView.scalarAt, bind_assoc, pure_bind]
      exact bind_of_refused (view.keeps_offsetOf index) fun _ => bind_of_failed unread
  | elements view type =>
      cases uses
      have unread : view.readable w = (.failed e, w) := refused
      simp only [serve, precheck, ArrayView.elements, bind_assoc]
      exact bind_of_refused (keeps_ofExcept _) fun _ => bind_of_failed unread
  | copy view =>
      cases uses
      have unread : view.readable w = (.failed e, w) := refused
      simp only [serve, precheck, ArrayView.copy, bind_assoc, pure_bind, bind_of_failed unread, fail_apply]
  | scalars view =>
      cases uses
      have unread : view.readable w = (.failed e, w) := refused
      simp only [serve, precheck, ArrayView.scalars, bind_assoc, pure_bind, bind_of_failed unread, fail_apply]
  | nested view =>
      cases uses
      have unread : view.readable w = (.failed e, w) := refused
      simp only [serve, precheck, ArrayView.nested, pure_bind, bind_of_failed unread, fail_apply]
  | _ => cases uses

/-- On a view inside its buffer nothing that is checked first panics. -/
theorem precheck_of_inside (inside : view.Inside w) (uses : request.uses? = some (view, writable)) :
    (request.precheck : Act σ Unit) = pure () ∨ ∃ e, (request.precheck : Act σ Unit) = Act.fail e := by
  have located : ∀ index, (view.offsetOf index >>= fun _ => pure () : Act σ Unit) = pure () ∨
      ∃ e, (view.offsetOf index >>= fun _ => pure () : Act σ Unit) = Act.fail e := by
    intro index
    rcases inside.offsetOf index with ⟨e, outside⟩ | ⟨_, offset, found, _⟩
    · exact .inr ⟨e, by rw [outside, fail_bind]⟩
    · exact .inl (by rw [found, pure_bind])
  cases request with
  | get view type index =>
      cases uses
      simp only [precheck]
      cases view.checkElement type with
      | error e => exact .inr ⟨e, rfl⟩
      | ok _ => exact located index
  | set view type index element =>
      cases uses
      simp only [precheck]
      cases view.checkElement type with
      | error e => exact .inr ⟨e, rfl⟩
      | ok _ => exact located index
  | scalarAt view index =>
      cases uses
      exact located index
  | elements view type =>
      simp only [precheck]
      cases view.checkElement type with
      | error e => exact .inr ⟨e, rfl⟩
      | ok _ => exact .inl rfl
  | _ => exact .inl rfl

end ArrayRequest

/-- Nothing gets to the memory of a view to use it like this.  What tries to fails with the error, if it
gets past its other checks, and changes nothing; what it would have run on the memory is not run. -/
structure ArrayView.Denies (view : ArrayView) (writable : Bool) (e : Error) (w : World σ) : Prop where
  request : ∀ request : ArrayRequest, request.uses? = some (view, writable) →
    request.serve w = (request.precheck >>= fun _ => Act.fail e) w ∧ (request.serve w).2 = w ∧
      (view.Inside w → ∃ e, request.serve w = (.failed e, w))
  withHeld : view.entered? writable w = none ∧ ∀ {α : Type} (act : List UInt8 → Act σ α),
    view.withHeld writable act w = (Act.ofExcept view.requireContiguous >>= fun _ => Act.fail e) w
  mapElements : writable = true → ∀ type, view.replacing? type w = none ∧
    ∀ f : type.Carrier → Act σ type.Carrier, view.mapElements type f w =
      (Act.ofExcept (view.checkElement type) >>= fun _ =>
        if view.layout.hasOverlap then
          Act.fail (.bufferLayout "cannot mutate an array whose elements overlap")
        else Act.fail e) w

theorem ArrayView.denies_of_refused (refused : view.borrowed writable w = (.failed e, w)) :
    view.Denies writable e w where
  request request uses := by
    have served := ArrayRequest.serve_of_refused uses refused
    refine ⟨served, ?_, fun inside => ?_⟩
    · rw [served]
      exact (((request.keeps_precheck (R := Eq)).bind fun _ => keeps_fail e) w).symm
    · rw [served]
      rcases ArrayRequest.precheck_of_inside inside uses with passed | ⟨other, stopped⟩
      · exact ⟨e, by rw [passed, pure_bind, fail_apply]⟩
      · exact ⟨other, by rw [stopped, fail_bind, fail_apply]⟩
  withHeld := by
    refine ⟨?_, fun act => ?_⟩
    · simp only [entered?, refused]
      cases view.requireContiguous <;> rfl
    · simp only [ArrayView.withHeld]
      exact bind_of_refused (keeps_ofExcept _) fun _ => bind_of_failed refused
  mapElements writes type := by
    subst writes
    have unwritten : view.writable w = (.failed e, w) := refused
    refine ⟨?_, fun f => ?_⟩
    · simp only [replacing?, unwritten]
      cases view.checkElement type <;> cases view.layout.hasOverlap <;> rfl
    · simp only [ArrayView.mapElements, updateElements, bind_assoc]
      cases view.checkElement type with
      | error e => rfl
      | ok _ =>
          simp only [ofExcept_ok, pure_bind]
          split
          · rfl
          · simp only [bind_assoc, bind_of_failed unwritten, fail_apply]

end Refused

/-- The world with nobody using a buffer. -/
def World.unused (w : World σ) : World σ :=
  { w with buffers := w.buffers.map fun buffer => { buffer with access := .idle } }

/-- The worlds differ in nothing but who reads which buffer. -/
structure World.Alike (w other : World σ) : Prop where
  same : w.unused = other.unused
  written : ∀ index, w.bufferAccess index = .exclusive ↔ other.bufferAccess index = .exclusive

namespace World.Alike

variable {w other : World σ}

theorem buffers (alike : w.Alike other) :
    w.buffers.map (fun buffer => { buffer with access := .idle }) =
      other.buffers.map (fun buffer => { buffer with access := .idle }) :=
  congrArg World.buffers alike.same

theorem arrayCount (alike : w.Alike other) : w.arrayCount = other.arrayCount := by
  have same : w.unused.arrayCount = other.unused.arrayCount := by rw [alike.same]
  exact same

theorem log (alike : w.Alike other) (event : Event) :
    World.Alike { w with journal := event :: w.journal }
      { other with journal := event :: other.journal } where
  same := by
    have same := alike.same
    simp only [unused, World.mk.injEq] at same ⊢
    obtain ⟨cells, buffers, classes, count, printed, journal, kept⟩ := same
    exact ⟨cells, buffers, classes, count, printed, by rw [journal], kept⟩
  written := alike.written

theorem length (alike : w.Alike other) : w.buffers.length = other.buffers.length := by
  simpa using congrArg List.length alike.buffers

theorem buffer? (alike : w.Alike other) (index : Nat) :
    (w.buffers[index]? = none ∧ other.buffers[index]? = none) ∨
      ∃ buffer twin, w.buffers[index]? = some buffer ∧ other.buffers[index]? = some twin ∧
        buffer.bytes = twin.bytes ∧ (buffer.access = .exclusive ↔ twin.access = .exclusive) := by
  have at_index := congrArg (fun buffers => buffers[index]?) alike.buffers
  have written := alike.written index
  simp only [List.getElem?_map] at at_index
  simp only [bufferAccess] at written
  cases found : w.buffers[index]? with
  | none =>
      rw [found] at at_index
      cases paired : other.buffers[index]? with
      | none => exact .inl ⟨rfl, rfl⟩
      | some twin =>
          rw [paired] at at_index
          cases at_index
  | some buffer =>
      rw [found] at at_index written
      cases paired : other.buffers[index]? with
      | none =>
          rw [paired] at at_index
          cases at_index
      | some twin =>
          rw [paired] at at_index written
          simp only [Option.map_some, Option.some.injEq, Buffer.mk.injEq] at at_index
          exact .inr ⟨buffer, twin, rfl, rfl, at_index.1, written⟩

theorem addBuffer (alike : w.Alike other) (buffer : Buffer) :
    World.Alike { w with arrayCount := w.arrayCount + 1, buffers := w.buffers ++ [buffer] }
      { other with arrayCount := other.arrayCount + 1, buffers := other.buffers ++ [buffer] } where
  same := by
    have same := alike.same
    simp only [unused, World.mk.injEq, List.map_append] at same ⊢
    obtain ⟨cells, buffers, classes, count, printed, journal, kept⟩ := same
    exact ⟨cells, by rw [buffers], classes, by rw [count], printed, journal, kept⟩
  written index := by
    have written := alike.written index
    simp only [bufferAccess, List.getElem?_append, alike.length] at written ⊢
    split
    · exact written
    · rfl

theorem unused_setAccess (view : ArrayView) (f : Access → Access) (w : World σ) :
    (view.setAccess f w).unused = w.unused := by
  simp only [unused, ArrayView.setAccess, setBuffer]
  congr 1
  refine List.ext_getElem? fun index => ?_
  simp only [List.getElem?_map, List.getElem?_modify]
  split <;> cases w.buffers[index]? <;> rfl

theorem setAccess (alike : w.Alike other) (view : ArrayView) {f : Access → Access}
    (same : ∀ access, f access = .exclusive ↔ access = .exclusive) :
    (view.setAccess f w).Alike (view.setAccess f other) where
  same := by rw [unused_setAccess, unused_setAccess, alike.same]
  written index := by
    have kept : ∀ w : World σ,
        (view.setAccess f w).bufferAccess index = .exclusive ↔ w.bufferAccess index = .exclusive := by
      intro w
      simp only [bufferAccess, ArrayView.setAccess, setBuffer, List.getElem?_modify]
      split <;> cases w.buffers[index]? <;> simp [same]
    rw [kept, kept, alike.written]

end World.Alike

/-- The action does the same whoever reads which buffer. -/
def Act.Blind (act : Act σ α) : Prop :=
  ∀ w other, w.Alike other → (act w).1 = (act other).1 ∧ (act w).2.Alike (act other).2

section Blind

theorem blind_pure (a : α) : Blind (pure a : Act σ α) := fun _ _ alike => ⟨rfl, alike⟩

theorem blind_fail (e : Error) : Blind (fail e : Act σ α) := fun _ _ alike => ⟨rfl, alike⟩

theorem blind_panic (p : Payload) : Blind (panic p : Act σ α) := fun _ _ alike => ⟨rfl, alike⟩

theorem blind_read {f : World σ → α} (same : ∀ w other, w.Alike other → f w = f other) :
    Blind (read f) :=
  fun w other alike => ⟨congrArg Outcome.returned (same w other alike), alike⟩

theorem blind_modify {f : World σ → World σ} (kept : ∀ w other, w.Alike other → (f w).Alike (f other)) :
    Blind (modify f) :=
  fun w other alike => ⟨rfl, kept w other alike⟩

theorem blind_log (event : Event) : Blind (log event : Act σ Unit) :=
  blind_modify fun _ _ alike => alike.log event

theorem blind_ofExcept (result : Except Error α) : Blind (ofExcept result : Act σ α) := by
  cases result with
  | ok a => exact blind_pure a
  | error e => exact blind_fail e

theorem blind_ofOption (e : Error) (found : Option α) : Blind (ofOption e found : Act σ α) := by
  cases found with
  | some a => exact blind_pure a
  | none => exact blind_fail e

theorem blind_ofAddress (address : Except AddressFault α) : Blind (ofAddress address : Act σ α) := by
  rcases address with (e | _) | a
  · exact blind_fail e
  · exact blind_panic _
  · exact blind_pure a

theorem Act.Blind.bind {act : Act σ α} {next : α → Act σ β} (first : act.Blind)
    (rest : ∀ a, (next a).Blind) : (act >>= next).Blind := by
  intro w other alike
  obtain ⟨same, after⟩ := first w other alike
  rcases ended : act w with ⟨outcome, here⟩
  rcases paired : act other with ⟨twin, there⟩
  rw [ended, paired] at same after
  obtain rfl : outcome = twin := same
  cases outcome with
  | returned a =>
      rw [bind_of_returned ended, bind_of_returned paired]
      exact rest a here there after
  | failed e =>
      rw [bind_of_failed ended, bind_of_failed paired]
      exact ⟨rfl, after⟩
  | panicked p =>
      rw [bind_of_panicked ended, bind_of_panicked paired]
      exact ⟨rfl, after⟩
  | exhausted =>
      rw [bind_of_exhausted ended, bind_of_exhausted paired]
      exact ⟨rfl, after⟩

theorem blind_mapM {f : α → Act σ β} (blind : ∀ item, (f item).Blind) (items : List α) :
    Blind (items.mapM f) := by
  induction items with
  | nil => exact blind_pure []
  | cons item rest ih =>
      rw [List.mapM_cons]
      exact (blind item).bind fun _ => ih.bind fun _ => blind_pure _

theorem blind_allocate (count : Nat) : Blind (allocate count : Act σ Unit) := by
  simp only [allocate]
  split
  · exact blind_panic _
  · exact blind_pure _

theorem blind_bytesBetween (bytes : List UInt8) (start stop : Nat) :
    Blind (bytesBetween bytes start stop : Act σ (List UInt8)) := by
  simp only [bytesBetween]
  split
  · exact blind_panic _
  · split
    · exact blind_panic _
    · exact blind_pure _

namespace ArrayView

variable (view : ArrayView)

theorem blind_readable : Blind (view.readable : Act σ (List UInt8)) := by
  intro w other alike
  have unchanged := fun w : World σ => view.keeps_readable (R := Eq) w
  refine ⟨?_, by rwa [← unchanged w, ← unchanged other]⟩
  simp only [readable, memory, read_bind_apply, World.buffer?]
  rcases alike.buffer? view.buffer with ⟨found, paired⟩ | ⟨buffer, twin, found, paired, bytes, written⟩
  · rw [found, paired]
    rfl
  · rw [found, paired]
    simp only [Option.getD_some, bytes]
    by_cases writing : buffer.access = .exclusive
    · rw [writing, written.mp writing]
      rfl
    · obtain ⟨_, shared⟩ := Access.share?_of_unwritten writing
      obtain ⟨_, paired⟩ := Access.share?_of_unwritten (mt written.mpr writing)
      rw [shared, paired]
      rfl

theorem blind_offsetOf (index : List Nat) : Blind (view.offsetOf index : Act σ Nat) := by
  simp only [offsetOf]
  exact (blind_ofAddress _).bind fun _ => blind_ofOption _ _

theorem blind_elementBytes (bytes : List UInt8) (index : List Nat) :
    Blind (view.elementBytes bytes index : Act σ (List UInt8)) := by
  simp only [elementBytes, elementAt]
  exact (blind_ofAddress _).bind fun _ => blind_bytesBetween _ _ _

theorem blind_scalarIn (bytes : List UInt8) (index : List Nat) :
    Blind (view.scalarIn bytes index : Act σ Scalar) := by
  simp only [scalarIn]
  exact (view.blind_elementBytes bytes index).bind fun _ => blind_ofOption _ _

theorem blind_nestFrom (bytes : List UInt8) (shape index : List Nat) :
    Blind (view.nestFrom bytes shape index : Act σ Value) := by
  induction shape generalizing index with
  | nil => exact (view.blind_scalarIn bytes index).bind fun _ => blind_pure _
  | cons dim shape ih =>
      refine (blind_allocate _).bind fun _ => ?_
      exact (blind_mapM (fun i => ih (index ++ [i])) _).bind fun _ => blind_pure _

theorem blind_make (layout : Layout) (buffer : Buffer) (ownership : Ownership) :
    Blind (make layout buffer ownership : Act σ ArrayView) := by
  simp only [make]
  refine Act.Blind.bind (blind_read fun w other alike => ?_) fun view => ?_
  · rw [alike.arrayCount, alike.length]
  · refine Act.Blind.bind (blind_modify fun w other alike => alike.addBuffer buffer) fun _ => ?_
    exact (blind_log _).bind fun _ => blind_pure _

theorem blind_copy : Blind (view.copy : Act σ ArrayView) := by
  simp only [copy]
  refine Act.Blind.bind (view.blind_readable) fun bytes => ?_
  refine Act.Blind.bind (blind_ofOption _ _) fun nbytes => ?_
  refine Act.Blind.bind (blind_allocate nbytes) fun _ => ?_
  exact (blind_mapM (view.blind_elementBytes bytes) _).bind fun _ => blind_make _ _ _

theorem blind_packedBytes (bytes : List UInt8) : Blind (view.packedBytes bytes : Act σ (List UInt8)) := by
  simp only [packedBytes]
  exact (blind_ofAddress _).bind fun _ => blind_bytesBetween _ _ _

/-- Holding the bytes of a view for reading leaves room for others who do. -/
theorem blind_withHeld {act : List UInt8 → Act σ α} (blind : ∀ bytes, (act bytes).Blind) :
    Blind (view.withHeld false act) := by
  simp only [withHeld]
  refine (blind_ofExcept _).bind fun _ => ?_
  refine Act.Blind.bind (view.blind_readable) fun bytes => ?_
  intro w other alike
  have entered : ∀ access : Access,
      (access.enter? false).getD access = .exclusive ↔ access = .exclusive := by
    intro access
    cases access <;> simp [Access.enter?, Access.share?]
  have left : ∀ access : Access, access.leave false = .exclusive ↔ access = .exclusive := by
    intro access
    rcases access with _ | (_ | _) | _ <;> simp [Access.leave, Access.unshare]
  have during := (view.blind_packedBytes bytes).bind blind
  obtain ⟨same, after⟩ := during _ _ (alike.setAccess view entered)
  exact ⟨same, after.setAccess view left⟩

theorem blind_scalarAt (index : List Nat) : Blind (view.scalarAt index : Act σ Scalar) := by
  simp only [scalarAt]
  refine Act.Blind.bind (view.blind_offsetOf index) fun _ => ?_
  exact Act.Blind.bind (view.blind_readable) fun bytes => view.blind_scalarIn bytes index

theorem blind_get (type : ElementType) (index : List Nat) :
    Blind (view.get type index : Act σ type.Carrier) := by
  simp only [get, elementAt]
  refine Act.Blind.bind (blind_ofExcept _) fun _ => ?_
  refine Act.Blind.bind (view.blind_offsetOf index) fun offset => ?_
  refine Act.Blind.bind (view.blind_readable) fun bytes => ?_
  exact (blind_bytesBetween _ _ _).bind fun _ => blind_pure _

theorem blind_elements (type : ElementType) :
    Blind (view.elements type : Act σ (List type.Carrier)) := by
  simp only [elements]
  refine Act.Blind.bind (blind_ofExcept _) fun _ => ?_
  refine Act.Blind.bind (view.blind_readable) fun bytes => ?_
  exact blind_mapM (fun index => (view.blind_elementBytes bytes index).bind fun _ => blind_pure _) _

theorem blind_scalars : Blind (view.scalars : Act σ (List Scalar)) := by
  simp only [scalars]
  exact Act.Blind.bind (view.blind_readable) fun bytes => blind_mapM (view.blind_scalarIn bytes) _

end ArrayView

theorem ArrayRequest.blind_serve {view : ArrayView} {request : ArrayRequest}
    (uses : request.uses? = some (view, false)) : Blind (request.serve : Act σ Value) := by
  cases request with
  | copy view => exact (view.blind_copy).bind fun _ => blind_pure _
  | get view type index => exact (view.blind_get type index).bind fun _ => blind_pure _
  | scalarAt view index => exact (view.blind_scalarAt index).bind fun _ => blind_pure _
  | elements view type => exact (view.blind_elements type).bind fun _ => blind_pure _
  | scalars view => exact (view.blind_scalars).bind fun _ => blind_pure _
  | nested view =>
      exact Act.Blind.bind (view.blind_readable) fun bytes => view.blind_nestFrom bytes _ _
  | _ => cases uses

end Blind

/-- The world as it would be with nobody using the buffer of a view. -/
def ArrayView.outside (view : ArrayView) (w : World σ) : World σ := view.setAccess (fun _ => .idle) w

theorem ArrayView.alike_outside (view : ArrayView) {w : World σ}
    (unwritten : w.bufferAccess view.buffer ≠ .exclusive) : w.Alike (view.outside w) where
  same := by rw [outside, Alike.unused_setAccess]
  written index := by
    rw [outside, view.bufferAccess_setAccess (.inl rfl)]
    by_cases same : index = view.buffer
    · subst same
      simp [unwritten]
    · rw [Function.update_of_ne same]

end Marshal
