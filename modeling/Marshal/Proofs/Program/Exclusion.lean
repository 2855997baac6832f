import Mathlib
import Marshal.Proofs.Program.Lasting
import Marshal.Proofs.Program.Lifecycle

namespace Marshal

open World
open Act hiding pure bind

variable {σ α : Type}

namespace Access

/-- Whether these users leave room for one more, who writes or only reads. -/
def Admits (users : List Bool) (writable : Bool) : Prop :=
  if writable then users = [] else true ∉ users

variable {access : Access} {writable : Bool}

theorem users_alone (writer : true ∈ access.users) : access.users = [true] := by
  cases access with
  | idle => cases writer
  | shared others =>
      have reader := List.eq_of_mem_replicate writer
      cases reader
  | exclusive => rfl

theorem enter?_isSome : (access.enter? writable).isSome ↔ Admits access.users writable := by
  cases writable with
  | true => cases access <;> simp [enter?, seize?, Admits, users]
  | false => cases access <;> simp [enter?, share?, Admits, users]

end Access

/-- The instance that a request turns to, and whether it may change it. -/
def Request.seeks? : Request σ (Program σ) → Option (Handle × Bool)
  | .invoke handle _ _ _ | .setAttr handle _ _ => some (handle, true)
  | .getAttr handle _ => some (handle, false)
  | _ => none

namespace Handle

variable {handle : Handle} {writable : Bool} {w after : World σ} {call : NativeCall σ}

theorem borrowed_of_busy (live : 0 < (handle.life w).references)
    (taken : (handle.life w).access.enter? writable = none) :
    handle.borrowed writable w = (.failed handle.busy, w) := by
  rcases handle.alive_cases (w := w) with ⟨cell, found, _, lives⟩ | ⟨gone, _⟩
  · have enters : cell.access.enter? writable = none := by rwa [life, life_of_cell? found] at taken
    simp only [borrowed, bind_of_returned lives, enters, ofOption_none, fail_bind, fail_apply]
  · exact absurd gone (Nat.ne_of_gt live)

theorem entered_of_admitted {access : Access} (there : w.hasInstance handle = true)
    (live : 0 < (handle.life w).references)
    (enters : (handle.life w).access.enter? writable = some access) :
    ∃ state, handle.entered? writable w = some (state, handle.setAccess (fun _ => access) w) := by
  rcases handle.alive_cases (w := w) with ⟨cell, found, _, lives⟩ | ⟨gone, _⟩
  · have enters : cell.access.enter? writable = some access := by rwa [life, life_of_cell? found] at enters
    obtain ⟨state, present⟩ : ∃ state, cell.state? = some state := by
      simpa [hasInstance, found, Option.isSome_iff_exists] using there
    have borrowed : handle.borrowed writable w = (.returned (access, state), w) := by
      simp only [borrowed, bind_of_returned lives, enters, ofOption_some, pure_bind, present, pure_apply]
    exact ⟨state, by simp only [entered?, borrowed]⟩
  · exact absurd gone (Nat.ne_of_gt live)

section Prepared

variable [NativeState σ]

theorem prepareInvoke_returned {method : String} {positional : List Value} {keywords : Keywords}
    (ended : handle.prepareInvoke method positional keywords w = (.returned call, after)) :
    ∃ program conclusion, call = .member handle true program conclusion := by
  simp only [prepareInvoke] at ended
  obtain ⟨_, _, _, ended⟩ := returned_of_bind ended
  obtain ⟨c, _, _, ended⟩ := returned_of_bind ended
  obtain ⟨m, _, _, ended⟩ := returned_of_bind ended
  obtain ⟨_, _, _, ended⟩ := returned_of_bind ended
  obtain ⟨args, _, _, ended⟩ := returned_of_bind ended
  obtain ⟨_, _, _, ended⟩ := returned_of_bind ended
  cases ended
  exact ⟨_, _, rfl⟩

theorem prepareGet_returned {name : String} (ended : handle.prepareGet name w = (.returned call, after)) :
    ∃ program conclusion, call = .member handle false program conclusion := by
  simp only [prepareGet] at ended
  obtain ⟨_, _, _, ended⟩ := returned_of_bind ended
  obtain ⟨p, _, _, ended⟩ := returned_of_bind ended
  cases ended
  exact ⟨_, _, rfl⟩

theorem prepareSet_returned {name : String} {value : Value}
    (ended : handle.prepareSet name value w = (.returned call, after)) :
    ∃ program conclusion, call = .member handle true program conclusion := by
  simp only [prepareSet] at ended
  obtain ⟨_, _, _, ended⟩ := returned_of_bind ended
  obtain ⟨p, _, _, ended⟩ := returned_of_bind ended
  obtain ⟨setter, _, _, ended⟩ := returned_of_bind ended
  cases ended
  exact ⟨_, _, rfl⟩

end Prepared

end Handle

namespace Request

variable [NativeState σ] {handle : Handle} {writable : Bool} {w after : World σ} {call : NativeCall σ}
  {asked : Request σ (Program σ)}

theorem prepare_of_seeks (seeks : asked.seeks? = some (handle, writable)) :
    ∃ prepare, asked.prepare? = some prepare ∧ ∀ w call after, prepare w = (.returned call, after) →
      ∃ program conclusion, call = .member handle writable program conclusion := by
  cases asked with
  | invoke handle method positional keywords =>
      cases seeks
      exact ⟨_, rfl, fun w call after ended => Handle.prepareInvoke_returned ended⟩
  | getAttr handle name =>
      cases seeks
      exact ⟨_, rfl, fun w call after ended => Handle.prepareGet_returned ended⟩
  | setAttr handle name value =>
      cases seeks
      exact ⟨_, rfl, fun w call after ended => Handle.prepareSet_returned ended⟩
  | _ => cases seeks

/-- Native code that a request enters on an instance holds the instance. -/
theorem hold_of_seeks {o : Opening σ} (seeks : asked.seeks? = some (handle, writable))
    (opened : asked.opening? w = some o) : o.hold? = some ⟨.cell handle.slot, writable⟩ := by
  obtain ⟨prepare, prepared, member⟩ := prepare_of_seeks seeks
  simp only [opening?, prepared, Option.bind_eq_bind, Option.bind_some] at opened
  rcases ended : prepare w with ⟨outcome, after⟩
  rw [ended] at opened
  cases outcome with
  | returned call =>
      obtain ⟨program, conclusion, rfl⟩ := member w call after ended
      simp only [NativeCall.opening?, Option.bind_eq_bind, Option.bind_eq_some_iff] at opened
      obtain ⟨_, _, _, _, opening⟩ := opened
      cases opening
      rfl
  | _ => cases opened

end Request

/-- The instance is not to be had for such a use.  Whoever asks for it is refused, at the latest with
the error of an instance in use: no native code runs, and nothing changes but the journal. -/
structure Handle.Barred [NativeState σ] (handle : Handle) (writable : Bool) (w : World σ) : Prop where
  request : ∀ (asked : Request σ (Program σ)), asked.seeks? = some (handle, writable) →
    asked.opening? w = none ∧ ∃ prepare, asked.prepare? = some prepare ∧ ∀ run : Runner σ,
      asked.serve run w = (prepare >>= fun _ => Act.fail handle.busy) w ∧ w.Logs (asked.serve run w).2
  withInstance : writable = true → ∀ type, handle.enteredAs? type w = none ∧
    ∀ {α : Type} (act : Act σ α), handle.withInstance type act w = (.failed handle.busy, w)

theorem Handle.barred_of_busy [NativeState σ] {handle : Handle} {writable : Bool} {w : World σ}
    (live : 0 < (handle.life w).references)
    (taken : (handle.life w).access.enter? writable = none) : handle.Barred writable w where
  request asked seeks := by
    obtain ⟨prepare, prepared, member⟩ := Request.prepare_of_seeks seeks
    have logs := Request.logs_prepare prepared
    -- What is prepared before the instance is borrowed only logs, so the instance is as busy then.
    have busy : ∀ call after, prepare w = (.returned call, after) →
        call.opening? after = none ∧ ∀ run, call.enter run after = (.failed handle.busy, after) := by
      intro call after ended
      obtain ⟨program, conclusion, rfl⟩ := member w call after ended
      have same : handle.life after = handle.life w := by
        rw [Handle.life, ((logs.ended ended).quiet).lives]
      have refused : handle.borrowed writable after = (.failed handle.busy, after) :=
        Handle.borrowed_of_busy (by rwa [same]) (by rwa [same])
      refine ⟨?_, fun run => ?_⟩
      · simp only [NativeCall.opening?, Handle.entered?, refused, Option.bind_eq_bind, Option.bind_none]
      · simp only [NativeCall.enter, Handle.whileHeld, bind_of_failed refused]
    have served : ∀ run : Runner σ,
        asked.serve run w = (prepare >>= fun _ => Act.fail handle.busy) w := by
      intro run
      rw [Request.serve_prepare prepared]
      exact bind_apply_congr fun call after ended => (busy call after ended).2 run
    refine ⟨?_, prepare, prepared, fun run => ⟨served run, ?_⟩⟩
    · simp only [Request.opening?, prepared, Option.bind_eq_bind, Option.bind_some]
      rcases ended : prepare w with ⟨outcome, after⟩
      cases outcome with
      | returned call => exact (busy call after ended).1
      | _ => rfl
    · rw [served run]
      exact (logs.bind fun _ => keeps_fail _) w
  withInstance writes type := by
    subst writes
    have refused := Handle.borrowed_of_busy live taken
    refine ⟨?_, fun act => ?_⟩
    · simp only [Handle.enteredAs?, Handle.entered?, refused, Option.bind_eq_bind, Option.bind_none]
    · simp only [Handle.withInstance, Handle.whileHeld, bind_of_failed refused]

/-- How the instance behind a handle can be used at a moment, by those who hold it. -/
structure Handle.Guarded [NativeState σ] (handle : Handle) (m : Moment σ) : Prop where
  /-- Whoever may change the instance is alone with it. -/
  alone : true ∈ Hold.users (.cell handle.slot) m.holds → Hold.users (.cell handle.slot) m.holds = [true]
  /-- Native code that is entered next on the instance holds it. -/
  held : ∀ (asked : Request σ (Program σ)) writable o, asked.seeks? = some (handle, writable) →
    asked.opening? m.world = some o → o.hold? = some ⟨.cell handle.slot, writable⟩
  barred : ∀ writable, ¬ Access.Admits (Hold.users (.cell handle.slot) m.holds) writable →
    handle.Barred writable m.world
  admitted : ∀ writable, Access.Admits (Hold.users (.cell handle.slot) m.holds) writable →
    m.world.hasInstance handle = true → (handle.entered? writable m.world).isSome = true

theorem Handle.guarded_of_sound [NativeState σ] {handle : Handle} {m : Moment σ}
    (sound : m.world.lives.Sound handle.slot m.holds) : handle.Guarded m where
  alone writer := by
    rw [← sound.life.used] at writer ⊢
    exact Access.users_alone writer
  held asked writable o seeks opened := Request.hold_of_seeks seeks opened
  barred writable excluded := by
    rw [← sound.life.used, ← Access.enter?_isSome, Bool.not_eq_true, Option.isSome_eq_false_iff,
      Option.isNone_iff_eq_none] at excluded
    refine Handle.barred_of_busy (sound.life.kept ?_) excluded
    intro nobody
    rw [← sound.life.used] at nobody
    have idle : (handle.life m.world).access = .idle := by
      cases used : (m.world.lives.life handle.slot).access with
      | idle => rfl
      | _ =>
          rw [used] at nobody
          cases nobody
    rw [idle] at excluded
    cases writable <;> cases excluded
  admitted writable admits there := by
    rw [← sound.life.used, ← Access.enter?_isSome, Option.isSome_iff_exists] at admits
    obtain ⟨access, enters⟩ := admits
    have live : 0 < (handle.life m.world).references := by
      rw [Handle.hasInstance_eq] at there
      exact sound.life.present.mp there
    obtain ⟨state, entered⟩ := Handle.entered_of_admitted there live enters
    rw [entered]
    rfl

/-- Nobody uses an instance, and those that are there are those that callers hold references to. -/
def World.AtRest (w : World σ) : Prop := ∀ slot, w.lives.Sound slot []

theorem World.atRest_empty : World.AtRest ({} : World σ) :=
  fun _ => Lives.Sound.of_vacant (Nat.zero_le _)

theorem Walk.sound_last {first last : Lives} {slot : Nat} {holds final : List Hold} {ms : List (Moment σ)}
    (walk : Walk first holds ms last final) (start : first.Sound slot holds) : last.Sound slot final := by
  induction walk with
  | stop w holds => exact start
  | step leads walk ih => exact ih (start.leads leads)

section Exclusion

variable [NativeState σ]

/-- Between the programs of a session the world is at rest, and at each of its moments access to every
instance is exclusive.  Each call leaves the instances to those who used them before, however it ends. -/
theorem instances_exclusive (stack : Nat) (programs : List (Program σ)) (w : World σ) (rest : w.AtRest) :
    (∀ m ∈ Program.sessionMoments stack programs w, ∀ handle : Handle, handle.Guarded m) ∧
    (Program.session stack programs w).AtRest ∧
    ∀ (depth : Nat) (before : World σ) (slot : Nat),
      (∀ asked : Request σ (Program σ),
        ((asked.serve (Program.run depth) before).2.lives.life slot).access =
          (before.lives.life slot).access) ∧
      ∀ (handle : Handle) type frames body,
        ((handle.withInstance type (Program.run depth frames body) before).2.lives.life slot).access =
          (before.lives.life slot).access := by
  have walk := Program.walk_session stack programs w
  refine ⟨fun m member handle => ?_, fun slot => walk.sound_last (rest slot), fun depth before slot =>
    ⟨fun asked => ?_, fun handle type frames body => ?_⟩⟩
  · exact Handle.guarded_of_sound (walk.sound (rest handle.slot) m member)
  · have kept : Keeps (Lasts ∅) (asked.serve (Program.run depth)) :=
    asked.lasts_serve (Program.lasts_run depth)
    exact (kept before).access slot
  · have kept := Program.lasts_run depth ∅ frames body fun frame _ => frame.spares_empty
    exact (handle.lasts_withInstance type kept before).access slot

end Exclusion

/-- Makes an instance and, holding it, tries to hold it once more. -/
def heldTwice : Program Sample.State :=
  .request (.create 0 .zero) fun reply =>
    match reply with
    | .ok (.object handle) =>
      .withInstance handle "i32" (.withInstance handle "i32" (.done (.ok .none)) fun _ => .done (.ok .none))
        fun _ => .done (.ok .none)
    | _ => .done (.ok .none)

theorem instances_exclusive_heldTwice :
    ∃ (handle : Handle) (m : Moment Sample.State), m ∈ Program.sessionMoments 1 [heldTwice] {} ∧
      Hold.users (.cell handle.slot) m.holds = [true] ∧ handle.Guarded m := by
  let handle : Handle := { slot := 0, classId := 0, className := "" }
  let ms := Program.sessionMoments 1 [heldTwice] {}
  have inside : ∃ m ∈ ms, Hold.users (.cell handle.slot) m.holds = [true] :=
    ⟨_, .tail _ (.tail _ (.head _)), rfl⟩
  obtain ⟨m, member, users⟩ := inside
  exact ⟨handle, m, member, users,
    (instances_exclusive 1 [heldTwice] {} World.atRest_empty).1 m member handle⟩

end Marshal
