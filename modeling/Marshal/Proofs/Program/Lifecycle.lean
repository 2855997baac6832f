import Mathlib
import Marshal.Proofs.Program.Balance
import Marshal.Proofs.Program.Passage
import Marshal.Sample.State

namespace Marshal

open World

variable {σ : Type}

open Moment (tally)

namespace Walk

variable {first last : Lives} {slot : Nat} {holds final : List Hold} {m : Moment σ}
  {ms before since rest : List (Moment σ)}

theorem sound (walk : Walk first holds ms last final) (start : first.Sound slot holds) :
    ∀ m ∈ ms, m.world.lives.Sound slot m.holds :=
  walk.invariant (P := fun lives holds => lives.Sound slot holds)
    (fun _ _ _ leads sound => sound.leads leads) start

theorem count_le (walk : Walk first holds ms last final) (member : m ∈ ms) :
    first.count ≤ m.world.lives.count := by
  refine walk.invariant (P := fun lives _ => first.count ≤ lives.count) ?_ (Nat.le_refl _) m member
  intro m next after leads before
  exact Nat.le_trans before leads.count_le

/-- The books balance from the start of a walk to each of its moments. -/
theorem balance (walk : Walk first holds (since ++ m :: rest) last final)
    (sound : first.Sound slot holds) (taken : slot < first.count) :
    Lives.Balance slot first since m.world.lives := by
  induction since generalizing first holds with
  | nil =>
      obtain ⟨rfl, rfl⟩ := walk.starts
      exact ⟨rfl, rfl⟩
  | cons earlier since ih =>
      obtain ⟨rfl, rfl⟩ := walk.starts
      obtain ⟨next, between, leads, further⟩ := walk.leads (by simp)
      have onward := ih further (sound.leads leads) (Nat.lt_of_lt_of_le taken leads.count_le)
      exact (Lives.Balance.of_leads sound taken leads).append onward

end Walk

def World.hasInstance (w : World σ) (handle : Handle) : Bool :=
  ((w.cell? handle).bind Cell.state?).isSome

theorem Handle.hasInstance_eq (handle : Handle) (w : World σ) :
    w.hasInstance handle = (handle.life w).isPresent := by
  cases found : w.cell? handle with
  | none =>
      rw [life, life_of_none found]
      simp [World.hasInstance, found, Life.none]
  | some cell =>
      rw [life, life_of_cell? found]
      simp [World.hasInstance, found, Cell.life]

/-- The next thing that happens is that the instance behind a handle is made. -/
def Moment.Makes (m : Moment σ) (handle : Handle) : Prop :=
  ∃ classId state after, m.asked? = some (.create classId state) ∧
    Handle.create classId state m.world = (.returned handle, after)

theorem Moment.Makes.deed {m : Moment σ} {handle : Handle} (makes : m.Makes handle) :
    m.deed? = some (.create handle.slot) ∧ handle.slot = m.world.lives.count := by
  obtain ⟨classId, state, after, asked, created⟩ := makes
  obtain ⟨made, after', returned, slot, _⟩ := Handle.create_returned classId state (w := m.world)
  obtain ⟨rfl, rfl⟩ : made = handle ∧ after' = after := by
    rw [returned] at created
    cases created
    exact ⟨rfl, rfl⟩
  refine ⟨?_, slot⟩
  simp only [Moment.deed?, asked, slot]

/-- Every operation on the instance fails as on one that is gone, and changes nothing. -/
structure Handle.Refuses [NativeState σ] (handle : Handle) (w : World σ) : Prop where
  retain : handle.retain w = (.failed handle.gone, w)
  release : handle.release w = (.failed handle.gone, w)
  invoke : ∀ run method positional keywords,
    handle.invoke run method positional keywords w = (.failed handle.gone, w)
  getAttr : ∀ run name, handle.getAttr run name w = (.failed handle.gone, w)
  setAttr : ∀ run name value, handle.setAttr run name value w = (.failed handle.gone, w)
  withInstance : ∀ {α : Type} type (act : Act σ α),
    handle.withInstance type act w = (.failed handle.gone, w)

theorem Handle.refuses_of_gone [NativeState σ] {handle : Handle} {w : World σ}
    (gone : (handle.life w).references = 0) : handle.Refuses w where
  retain := handle.retain_of_gone gone
  release := handle.release_of_gone gone
  invoke run := handle.invoke_of_gone gone run
  getAttr run := handle.getAttr_of_gone gone run
  setAttr run := handle.setAttr_of_gone gone run
  withInstance := handle.withInstance_of_gone gone

/-- The state of an instance at a moment, by what was done about it since it was made. -/
structure Handle.Lifecycle [NativeState σ] (handle : Handle) (since : List (Moment σ))
    (m : Moment σ) : Prop where
  /-- The count is the first reference and those retained, less those released. -/
  counted : m.world.references handle + tally (Deed.releases handle.slot) since =
    1 + tally (Deed.retains handle.slot) since
  present : m.world.hasInstance handle = true ↔ 0 < m.world.references handle
  /-- One release has said that it destroyed the instance, if the instance is gone, and none else. -/
  destroyed : tally (Deed.destroys handle.slot) since =
    if m.world.hasInstance handle then 0 else 1
  /-- A release that says that it destroys the instance gives back the last reference. -/
  last : ∀ after, handle.release m.world = (.returned true, after) →
    m.world.references handle = 1 ∧ after.references handle = 0 ∧ after.hasInstance handle = false
  refused : 0 < tally (Deed.destroys handle.slot) since → handle.Refuses m.world
  /-- The last reference to an instance that is held is not given back. -/
  busy : ∀ hold ∈ m.holds, hold.place = .cell handle.slot →
    m.world.hasInstance handle = true ∧
      (m.world.references handle = 1 → handle.release m.world = (.failed handle.busy, m.world))

section Lifecycle

variable [NativeState σ] {handle : Handle} {since : List (Moment σ)} {made m : Moment σ}

theorem Handle.lifecycle_of_balance {next : Lives} (new : next.life handle.slot = Life.born)
    (sound : m.world.lives.Sound handle.slot m.holds)
    (balance : Lives.Balance handle.slot next since m.world.lives) : handle.Lifecycle since m where
  counted := by
    have references := balance.references
    rw [new] at references
    rw [handle.references_eq]
    exact references
  present := by
    rw [handle.hasInstance_eq, handle.references_eq]
    exact sound.life.present
  destroyed := by
    have present := balance.present
    rw [new] at present
    rw [handle.hasInstance_eq]
    cases there : (handle.life m.world).isPresent with
    | true =>
        have none : tally (Deed.destroys handle.slot) since = 0 := by
          simp only [Life.born, there, Bool.toNat_true] at present
          omega
        simpa using none
    | false =>
        have one : tally (Deed.destroys handle.slot) since = 1 := by
          simp only [Life.born, there, Bool.toNat_true, Bool.toNat_false] at present
          omega
        simpa using one
  last after released := by
    have references := handle.references_eq (w := after)
    have presence := handle.hasInstance_eq after
    rcases handle.release_cases (w := m.world) with ⟨_, other, remains, _⟩ |
      ⟨one, _, other, destroyed, lives⟩ | ⟨_, _, failed⟩ | ⟨_, failed⟩
    · rw [remains] at released
      cases released
    · obtain rfl : other = after := by
        rw [destroyed] at released
        cases released
        rfl
      have dead : handle.life other = (handle.life m.world).destroy := by
        rw [Handle.life, lives, Lives.set_life]
      rw [dead] at references presence
      exact ⟨handle.references_eq.trans one, references, presence⟩
    · rw [failed] at released
      cases released
    · rw [failed] at released
      cases released
  refused destroyed := by
    have present := balance.present
    rw [new] at present
    have absent : (handle.life m.world).isPresent = false := by
      cases there : (handle.life m.world).isPresent with
      | true =>
          simp only [Life.born, there, Bool.toNat_true] at present
          omega
      | false => rfl
    refine Handle.refuses_of_gone (Nat.eq_zero_of_not_pos fun live => ?_)
    rw [sound.life.present.mpr live] at absent
    cases absent
  busy hold member same := by
    have held := Hold.users_ne_nil member same
    have live := sound.life.kept held
    refine ⟨?_, fun one => ?_⟩
    · rw [handle.hasInstance_eq]
      exact sound.life.present.mpr live
    · rw [handle.references_eq] at one
      rcases handle.release_cases (w := m.world) with ⟨many, _⟩ | ⟨_, idle, _⟩ | ⟨_, _, failed⟩ |
        ⟨gone, _⟩
      · exact absurd one (Nat.ne_of_gt many)
      · have nobody : (handle.life m.world).access.users = [] := by
          rw [idle]
          rfl
        exact absurd (sound.life.used.symm.trans nobody) held
      · exact failed
      · exact absurd gone (Nat.ne_of_gt live)

/-- An instance lives as long as the references to it that are left. -/
theorem handle_lifecycle (stack : Nat) (programs : List (Program σ)) (w : World σ)
    (before rest : List (Moment σ))
    (passes : Program.sessionMoments stack programs w = before ++ made :: (since ++ m :: rest))
    (makes : made.Makes handle) : handle.Lifecycle since m := by
  have walk := Program.walk_session stack programs w
  rw [passes] at walk
  obtain ⟨does, slot⟩ := makes.deed
  have early : w.lives.count ≤ handle.slot := by
    rw [slot]
    exact walk.count_le (by simp)
  have soundMade := walk.sound (Lives.Sound.of_vacant early) made (by simp)
  obtain ⟨next, between, leads, further⟩ := walk.onward.leads (by simp)
  have soundNext := soundMade.leads leads
  obtain rfl : next = (Deed.create handle.slot).apply made.world.lives := leads.of_deed does
  have new : ((Deed.create handle.slot).apply made.world.lives).life handle.slot = Life.born :=
    Lives.set_life
  have taken : handle.slot < ((Deed.create handle.slot).apply made.world.lives).count :=
    Nat.lt_succ_self _
  have soundLater := further.sound soundNext m (by simp)
  exact Handle.lifecycle_of_balance new soundLater (further.balance soundNext taken)

end Lifecycle

/-- Gives back the only reference to a new instance while holding the instance, and once more later. -/
def releasedTwice : Program Sample.State :=
  .request (.create 0 .zero) fun reply =>
    match reply with
    | .ok (.object handle) =>
      .withInstance handle "i32" (.request (.release handle) fun _ => .done (.ok .none)) fun _ =>
        .request (.release handle) fun _ => .done (.ok .none)
    | _ => .done (.ok .none)

theorem handle_lifecycle_releasedTwice :
    ∃ (handle : Handle) (made m : Moment Sample.State) (since : List (Moment Sample.State)),
      Program.sessionMoments 1 [releasedTwice] {} = [] ++ made :: (since ++ m :: []) ∧
        made.Makes handle ∧ tally (Deed.destroys handle.slot) since = 1 ∧ handle.Lifecycle since m := by
  let handle : Handle := { slot := 0, classId := 0, className := "" }
  refine ⟨handle, { world := {}, holds := [], asked? := some (.create 0 .zero) }, _, [_, _, _, _, _],
    rfl, ⟨0, .zero, _, rfl, rfl⟩, rfl, ?_⟩
  exact handle_lifecycle 1 [releasedTwice] {} [] [] rfl ⟨0, .zero, _, rfl, rfl⟩

end Marshal
