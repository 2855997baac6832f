import Mathlib
import Marshal.World.Array
import Marshal.World.Handle

/-!
# Actions

Actions are a lawful monad.  Two properties of an action say what holds however it ends: `Keeps` relates
the worlds before and after it, `PanicsOnly` bounds the panics that leave it.  Two more are about its errors:
one that `Succeeds` has none, and one that `Refuses` changes nothing when it ends with one.
-/

namespace Marshal.Act

variable {σ α β : Type} {act : Act σ α} {next : α → Act σ β} {w after : World σ}

theorem bind_apply : (act >>= next) w = Act.bind act next w := rfl

@[simp] theorem pure_apply (a : α) : (Pure.pure a : Act σ α) w = (.returned a, w) := rfl

@[simp] theorem pure_eq (a : α) : (Act.pure a : Act σ α) = Pure.pure a := rfl

@[simp] theorem fail_apply (e : Error) : (fail e : Act σ α) w = (.failed e, w) := rfl

@[simp] theorem panic_apply (p : Payload) : (panic p : Act σ α) w = (.panicked p, w) := rfl

@[simp] theorem read_apply (f : World σ → α) : read f w = (.returned (f w), w) := rfl

@[simp] theorem modify_apply (f : World σ → World σ) : modify f w = (.returned (), f w) := rfl

@[simp] theorem ofExcept_ok (a : α) : (ofExcept (.ok a) : Act σ α) = Pure.pure a := rfl

@[simp] theorem ofExcept_error (e : Error) : (ofExcept (.error e) : Act σ α) = fail e := rfl

@[simp] theorem ofOption_some (e : Error) (a : α) : (ofOption e (some a) : Act σ α) = Pure.pure a := rfl

@[simp] theorem ofOption_none (e : Error) : (ofOption e none : Act σ α) = fail e := rfl

@[simp] theorem ofAddress_ok (a : α) : (ofAddress (.ok a) : Act σ α) = Pure.pure a := rfl

theorem apply_of_outcome {outcome : Outcome α} (ended : (act w).1 = outcome) :
    act w = (outcome, (act w).2) :=
  Prod.ext ended rfl

theorem bind_of_returned {a : α} (ended : act w = (.returned a, after)) :
    (act >>= next) w = next a after := by
  simp only [bind_apply, Act.bind, ended]

theorem bind_of_failed {e : Error} (ended : act w = (.failed e, after)) :
    (act >>= next) w = (.failed e, after) := by
  simp only [bind_apply, Act.bind, ended]

theorem bind_of_panicked {p : Payload} (ended : act w = (.panicked p, after)) :
    (act >>= next) w = (.panicked p, after) := by
  simp only [bind_apply, Act.bind, ended]

theorem bind_of_exhausted (ended : act w = (.exhausted, after)) :
    (act >>= next) w = (.exhausted, after) := by
  simp only [bind_apply, Act.bind, ended]

/-- What follows goes on from where the action ends, whichever way it got there. -/
theorem bind_apply_of_eq {other : Act σ α} {start : World σ} (same : act w = other start) :
    (act >>= next) w = (other >>= next) start := by
  simp only [bind_apply, Act.bind, same]

/-- What follows an action matters only where the action returns. -/
theorem bind_apply_congr {other : α → Act σ β}
    (same : ∀ a after, act w = (.returned a, after) → next a after = other a after) :
    (act >>= next) w = (act >>= other) w := by
  rcases ended : act w with ⟨outcome, after⟩
  cases outcome with
  | returned a => rw [bind_of_returned ended, bind_of_returned ended, same a after ended]
  | failed e => rw [bind_of_failed ended, bind_of_failed ended]
  | panicked p => rw [bind_of_panicked ended, bind_of_panicked ended]
  | exhausted => rw [bind_of_exhausted ended, bind_of_exhausted ended]

theorem world_of_stuck {outcome : Outcome α} (ended : act w = (outcome, after))
    (stuck : ∀ a, outcome ≠ .returned a) : ((act >>= next) w).2 = after := by
  cases outcome with
  | returned a => exact absurd rfl (stuck a)
  | failed e => rw [bind_of_failed ended]
  | panicked p => rw [bind_of_panicked ended]
  | exhausted => rw [bind_of_exhausted ended]

theorem attempt_of_returned {a : α} (ended : act w = (.returned a, after)) :
    act.attempt w = (.returned (.ok a), after) := by
  simp only [attempt, ended]

theorem attempt_of_failed {e : Error} (ended : act w = (.failed e, after)) :
    act.attempt w = (.returned (.error e), after) := by
  simp only [attempt, ended]

theorem returned_of_bind {b : β} (ended : (act >>= next) w = (.returned b, after)) :
    ∃ a middle, act w = (.returned a, middle) ∧ next a middle = (.returned b, after) := by
  rcases first : act w with ⟨outcome, middle⟩
  cases outcome with
  | returned a => exact ⟨a, middle, rfl, by rwa [bind_of_returned first] at ended⟩
  | failed e =>
      rw [bind_of_failed first] at ended
      cases ended
  | panicked p =>
      rw [bind_of_panicked first] at ended
      cases ended
  | exhausted =>
      rw [bind_of_exhausted first] at ended
      cases ended

theorem failed_of_bind {e : Error} (ended : (act >>= next) w = (.failed e, after)) :
    act w = (.failed e, after) ∨
      ∃ a middle, act w = (.returned a, middle) ∧ next a middle = (.failed e, after) := by
  rcases first : act w with ⟨outcome, middle⟩
  cases outcome with
  | returned a => exact .inr ⟨a, middle, rfl, by rwa [bind_of_returned first] at ended⟩
  | failed other =>
      rw [bind_of_failed first] at ended
      cases ended
      exact .inl rfl
  | panicked p =>
      rw [bind_of_panicked first] at ended
      cases ended
  | exhausted =>
      rw [bind_of_exhausted first] at ended
      cases ended

theorem returned_of_ofExcept {result : Except Error α} {a : α}
    (ended : ofExcept result w = (.returned a, after)) : result = .ok a ∧ after = w := by
  cases result with
  | ok b =>
      cases ended
      exact ⟨rfl, rfl⟩
  | error e => cases ended

theorem returned_of_ofOption {e : Error} {found : Option α} {a : α}
    (ended : ofOption e found w = (.returned a, after)) : found = some a ∧ after = w := by
  cases found with
  | some b =>
      cases ended
      exact ⟨rfl, rfl⟩
  | none => cases ended

theorem returned_of_ofAddress {address : Except AddressFault α} {a : α}
    (ended : ofAddress address w = (.returned a, after)) : address = .ok a ∧ after = w := by
  rcases address with (e | _) | b
  · cases ended
  · cases ended
  · cases ended
    exact ⟨rfl, rfl⟩

theorem returned_of_allocate {count : Nat} {done : Unit}
    (ended : allocate count w = (.returned done, after)) : count ≤ Size.signedMax ∧ after = w := by
  simp only [allocate] at ended
  split at ended
  · cases ended
  · cases ended
    exact ⟨by omega, rfl⟩

instance : LawfulMonad (Act σ) :=
  LawfulMonad.mk' _
    (by
      intro α act
      funext w
      change Act.bind act Pure.pure w = act w
      simp only [Act.bind]
      rcases act w with ⟨_ | _ | _ | _, after⟩ <;> rfl)
    (fun _ _ => rfl)
    (by
      intro α β γ act next last
      funext w
      simp only [bind_apply, Act.bind]
      rcases act w with ⟨_ | _ | _ | _, after⟩ <;> rfl)

@[simp] theorem fail_bind (e : Error) : (fail e >>= next) = fail e := rfl

@[simp] theorem panic_bind (p : Payload) : (panic p >>= next) = panic p := rfl

theorem read_bind_apply (f : World σ → α) : (read f >>= next) w = next (f w) w := rfl

theorem modify_bind_apply (f : World σ → World σ) (rest : Unit → Act σ β) :
    (modify f >>= rest) w = rest () (f w) := rfl

theorem log_bind_apply (event : Event) (rest : Unit → Act σ β) :
    (log event >>= rest) w = rest () { w with journal := event :: w.journal } := rfl

/-- The worlds before and after an action are related, however the action ends. -/
def Keeps (R : World σ → World σ → Prop) (act : Act σ α) : Prop := ∀ w, R w (act w).2

section Keeps

variable {R : World σ → World σ → Prop}

theorem Keeps.ended {outcome : Outcome α} (kept : Keeps R act) (ended : act w = (outcome, after)) :
    R w after := by
  have related := kept w
  rwa [ended] at related

theorem keeps_modify {f : World σ → World σ} (kept : ∀ w, R w (f w)) : Keeps R (modify f) := kept

theorem Keeps.attempt (kept : Keeps R act) : Keeps R act.attempt := by
  intro w
  have before := kept w
  simp only [Act.attempt]
  rcases ended : act w with ⟨_ | _ | _ | _, after⟩ <;> simpa only [ended] using before

theorem Keeps.mono {S : World σ → World σ → Prop} (kept : Keeps R act)
    (wide : ∀ w after, R w after → S w after) : Keeps S act :=
  fun w => wide _ _ (kept w)

variable [IsPreorder (World σ) R]

theorem keeps_pure (a : α) : Keeps R (Pure.pure a) := fun w => refl_of R w

theorem keeps_fail (e : Error) : Keeps R (fail e : Act σ α) := fun w => refl_of R w

theorem keeps_panic (p : Payload) : Keeps R (panic p : Act σ α) := fun w => refl_of R w

theorem keeps_read (f : World σ → α) : Keeps R (read f) := fun w => refl_of R w

theorem keeps_ofExcept (result : Except Error α) : Keeps R (ofExcept result) := by
  cases result with
  | ok a => exact keeps_pure a
  | error e => exact keeps_fail e

theorem keeps_ofOption (e : Error) (found : Option α) : Keeps R (ofOption e found) := by
  cases found with
  | some a => exact keeps_pure a
  | none => exact keeps_fail e

theorem keeps_ofAddress (address : Except AddressFault α) :
    Keeps R (ofAddress address : Act σ α) := by
  rcases address with (e | _) | a
  · exact keeps_fail e
  · exact keeps_panic _
  · exact keeps_pure a

/-- What follows an action starts from the world that the action leaves. -/
theorem bind_after (rest : ∀ a, Keeps R (next a)) : R (act w).2 ((act >>= next) w).2 := by
  rcases ended : act w with ⟨outcome, after⟩
  cases outcome with
  | returned a =>
      rw [bind_of_returned ended]
      exact rest a after
  | _ =>
      rw [world_of_stuck ended nofun]
      exact refl_of R _

theorem Keeps.bind (first : Keeps R act) (rest : ∀ a, Keeps R (next a)) : Keeps R (act >>= next) :=
  fun w => trans_of R (first w) (bind_after rest)

theorem keeps_mapM {f : α → Act σ β} {items : List α} (kept : ∀ item ∈ items, Keeps R (f item)) :
    Keeps R (items.mapM f) := by
  induction items with
  | nil => exact keeps_pure []
  | cons item rest ih =>
      rw [List.mapM_cons]
      refine (kept item (by simp)).bind fun first => ?_
      refine (ih fun other member => kept other (by simp [member])).bind fun others => ?_
      exact keeps_pure _

theorem keeps_forM {f : α → Act σ PUnit} {items : List α} (kept : ∀ item ∈ items, Keeps R (f item)) :
    Keeps R (items.forM f) := by
  induction items with
  | nil => exact keeps_pure _
  | cons item rest ih =>
      exact (kept item (by simp)).bind fun _ => ih fun other member => kept other (by simp [member])

end Keeps

/-- A panic of the action in this world is an allowed one. -/
def PanicsOnly (allowed : Payload → Prop) (act : Act σ α) (w : World σ) : Prop :=
  ∀ p after, act w = (.panicked p, after) → allowed p

section PanicsOnly

variable {allowed : Payload → Prop}

theorem panicsOnly_pure (a : α) : PanicsOnly allowed (Pure.pure a) w := by
  rintro _ _ ⟨⟩

theorem panicsOnly_fail (e : Error) : PanicsOnly allowed (fail e : Act σ α) w := by
  rintro _ _ ⟨⟩

theorem panicsOnly_read (f : World σ → α) : PanicsOnly allowed (read f) w := by
  rintro _ _ ⟨⟩

theorem panicsOnly_modify (f : World σ → World σ) : PanicsOnly allowed (modify f) w := by
  rintro _ _ ⟨⟩

theorem panicsOnly_ofOption (e : Error) (found : Option α) :
    PanicsOnly allowed (ofOption e found : Act σ α) w := by
  cases found with
  | some a => exact panicsOnly_pure a
  | none => exact panicsOnly_fail e

theorem PanicsOnly.bind (first : PanicsOnly allowed act w)
    (rest : ∀ a after, act w = (.returned a, after) → PanicsOnly allowed (next a) after) :
    PanicsOnly allowed (act >>= next) w := by
  intro p last panicked
  rcases ended : act w with ⟨outcome, after⟩
  cases outcome with
  | returned a =>
      rw [bind_of_returned ended] at panicked
      exact rest a after ended p last panicked
  | failed e =>
      rw [bind_of_failed ended] at panicked
      cases panicked
  | panicked q =>
      rw [bind_of_panicked ended] at panicked
      cases panicked
      exact first p last ended
  | exhausted =>
      rw [bind_of_exhausted ended] at panicked
      cases panicked

theorem panicsOnly_ofExcept_bind {result : Except Error α}
    (rest : ∀ a, result = .ok a → PanicsOnly allowed (next a) w) :
    PanicsOnly allowed (ofExcept result >>= next) w := by
  cases result with
  | ok a => exact rest a rfl
  | error e => exact panicsOnly_fail e

theorem panicsOnly_ofOption_bind {e : Error} {found : Option α}
    (rest : ∀ a, found = some a → PanicsOnly allowed (next a) w) :
    PanicsOnly allowed (ofOption e found >>= next) w := by
  cases found with
  | some a => exact rest a rfl
  | none => exact panicsOnly_fail e

theorem panicsOnly_mapM {f : α → Act σ β} {items : List α}
    (each : ∀ item ∈ items, ∀ w, PanicsOnly allowed (f item) w) :
    PanicsOnly allowed (items.mapM f) w := by
  induction items generalizing w with
  | nil => exact panicsOnly_pure []
  | cons item rest ih =>
      rw [List.mapM_cons]
      refine (each item (by simp) w).bind fun first after _ => ?_
      refine (ih fun other member => each other (by simp [member])).bind fun others _ _ => ?_
      exact panicsOnly_pure _

theorem PanicsOnly.bracket {enter leave : World σ → World σ}
    (body : PanicsOnly allowed act (enter w)) : PanicsOnly allowed (bracket enter leave act) w := by
  intro p last panicked
  simp only [Act.bracket] at panicked
  rcases ended : act (enter w) with ⟨outcome, after⟩
  rw [ended] at panicked
  cases panicked
  exact body p after ended

end PanicsOnly

/-- The action does not end with an error. -/
def Succeeds (act : Act σ α) : Prop := ∀ w e after, act w ≠ (.failed e, after)

/-- The action changes nothing when it ends with an error. -/
def Refuses (act : Act σ α) : Prop := ∀ w e after, act w = (.failed e, after) → after = w

section Errors

theorem succeeds_pure (a : α) : Succeeds (Pure.pure a : Act σ α) := fun _ _ _ => nofun

theorem succeeds_panic (p : Payload) : Succeeds (panic p : Act σ α) := fun _ _ _ => nofun

theorem succeeds_modify (f : World σ → World σ) : Succeeds (modify f) := fun _ _ _ => nofun

theorem succeeds_read (f : World σ → α) : Succeeds (read f) := fun _ _ _ => nofun

theorem Succeeds.bind (first : act.Succeeds) (rest : ∀ a, (next a).Succeeds) :
    (act >>= next).Succeeds := by
  intro w e after ended
  rcases failed_of_bind ended with failed | ⟨a, middle, _, failed⟩
  · exact first w e after failed
  · exact rest a middle e after failed

theorem Succeeds.bracket (succeeds : act.Succeeds) (enter leave : World σ → World σ) :
    (bracket enter leave act).Succeeds := by
  intro w e after ended
  simp only [Act.bracket] at ended
  rcases ran : act (enter w) with ⟨outcome, middle⟩
  rw [ran] at ended
  cases ended
  exact succeeds _ _ _ ran

theorem Succeeds.refuses (succeeds : act.Succeeds) : act.Refuses :=
  fun w e after ended => absurd ended (succeeds w e after)

theorem refuses_fail (e : Error) : Refuses (fail e : Act σ α) := by
  rintro w _ _ ⟨⟩
  rfl

/-- An action that changes nothing may come before one that refuses. -/
theorem Refuses.after_keeps (kept : Keeps Eq act) (rest : ∀ a, (next a).Refuses) :
    (act >>= next).Refuses := by
  intro w e after ended
  rcases failed_of_bind ended with failed | ⟨a, middle, returned, failed⟩
  · exact (kept.ended failed).symm
  · obtain rfl : w = middle := kept.ended returned
    exact rest a w e after failed

end Errors

end Marshal.Act
