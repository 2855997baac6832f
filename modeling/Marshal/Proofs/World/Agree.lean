import Mathlib
import Marshal.Proofs.World.Act

/-!
# Two actions side by side

Two actions agree when, started in related worlds, they end in the same way and leave related worlds.  Results
and errors are compared by relations of their own, so that a run can be set beside another one that gives the
same values under other names.
-/

namespace Marshal

/-- Two actions end in the same way: with related results, with related errors, or with the same panic. -/
inductive Outcome.Agree {α β : Type} (E : Error → Error → Prop) (R : α → β → Prop) :
    Outcome α → Outcome β → Prop
  | returned {a : α} {b : β} (alike : R a b) : Agree E R (.returned a) (.returned b)
  | failed {e f : Error} (alike : E e f) : Agree E R (.failed e) (.failed f)
  | panicked (payload : Payload) : Agree E R (.panicked payload) (.panicked payload)
  | exhausted : Agree E R .exhausted .exhausted

theorem Outcome.Agree.mono {α β : Type} {E F : Error → Error → Prop} {R : α → β → Prop} {outcome : Outcome α}
    {twin : Outcome β} (agree : outcome.Agree E R twin) (wider : ∀ e f, E e f → F e f) :
    outcome.Agree F R twin := by
  cases agree with
  | returned alike => exact .returned alike
  | failed alike => exact .failed (wider _ _ alike)
  | panicked payload => exact .panicked payload
  | exhausted => exact .exhausted

/-- Two results are related, or two errors are. -/
inductive Alike {α β : Type} (E : Error → Error → Prop) (R : α → β → Prop) :
    Except Error α → Except Error β → Prop
  | ok {a : α} {b : β} (alike : R a b) : Alike E R (.ok a) (.ok b)
  | error {e f : Error} (alike : E e f) : Alike E R (.error e) (.error f)

theorem Alike.refl {α : Type} {E : Error → Error → Prop} (reflexive : ∀ e, E e e) (result : Except Error α) :
    Alike E Eq result result := by
  cases result with
  | ok a => exact .ok rfl
  | error e => exact .error (reflexive e)

theorem Alike.eq {α : Type} {result other : Except Error α} (alike : Alike Eq Eq result other) :
    result = other := by
  cases alike with
  | ok same => rw [same]
  | error same => rw [same]

theorem Alike.bind {α β γ δ : Type} {E : Error → Error → Prop} {R : α → β → Prop} {S : γ → δ → Prop}
    {result : Except Error α} {other : Except Error β} {next : α → Except Error γ} {last : β → Except Error δ}
    (first : Alike E R result other) (rest : ∀ a b, R a b → Alike E S (next a) (last b)) :
    Alike E S (result >>= next) (other >>= last) := by
  cases first with
  | ok alike => exact rest _ _ alike
  | error alike => exact .error alike

namespace Act

/-- From related worlds two actions end in the same way, in related worlds. -/
def Agree {σ α β : Type} (W : World σ → World σ → Prop) (E : Error → Error → Prop) (R : α → β → Prop)
    (act : Act σ α) (other : Act σ β) : Prop :=
  ∀ w v, W w v → (act w).1.Agree E R (other v).1 ∧ W (act w).2 (other v).2

variable {σ α β γ δ : Type} {W : World σ → World σ → Prop} {E F : Error → Error → Prop}
  {R : α → β → Prop} {S : γ → δ → Prop} {act : Act σ α} {other : Act σ β}

theorem agree_pure {a : α} {b : β} (alike : R a b) : Agree W E R (Pure.pure a) (Pure.pure b) := by
  intro w v related
  exact ⟨.returned alike, related⟩

theorem agree_fail {e f : Error} (alike : E e f) : Agree W E R (fail e) (fail f) := by
  intro w v related
  exact ⟨.failed alike, related⟩

theorem agree_read {f : World σ → α} {g : World σ → β} (alike : ∀ w v, W w v → R (f w) (g v)) :
    Agree W E R (read f) (read g) := by
  intro w v related
  exact ⟨.returned (alike w v related), related⟩

theorem agree_modify {f g : World σ → World σ} (kept : ∀ w v, W w v → W (f w) (g v)) :
    Agree W E Eq (modify f) (modify g) := by
  intro w v related
  exact ⟨.returned rfl, kept w v related⟩

theorem agree_ofExcept {result : Except Error α} {twin : Except Error β} (alike : Alike E R result twin) :
    Agree W E R (ofExcept result) (ofExcept twin) := by
  cases alike with
  | ok alike => exact agree_pure alike
  | error alike => exact agree_fail alike

theorem agree_ofOption {e f : Error} {found : Option α} {twin : Option β} (errors : E e f)
    (alike : Option.Rel R found twin) : Agree W E R (ofOption e found) (ofOption f twin) := by
  cases alike with
  | some alike => exact agree_pure alike
  | none => exact agree_fail errors

theorem Agree.bind {next : α → Act σ γ} {last : β → Act σ δ} (first : Agree W E R act other)
    (rest : ∀ a b, R a b → Agree W E S (next a) (last b)) : Agree W E S (act >>= next) (other >>= last) := by
  intro w v related
  obtain ⟨ends, after⟩ := first w v related
  rcases ended : act w with ⟨outcome, here⟩
  rcases paired : other v with ⟨twin, there⟩
  rw [ended, paired] at ends after
  cases ends with
  | returned alike =>
      rw [bind_of_returned ended, bind_of_returned paired]
      exact rest _ _ alike here there after
  | failed alike =>
      rw [bind_of_failed ended, bind_of_failed paired]
      exact ⟨.failed alike, after⟩
  | panicked payload =>
      rw [bind_of_panicked ended, bind_of_panicked paired]
      exact ⟨.panicked payload, after⟩
  | exhausted =>
      rw [bind_of_exhausted ended, bind_of_exhausted paired]
      exact ⟨.exhausted, after⟩

/-- What goes wrong in an attempt becomes part of its result. -/
theorem Agree.attempt (agree : Agree W E R act other) : Agree W F (Alike E R) act.attempt other.attempt := by
  intro w v related
  obtain ⟨ends, after⟩ := agree w v related
  simp only [Act.attempt]
  rcases ended : act w with ⟨outcome, here⟩
  rcases paired : other v with ⟨twin, there⟩
  rw [ended, paired] at ends after
  cases ends with
  | returned alike => exact ⟨.returned (.ok alike), after⟩
  | failed alike => exact ⟨.returned (.error alike), after⟩
  | panicked payload => exact ⟨.panicked payload, after⟩
  | exhausted => exact ⟨.exhausted, after⟩

theorem Agree.bracket {enter leave : World σ → World σ} (agree : Agree W E R act other)
    (entered : ∀ w v, W w v → W (enter w) (enter v)) (left : ∀ w v, W w v → W (leave w) (leave v)) :
    Agree W E R (bracket enter leave act) (bracket enter leave other) := by
  intro w v related
  obtain ⟨ends, after⟩ := agree _ _ (entered w v related)
  exact ⟨ends, left _ _ after⟩

theorem Agree.mono (agree : Agree W E R act other) (wider : ∀ e f, E e f → F e f) :
    Agree W F R act other := by
  intro w v related
  obtain ⟨ends, after⟩ := agree w v related
  exact ⟨ends.mono wider, after⟩

end Act

end Marshal
