import Mathlib
import Marshal.Proofs.Program.Sound

namespace Marshal

variable {σ : Type}

namespace Deed

def slot : Deed → Nat
  | .create slot | .retain slot | .release slot _ => slot

def retains (slot : Nat) : Deed → Bool
  | .retain other => other = slot
  | _ => false

def releases (slot : Nat) : Deed → Bool
  | .release other _ => other = slot
  | _ => false

def destroys (slot : Nat) : Deed → Bool
  | .release other destroys => other = slot && destroys
  | _ => false

variable {deed : Deed} {slot : Nat} {lives : Lives}

theorem apply_life_of_ne (lives : Lives) (other : deed.slot ≠ slot) :
    (deed.apply lives).life slot = lives.life slot := by
  have ne : slot ≠ deed.slot := Ne.symm other
  rcases deed with made | other | ⟨other, _ | _⟩ <;> exact Lives.set_life_of_ne ne

theorem of_other_slot (other : deed.slot ≠ slot) :
    deed.retains slot = false ∧ deed.releases slot = false ∧ deed.destroys slot = false := by
  rcases deed with made | retained | ⟨released, destroyed⟩
  · exact ⟨rfl, rfl, rfl⟩
  · have ne : retained ≠ slot := other
    simp [retains, releases, destroys, ne]
  · have ne : released ≠ slot := other
    simp [retains, releases, destroys, ne]

theorem count_le_apply (allowed : deed.Allowed lives) : lives.count ≤ (deed.apply lives).count := by
  rcases deed with made | other | ⟨other, _ | _⟩
  · simp only [Allowed] at allowed
    subst allowed
    exact Nat.le_succ _
  all_goals exact Nat.le_refl _

end Deed

/-- How many of the moments have such a deed. -/
def Moment.tally (such : Deed → Bool) (ms : List (Moment σ)) : Nat :=
  ms.countP fun m => m.deed?.any such

namespace Moment

variable {such : Deed → Bool} {m : Moment σ}

theorem tally_append (first rest : List (Moment σ)) :
    tally such (first ++ rest) = tally such first + tally such rest :=
  List.countP_append

theorem tally_of_none (still : m.deed? = none) : tally such [m] = 0 := by
  simp [tally, still]

theorem tally_of_some {deed : Deed} (does : m.deed? = some deed) :
    tally such [m] = (such deed).toNat := by
  cases met : such deed <;> simp [tally, does, met]

end Moment

theorem Moment.Leads.count_le {m : Moment σ} {after : Lives} {holds : List Hold}
    (leads : m.Leads after holds) : m.world.lives.count ≤ after.count := by
  cases leads with
  | deed does allowed lives =>
      subst lives
      exact Deed.count_le_apply allowed
  | quiet still lives => rw [lives]
  | opens still opened => rw [opened.count]
  | closes still held lives => rw [lives, Hold.close_count]

theorem Moment.Leads.of_deed {m : Moment σ} {after : Lives} {holds : List Hold} {deed : Deed}
    (leads : m.Leads after holds) (does : m.deed? = some deed) : after = deed.apply m.world.lives := by
  cases leads with
  | deed does' allowed lives =>
      obtain rfl : deed = _ := Option.some.inj (does.symm.trans does')
      exact lives
  | _ => simp_all

open Moment (tally)

/-- The books about the instance in a slot balance over some moments. -/
structure Lives.Balance (slot : Nat) (before : Lives) (ms : List (Moment σ)) (after : Lives) :
    Prop where
  references : (after.life slot).references + tally (Deed.releases slot) ms =
    (before.life slot).references + tally (Deed.retains slot) ms
  present : (after.life slot).isPresent.toNat + tally (Deed.destroys slot) ms =
    (before.life slot).isPresent.toNat

namespace Lives.Balance

variable {slot : Nat} {before middle after : Lives} {m : Moment σ} {ms rest : List (Moment σ)}
  {holds : List Hold}

theorem append (first : Balance slot before ms middle) (further : Balance slot middle rest after) :
    Balance slot before (ms ++ rest) after where
  references := by
    have counted := first.references
    have countedOn := further.references
    rw [Moment.tally_append, Moment.tally_append]
    omega
  present := by
    have counted := first.present
    have countedOn := further.present
    rw [Moment.tally_append]
    omega

theorem of_unchanged (such : ∀ deed, m.deed? = some deed → deed.slot ≠ slot)
    (references : (after.life slot).references = (before.life slot).references)
    (present : (after.life slot).isPresent = (before.life slot).isPresent) :
    Balance slot before [m] after := by
  cases does : m.deed? with
  | none =>
      refine ⟨?_, ?_⟩
      · rw [Moment.tally_of_none does, Moment.tally_of_none does, references]
      · rw [Moment.tally_of_none does, present, Nat.add_zero]
  | some deed =>
      obtain ⟨noRetain, noRelease, noDestroy⟩ := Deed.of_other_slot (such deed does)
      refine ⟨?_, ?_⟩
      · rw [Moment.tally_of_some does, Moment.tally_of_some does, noRetain, noRelease, references]
      · rw [Moment.tally_of_some does, noDestroy, present, Bool.toNat_false, Nat.add_zero]

theorem of_retain (does : m.deed? = some (.retain slot)) :
    Balance slot before [m] ((Deed.retain slot).apply before) where
  references := by
    simp [Moment.tally_of_some does, Deed.releases, Deed.retains, Deed.apply, Life.retain]
  present := by simp [Moment.tally_of_some does, Deed.destroys, Deed.apply, Life.retain]

theorem of_release (does : m.deed? = some (.release slot false))
    (many : 1 < (before.life slot).references) :
    Balance slot before [m] ((Deed.release slot false).apply before) where
  references := by
    have left : (before.life slot).references - 1 + 1 = (before.life slot).references :=
      Nat.sub_add_cancel (Nat.le_of_lt many)
    simp [Moment.tally_of_some does, Deed.releases, Deed.retains, Deed.apply, Life.release, left]
  present := by simp [Moment.tally_of_some does, Deed.destroys, Deed.apply, Life.release]

theorem of_destroy (does : m.deed? = some (.release slot true))
    (last : (before.life slot).references = 1) (there : (before.life slot).isPresent = true) :
    Balance slot before [m] ((Deed.release slot true).apply before) where
  references := by
    simp [Moment.tally_of_some does, Deed.releases, Deed.retains, Deed.apply, Life.destroy, last]
  present := by simp [Moment.tally_of_some does, Deed.destroys, Deed.apply, Life.destroy, there]

theorem of_deed {deed : Deed} (does : m.deed? = some deed) (allowed : deed.Allowed before)
    (sound : before.Sound slot holds) (taken : slot < before.count) :
    Balance slot before [m] (deed.apply before) := by
  by_cases same : deed.slot = slot
  · subst same
    cases deed with
    | create made => exact absurd allowed (Nat.ne_of_lt taken)
    | retain other => exact of_retain does
    | release other destroys =>
        cases destroys with
        | false => exact of_release does allowed
        | true =>
            have last : (before.life other).references = 1 := allowed.1
            exact of_destroy does last (sound.life.present.mpr (last ▸ Nat.one_pos))
  · have unchanged := Deed.apply_life_of_ne before same
    refine of_unchanged (fun deed' does' => ?_) (by rw [unchanged]) (by rw [unchanged])
    obtain rfl : deed' = deed := Option.some.inj (does'.symm.trans does)
    exact same

/-- The books balance over every step of a run. -/
theorem of_leads (sound : m.world.lives.Sound slot m.holds) (taken : slot < m.world.lives.count)
    (leads : m.Leads after holds) : Balance slot m.world.lives [m] after := by
  have unmentioned : m.deed? = none → ∀ deed, m.deed? = some deed → deed.slot ≠ slot := by
    intro still deed does
    rw [still] at does
    cases does
  cases leads with
  | deed does allowed lives =>
      subst lives
      exact of_deed does allowed sound taken
  | quiet still lives =>
      subst lives
      exact of_unchanged (unmentioned still) rfl rfl
  | opens still opened =>
      obtain ⟨references, present⟩ := opened.unchanged slot
      exact of_unchanged (unmentioned still) references present
  | closes still held lives =>
      subst lives
      obtain ⟨references, present⟩ := Hold.close_unchanged _ m.world.lives slot
      exact of_unchanged (unmentioned still) references present

end Lives.Balance

end Marshal
