import Mathlib
import Marshal.Proofs.Program.Walk

namespace Marshal

open World

variable {σ : Type}

/-- Those who hold the instance or the buffer in a place, each with whether they may change it. -/
def Hold.users (place : Place) (holds : List Hold) : List Bool :=
  (holds.filter fun hold => hold.place = place).map Hold.writable

namespace Hold

variable {hold : Hold} {place : Place} {holds : List Hold}

@[simp] theorem users_cons_self (place : Place) (writable : Bool) (holds : List Hold) :
    users place (⟨place, writable⟩ :: holds) = writable :: users place holds := by
  simp [users]

theorem users_cons_of_ne (other : hold.place ≠ place) :
    users place (hold :: holds) = users place holds := by
  simp [users, other]

theorem users_ne_nil (member : hold ∈ holds) (same : hold.place = place) :
    users place holds ≠ [] := by
  simp only [users, ne_eq, List.map_eq_nil_iff, List.filter_eq_nil_iff, decide_eq_true_eq, not_forall,
    not_not]
  exact ⟨hold, member, same⟩

theorem Opens.unchanged {lives after : Lives} (opened : hold.Opens lives after) (slot : Nat) :
    (after.life slot).references = (lives.life slot).references ∧
      (after.life slot).isPresent = (lives.life slot).isPresent := by
  obtain ⟨place, writable⟩ := hold
  cases place with
  | cell other =>
      obtain ⟨access, _, _, rfl⟩ := opened
      by_cases same : slot = other
      · subst same
        simp
      · simp [Lives.set_life_of_ne same]
  | buffer index =>
      obtain rfl : after = lives := opened
      exact ⟨rfl, rfl⟩

theorem Opens.count {lives after : Lives} (opened : hold.Opens lives after) :
    after.count = lives.count := by
  obtain ⟨place, writable⟩ := hold
  cases place with
  | cell slot =>
      obtain ⟨access, _, _, rfl⟩ := opened
      rfl
  | buffer index =>
      obtain rfl : after = lives := opened
      rfl

theorem close_count (hold : Hold) (lives : Lives) : (hold.close lives).count = lives.count := by
  rcases hold with ⟨_ | _, writable⟩ <;> rfl

theorem close_unchanged (hold : Hold) (lives : Lives) (slot : Nat) :
    ((hold.close lives).life slot).references = (lives.life slot).references ∧
      ((hold.close lives).life slot).isPresent = (lives.life slot).isPresent := by
  obtain ⟨place, writable⟩ := hold
  cases place with
  | cell other =>
      by_cases same : slot = other
      · subst same
        simp [close]
      · simp [close, Lives.set_life_of_ne same]
  | buffer index => exact ⟨rfl, rfl⟩

end Hold

/-- How the references to an instance, the instance and its users belong together. -/
structure Life.Sound (life : Life) (users : List Bool) : Prop where
  present : life.isPresent = true ↔ 0 < life.references
  used : life.access.users = users
  kept : users ≠ [] → 0 < life.references

namespace Life

variable {life : Life} {users : List Bool} {writable : Bool}

theorem sound_none : none.Sound [] := ⟨by simp [none], rfl, by simp⟩

theorem sound_born : born.Sound [] := ⟨by simp [born], rfl, by simp⟩

theorem Sound.retain (sound : life.Sound users) (live : 0 < life.references) :
    life.retain.Sound users where
  present := by
    have there := sound.present.mpr live
    simp [Life.retain, there]
  used := sound.used
  kept _ := Nat.succ_pos _

theorem Sound.release (sound : life.Sound users) (many : 1 < life.references) :
    life.release.Sound users where
  present := by
    have there := sound.present.mpr (Nat.zero_lt_of_lt many)
    have left : 0 < life.references - 1 := Nat.sub_pos_of_lt many
    simp [Life.release, there, left]
  used := sound.used
  kept _ := Nat.sub_pos_of_lt many

theorem Sound.destroy (sound : life.Sound users) (idle : life.access = .idle) :
    life.destroy.Sound users where
  present := by simp [Life.destroy]
  used := sound.used
  kept held := by
    have nobody : users = [] := by rw [← sound.used, idle]; rfl
    exact absurd nobody held

theorem Sound.enter {access : Access} (sound : life.Sound users)
    (enters : life.access.enter? writable = some access) (live : 0 < life.references) :
    Life.Sound { life with access } (writable :: users) where
  present := sound.present
  used := by rw [Access.users_enter? enters, sound.used]
  kept _ := live

theorem Sound.leave (sound : life.Sound (writable :: users)) :
    Life.Sound { life with access := life.access.leave writable } users where
  present := sound.present
  used := Access.users_leave sound.used
  kept _ := sound.kept (by simp)

end Life

/-- What is known about the instance in a slot while things are held. -/
structure Lives.Sound (lives : Lives) (slot : Nat) (holds : List Hold) : Prop where
  vacant : lives.count ≤ slot → lives.life slot = Life.none
  life : (lives.life slot).Sound (Hold.users (.cell slot) holds)

namespace Lives.Sound

variable {lives : Lives} {slot other : Nat} {holds after : List Hold} {life : Life}

theorem of_vacant {w : World σ} (vacant : w.lives.count ≤ slot) : w.lives.Sound slot [] := by
  have none : w.lives.life slot = Life.none := by
    have beyond : w.cells[slot]? = none := List.getElem?_eq_none vacant
    simp [World.lives, beyond]
  refine ⟨fun _ => none, ?_⟩
  rw [none]
  exact Life.sound_none

theorem within (sound : lives.Sound slot holds) (live : 0 < (lives.life slot).references) :
    slot < lives.count := by
  by_contra beyond
  rw [sound.vacant (Nat.le_of_not_lt beyond)] at live
  exact Nat.lt_irrefl 0 live

theorem set (sound : lives.Sound slot holds)
    (changed : other = slot → 0 < (lives.life slot).references ∧ life.Sound (Hold.users (.cell slot) after))
    (same : other ≠ slot → Hold.users (.cell slot) after = Hold.users (.cell slot) holds) :
    (lives.set other life).Sound slot after := by
  by_cases eq : other = slot
  · subst eq
    obtain ⟨live, fine⟩ := changed rfl
    refine ⟨fun beyond => absurd (sound.within live) (Nat.not_lt_of_le beyond), ?_⟩
    rw [Lives.set_life]
    exact fine
  · have ne : slot ≠ other := Ne.symm eq
    refine ⟨fun beyond => ?_, ?_⟩
    · rw [Lives.set_life_of_ne ne]
      exact sound.vacant beyond
    · rw [Lives.set_life_of_ne ne, same eq]
      exact sound.life

theorem apply {deed : Deed} (sound : lives.Sound slot holds) (allowed : deed.Allowed lives) :
    (deed.apply lives).Sound slot holds := by
  cases deed with
  | create made =>
      simp only [Deed.Allowed] at allowed
      subst allowed
      by_cases eq : lives.count = slot
      · subst eq
        have nobody : Hold.users (.cell lives.count) holds = [] := by
          rw [← sound.life.used, sound.vacant (Nat.le_refl _)]
          rfl
        refine ⟨fun beyond => absurd beyond (Nat.not_succ_le_self _), ?_⟩
        simp only [Deed.apply, Lives.set_life, nobody]
        exact Life.sound_born
      · have ne : slot ≠ lives.count := Ne.symm eq
        have unchanged : ((Deed.create lives.count).apply lives).life slot = lives.life slot :=
          Lives.set_life_of_ne ne
        refine ⟨fun beyond => ?_, ?_⟩
        · rw [unchanged]
          exact sound.vacant (Nat.le_of_succ_le beyond)
        · rw [unchanged]
          exact sound.life
  | retain other =>
      refine sound.set (fun eq => ?_) fun _ => rfl
      subst eq
      exact ⟨allowed, sound.life.retain allowed⟩
  | release other destroys =>
      cases destroys with
      | false =>
          refine sound.set (fun eq => ?_) fun _ => rfl
          subst eq
          exact ⟨Nat.zero_lt_of_lt allowed, sound.life.release allowed⟩
      | true =>
          refine sound.set (fun eq => ?_) fun _ => rfl
          subst eq
          obtain ⟨last, idle⟩ := allowed
          exact ⟨last ▸ Nat.one_pos, sound.life.destroy idle⟩

theorem opens {hold : Hold} {next : Lives} (sound : lives.Sound slot holds)
    (opened : hold.Opens lives next) : next.Sound slot (hold :: holds) := by
  obtain ⟨place, writable⟩ := hold
  cases place with
  | cell other =>
      obtain ⟨access, enters, live, rfl⟩ := opened
      refine sound.set (fun eq => ?_) fun ne => Hold.users_cons_of_ne (by simp [ne])
      subst eq
      rw [Hold.users_cons_self]
      exact ⟨live, sound.life.enter enters live⟩
  | buffer index =>
      obtain rfl : next = lives := opened
      refine ⟨sound.vacant, ?_⟩
      rw [Hold.users_cons_of_ne (by simp)]
      exact sound.life

theorem closes {hold : Hold} (sound : lives.Sound slot (hold :: holds)) :
    (hold.close lives).Sound slot holds := by
  obtain ⟨place, writable⟩ := hold
  cases place with
  | cell other =>
      refine sound.set (fun eq => ?_) fun ne => (Hold.users_cons_of_ne (by simp [ne])).symm
      subst eq
      have fine := sound.life
      rw [Hold.users_cons_self] at fine
      exact ⟨fine.kept (by simp), fine.leave⟩
  | buffer index =>
      refine ⟨sound.vacant, ?_⟩
      have other : Place.buffer index ≠ .cell slot := by simp
      have same : Hold.users (.cell slot) (⟨.buffer index, writable⟩ :: holds) =
        Hold.users (.cell slot) holds :=
        Hold.users_cons_of_ne other
      rw [← same]
      exact sound.life

/-- Every step of a run is sound. -/
theorem leads {m : Moment σ} {next : Lives} (sound : m.world.lives.Sound slot m.holds)
    (leads : m.Leads next after) : next.Sound slot after := by
  cases leads with
  | deed does allowed lives =>
      subst lives
      exact sound.apply allowed
  | quiet still lives =>
      subst lives
      exact sound
  | opens still opened => exact sound.opens opened
  | closes still held lives =>
      subst lives
      rw [held] at sound
      exact sound.closes

end Lives.Sound

end Marshal
