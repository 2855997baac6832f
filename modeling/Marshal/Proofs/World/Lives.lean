import Mathlib
import Marshal.Program.Run
import Marshal.Proofs.World.Act

/-!
# Lives of instances, access and room

What the world says about its instances and buffers, apart from contents that may change: how many
references each instance has, whether it is there and who uses it, who uses each buffer, how large it
is, and what it holds if it is read-only.  Most actions are quiet: they leave all of this as it is.
-/

namespace Marshal

variable {σ α : Type}

/-- How an instance is doing. -/
@[ext] structure Life where
  references : Nat
  isPresent : Bool
  access : Access

def Life.none : Life := { references := 0, isPresent := false, access := .idle }

def Cell.life (cell : Cell σ) : Life :=
  { references := cell.references, isPresent := cell.state?.isSome, access := cell.access }

/-- How all instances are doing, and how many slots were taken for them so far. -/
@[ext] structure Lives where
  count : Nat
  life : Nat → Life

def Lives.set (lives : Lives) (slot : Nat) (life : Life) : Lives :=
  { lives with life := Function.update lives.life slot life }

@[simp] theorem Lives.set_self {lives : Lives} {slot : Nat} :
    lives.set slot (lives.life slot) = lives := by
  simp [Lives.set]

@[simp] theorem Lives.set_set {lives : Lives} {slot : Nat} {first second : Life} :
    (lives.set slot first).set slot second = lives.set slot second := by
  simp [Lives.set]

@[simp] theorem Lives.set_life {lives : Lives} {slot : Nat} {life : Life} :
    (lives.set slot life).life slot = life := by
  simp [Lives.set]

theorem Lives.set_life_of_ne {lives : Lives} {slot other : Nat} {life : Life} (ne : other ≠ slot) :
    (lives.set slot life).life other = lives.life other := by
  simp [Lives.set, ne]

@[simp] theorem Lives.set_count {lives : Lives} {slot : Nat} {life : Life} :
    (lives.set slot life).count = lives.count := rfl

namespace World

variable {w after : World σ} {handle : Handle}

def lives (w : World σ) : Lives where
  count := w.cells.length
  life slot := (w.cells[slot]?.map Cell.life).getD Life.none

def bufferAccess (w : World σ) (index : Nat) : Access :=
  (w.buffers[index]?.map Buffer.access).getD .idle

def room? (w : World σ) (index : Nat) : Option Nat :=
  w.buffers[index]?.map fun buffer => buffer.bytes.length

/-- No buffer goes away or changes its size. -/
def KeepsRoom (w after : World σ) : Prop :=
  ∀ index room, w.room? index = some room → after.room? index = some room

instance : IsPreorder (World σ) KeepsRoom where
  refl _ _ _ same := same
  trans _ _ _ first rest index room same := rest index room (first index room same)

/-- What a buffer holds, if it is read-only. -/
def sealed? (w : World σ) (index : Nat) : Option (List UInt8) :=
  w.buffers[index]?.bind fun buffer => if buffer.isReadonly then some buffer.bytes else none

/-- A read-only buffer stays so and holds what it held. -/
def KeepsSeal (index : Nat) (w after : World σ) : Prop :=
  ∀ bytes, w.sealed? index = some bytes → after.sealed? index = some bytes

instance (index : Nat) : IsPreorder (World σ) (KeepsSeal index) where
  refl _ _ same := same
  trans _ _ _ first rest bytes same := rest bytes (first bytes same)

/-- Instances live on as before, buffers are used as before and keep their sizes, and those that are
read-only what they hold. -/
structure Quiet (w after : World σ) : Prop where
  lives : after.lives = w.lives
  access : after.bufferAccess = w.bufferAccess
  room : w.KeepsRoom after
  sealed : ∀ index, w.KeepsSeal index after

instance : IsPreorder (World σ) Quiet where
  refl w := ⟨rfl, rfl, refl_of KeepsRoom w, fun index => refl_of (KeepsSeal index) w⟩
  trans _ _ _ first rest :=
    ⟨rest.lives.trans first.lives, rest.access.trans first.access,
      trans_of KeepsRoom first.room rest.room,
      fun index => trans_of (KeepsSeal index) (first.sealed index) (rest.sealed index)⟩

theorem quiet_of_eq (cells : after.cells = w.cells) (buffers : after.buffers = w.buffers) :
    w.Quiet after where
  lives := by simp only [World.lives, cells]
  access := by
    funext index
    simp only [bufferAccess, buffers]
  room index room same := by simpa only [room?, buffers] using same
  sealed index bytes same := by simpa only [sealed?, buffers] using same

/-- Nothing has changed but that more was logged. -/
def Logs (w after : World σ) : Prop := ∃ events, after = { w with journal := events ++ w.journal }

instance : IsPreorder (World σ) Logs where
  refl _ := ⟨[], rfl⟩
  trans _ _ _ := by
    rintro ⟨first, rfl⟩ ⟨rest, rfl⟩
    exact ⟨rest ++ first, by simp only [List.append_assoc]⟩

theorem Logs.quiet (logs : w.Logs after) : w.Quiet after := by
  obtain ⟨events, rfl⟩ := logs
  exact quiet_of_eq rfl rfl

theorem life_of_cell? {cell : Cell σ} (found : w.cell? handle = some cell) :
    w.lives.life handle.slot = cell.life := by
  simp only [cell?] at found
  simp [lives, found]

theorem life_of_none (missing : w.cell? handle = none) : w.lives.life handle.slot = Life.none := by
  simp only [cell?] at missing
  simp [lives, missing]

theorem lives_setCell {f : Cell σ → Cell σ} {cell : Cell σ} (found : w.cell? handle = some cell) :
    (w.setCell handle f).lives = w.lives.set handle.slot (f cell).life := by
  simp only [cell?] at found
  ext1
  · simp [lives, Lives.set, setCell]
  · funext slot
    by_cases same : slot = handle.slot
    · subst same
      simp [lives, Lives.set, setCell, found]
    · have other : handle.slot ≠ slot := Ne.symm same
      simp [lives, Lives.set, setCell, List.getElem?_modify, Function.comp_def, same, other]

theorem class?_setClass (w : World σ) (id other : Nat) (f : ClassDef (Program σ) → ClassDef (Program σ)) :
    (w.setClass id f).class? other = if id = other then (w.class? other).map f else w.class? other := by
  simp only [setClass, class?, List.getElem?_modify]
  split <;> simp

theorem setCell_of_none {f : Cell σ → Cell σ} (missing : w.cell? handle = none) :
    w.setCell handle f = w := by
  simp only [cell?] at missing
  have beyond : w.cells.length ≤ handle.slot := List.getElem?_eq_none_iff.mp missing
  simp [setCell, List.modify_eq_self beyond]

theorem modify_congr {items : List α} {place : Nat} {item : α} {f g : α → α}
    (found : items[place]? = some item) (same : f item = g item) :
    items.modify place f = items.modify place g := by
  refine List.ext_getElem? fun other => ?_
  rw [List.getElem?_modify, List.getElem?_modify]
  split
  · rename_i here
    subst here
    simp only [found, Option.map_eq_map, Option.map_some, same]
  · rfl

theorem modify_of_same {items : List α} {place : Nat} {item : α} {f : α → α}
    (found : items[place]? = some item) (same : f item = item) : items.modify place f = items := by
  have identity : items.modify place f = items.modify place id := modify_congr found same
  rw [identity, List.modify_id]

theorem setCell_setCell (f g : Cell σ → Cell σ) :
    (w.setCell handle f).setCell handle g = w.setCell handle (g ∘ f) := by
  simp only [setCell, List.modify_modify_eq]

theorem setCell_of_same {f : Cell σ → Cell σ} {cell : Cell σ} (found : w.cell? handle = some cell)
    (same : f cell = cell) : w.setCell handle f = w := by
  simp only [setCell, modify_of_same found same]

theorem setBuffer_congr {index : Nat} {buffer : Buffer} {f g : Buffer → Buffer}
    (found : w.buffers[index]? = some buffer) (same : f buffer = g buffer) :
    w.setBuffer index f = w.setBuffer index g := by
  simp only [setBuffer, modify_congr found same]

theorem quiet_setCell {f : Cell σ → Cell σ} (same : ∀ cell, (f cell).life = cell.life) :
    w.Quiet (w.setCell handle f) where
  lives := by
    cases found : w.cell? handle with
    | none => rw [setCell_of_none found]
    | some cell => rw [lives_setCell found, same, ← life_of_cell? found, Lives.set_self]
  access := rfl
  room _ _ same := same
  sealed _ _ same := same

theorem room?_setBuffer {f : Buffer → Buffer} (index : Nat)
    (room : ∀ buffer, (f buffer).bytes.length = buffer.bytes.length) (other : Nat) :
    (w.setBuffer index f).room? other = w.room? other := by
  simp only [room?, setBuffer, List.getElem?_modify]
  by_cases same : index = other
  · cases w.buffers[other]? <;> simp [same, room]
  · cases w.buffers[other]? <;> simp [same]

theorem keepsRoom_setBuffer {f : Buffer → Buffer} (index : Nat)
    (room : ∀ buffer, (f buffer).bytes.length = buffer.bytes.length) :
    w.KeepsRoom (w.setBuffer index f) :=
  fun other size same => by rwa [room?_setBuffer index room]

theorem sealed?_setBuffer_of_ne {f : Buffer → Buffer} {index other : Nat} (ne : other ≠ index) :
    (w.setBuffer index f).sealed? other = w.sealed? other := by
  simp only [sealed?, setBuffer, List.getElem?_modify, Ne.symm ne, ↓reduceIte, Option.map_eq_map,
    Option.map_id']

theorem bufferAccess_setBuffer {f : Buffer → Buffer} (index : Nat)
    (access : ∀ buffer, (f buffer).access = buffer.access) :
    (w.setBuffer index f).bufferAccess = w.bufferAccess := by
  funext other
  simp only [bufferAccess, setBuffer, List.getElem?_modify]
  by_cases same : index = other
  · cases w.buffers[other]? <;> simp [same, access]
  · cases w.buffers[other]? <;> simp [same]

/-- Other bytes of the same number may be put into a buffer that is not read-only. -/
theorem quiet_setBuffer {f : Buffer → Buffer} (index : Nat)
    (room : ∀ buffer, (f buffer).bytes.length = buffer.bytes.length)
    (access : ∀ buffer, (f buffer).access = buffer.access) (unsealed : w.sealed? index = none) :
    w.Quiet (w.setBuffer index f) where
  lives := rfl
  access := bufferAccess_setBuffer index access
  room := keepsRoom_setBuffer index room
  sealed other bytes same := by
    have ne : other ≠ index := by
      rintro rfl
      cases unsealed.symm.trans same
    rwa [sealed?_setBuffer_of_ne ne]

theorem quiet_addBuffer {buffer : Buffer} {count : Nat} (idle : buffer.access = .idle) :
    w.Quiet { w with arrayCount := count, buffers := w.buffers ++ [buffer] } where
  lives := rfl
  access := by
    funext index
    simp only [bufferAccess, List.getElem?_append]
    split
    · rfl
    · rename_i beyond
      rw [List.getElem?_eq_none (Nat.le_of_not_lt beyond)]
      cases index - w.buffers.length <;> simp [idle]
  room index room same := by
    obtain ⟨found, present, rfl⟩ := Option.map_eq_some_iff.mp same
    simp only [room?, List.getElem?_append_left (List.getElem?_eq_some_iff.mp present).1, present,
      Option.map_some]
  sealed index bytes same := by
    obtain ⟨found, present, rest⟩ := Option.bind_eq_some_iff.mp same
    simpa only [sealed?, List.getElem?_append_left (List.getElem?_eq_some_iff.mp present).1] using same

end World

end Marshal
