import Mathlib
import Marshal.Value.Basic

/-!
# Lineage of arrays

Arrays that are derived from one another form a forest: each names the one that it was derived from by its
number, which is smaller than its own, and has its memory.  So base numbers lead from every array to a root
with memory of its own, and arrays share their memory where the roots are the same.
-/

namespace Marshal

/-- Arrays in the order in which they were made, after so many others.  Each has the next number.  It holds
memory of its own, or it is a view that was derived from an earlier one and has that one's. -/
inductive Lineage (count : Nat) : List ArrayView → Prop
  | nil : Lineage count []
  | root {views : List ArrayView} {view : ArrayView} (earlier : Lineage count views)
      (id : view.id = count + views.length + 1) (holds : view.ownership ≠ .view) (base : view.base? = none)
      (apart : ∀ other ∈ views, other.buffer ≠ view.buffer) : Lineage count (views ++ [view])
  | derived {views : List ArrayView} {view source : ArrayView} (earlier : Lineage count views)
      (id : view.id = count + views.length + 1) (leans : view.ownership = .view)
      (base : view.base? = some source.id)
      (known : source ∈ views) (buffer : view.buffer = source.buffer) : Lineage count (views ++ [view])

namespace ArrayView

/-- Among some arrays, a view names another one as its base. -/
def Names (views : List ArrayView) (view source : ArrayView) : Prop :=
  source ∈ views ∧ view.base? = some source.id

/-- Following base numbers among some arrays ends at a root. -/
structure Ends (views : List ArrayView) (view root : ArrayView) : Prop where
  leads : Relation.ReflTransGen (Names views) view root
  root : root.base? = none

variable {views more : List ArrayView} {view source root other : ArrayView}

theorem sharesStorage_iff : view.sharesStorage other = true ↔ view.buffer = other.buffer := beq_iff_eq

theorem Names.append (names : view.Names views source) : view.Names (views ++ more) source :=
  ⟨List.mem_append_left _ names.1, names.2⟩

theorem Ends.append (ends : view.Ends views root) : view.Ends (views ++ more) root :=
  ⟨Relation.ReflTransGen.mono (fun _ _ => Names.append) _ _ ends.leads, ends.root⟩

theorem Ends.of_root (base : view.base? = none) : view.Ends views view := ⟨.refl, base⟩

theorem Ends.head (names : view.Names views source) (ends : source.Ends views root) : view.Ends views root :=
  ⟨.head names ends.leads, ends.root⟩

theorem Ends.eq_of_root (ends : view.Ends views root) (base : view.base? = none) : root = view := by
  rcases ends.leads.cases_head with same | ⟨_, names, _⟩
  · exact same.symm
  · cases base.symm.trans names.2

end ArrayView

namespace Lineage

open ArrayView

variable {count : Nat} {views : List ArrayView} {view source root other : ArrayView}

theorem id_le (lineage : Lineage count views) : ∀ view ∈ views, view.id ≤ count + views.length := by
  induction lineage with
  | nil => simp
  | root earlier id _ _ _ ih | derived earlier id _ _ _ _ ih =>
      rw [List.length_append, List.length_singleton]
      refine List.forall_mem_append.mpr ⟨fun other old => ?_, List.forall_mem_singleton.mpr ?_⟩
      · exact Nat.le_succ_of_le (ih other old)
      · exact Nat.le_of_eq id

/-- Arrays with the same number are the same. -/
theorem eq_of_id (lineage : Lineage count views) :
    ∀ view ∈ views, ∀ other ∈ views, view.id = other.id → view = other := by
  induction lineage with
  | nil => simp
  | root earlier id _ _ _ ih | derived earlier id _ _ _ _ ih =>
      have below := earlier.id_le
      intro first memberFirst second memberSecond same
      rcases List.mem_append.mp memberFirst with oldFirst | newFirst <;>
        rcases List.mem_append.mp memberSecond with oldSecond | newSecond
      · exact ih first oldFirst second oldSecond same
      · obtain rfl := List.mem_singleton.mp newSecond
        have := below first oldFirst
        omega
      · obtain rfl := List.mem_singleton.mp newFirst
        have := below second oldSecond
        omega
      · exact (List.mem_singleton.mp newFirst).trans (List.mem_singleton.mp newSecond).symm

/-- Those without a base are those that hold memory of their own. -/
theorem base?_eq_none_iff (lineage : Lineage count views) :
    ∀ view ∈ views, view.base? = none ↔ view.ownership ≠ .view := by
  induction lineage with
  | nil => simp
  | root earlier id holds base _ ih =>
      exact List.forall_mem_append.mpr ⟨ih, List.forall_mem_singleton.mpr (iff_of_true base holds)⟩
  | derived earlier id leans base _ _ ih =>
      exact List.forall_mem_append.mpr ⟨ih, List.forall_mem_singleton.mpr (by simp [base, leans])⟩

/-- What a view names as its base is an earlier array with the same memory. -/
theorem named (lineage : Lineage count views) : ∀ view ∈ views, ∀ id, view.base? = some id →
    ∃ source, view.Names views source ∧ source.id = id ∧ id < view.id ∧ view.buffer = source.buffer := by
  induction lineage with
  | nil => simp
  | @root views view earlier id holds base apart ih =>
      refine List.forall_mem_append.mpr ⟨fun other old number based => ?_,
        List.forall_mem_singleton.mpr fun number based => ?_⟩
      · obtain ⟨source, names, rest⟩ := ih other old number based
        exact ⟨source, names.append, rest⟩
      · cases base.symm.trans based
  | @derived views view source earlier id leans base known buffer ih =>
      refine List.forall_mem_append.mpr ⟨fun other old number based => ?_,
        List.forall_mem_singleton.mpr fun number based => ?_⟩
      · obtain ⟨source, names, rest⟩ := ih other old number based
        exact ⟨source, names.append, rest⟩
      · cases base.symm.trans based
        have below := earlier.id_le source known
        exact ⟨source, ⟨List.mem_append_left _ known, base⟩, rfl, by omega, buffer⟩

theorem exists_ends (lineage : Lineage count views) :
    ∀ view ∈ views, ∃ root ∈ views, view.Ends views root ∧ root.buffer = view.buffer := by
  induction lineage with
  | nil => simp
  | @root views view earlier id holds base apart ih =>
      refine List.forall_mem_append.mpr ⟨fun other old => ?_, List.forall_mem_singleton.mpr ?_⟩
      · obtain ⟨root, there, ends, buffer⟩ := ih other old
        exact ⟨root, List.mem_append_left _ there, ends.append, buffer⟩
      · exact ⟨view, List.mem_append_right _ (List.mem_singleton_self view), .of_root base, rfl⟩
  | @derived views view source earlier id leans base known buffer ih =>
      refine List.forall_mem_append.mpr ⟨fun other old => ?_, List.forall_mem_singleton.mpr ?_⟩
      · obtain ⟨root, there, ends, buffer⟩ := ih other old
        exact ⟨root, List.mem_append_left _ there, ends.append, buffer⟩
      · -- the root of what it was derived from
        obtain ⟨root, there, ends, same⟩ := ih source known
        have names : view.Names (views ++ [view]) source := ⟨List.mem_append_left _ known, base⟩
        exact ⟨root, List.mem_append_left _ there, .head names ends.append, same.trans buffer.symm⟩

theorem ends_unique (lineage : Lineage count views) (ends : view.Ends views root)
    (others : view.Ends views other) :
    root = other := by
  have single : Relator.RightUnique (Names views) := fun _ first second namesFirst namesSecond =>
    lineage.eq_of_id first namesFirst.1 second namesSecond.1
      (Option.some.inj (namesFirst.2.symm.trans namesSecond.2))
  -- one of the two lies on the way from the other, and a root leads nowhere
  rcases Relation.ReflTransGen.total_of_right_unique single ends.leads others.leads with further | further
  · exact (Ends.eq_of_root ⟨further, others.root⟩ ends.root).symm
  · exact Ends.eq_of_root ⟨further, ends.root⟩ others.root

/-- Roots with the same memory are the same. -/
theorem eq_of_roots (lineage : Lineage count views) : ∀ root ∈ views, ∀ other ∈ views,
    root.base? = none → other.base? = none → root.buffer = other.buffer → root = other := by
  induction lineage with
  | nil => simp
  | @root views view earlier id holds base apart ih =>
      intro first memberFirst second memberSecond rootFirst rootSecond same
      rcases List.mem_append.mp memberFirst with oldFirst | newFirst <;>
        rcases List.mem_append.mp memberSecond with oldSecond | newSecond
      · exact ih first oldFirst second oldSecond rootFirst rootSecond same
      · obtain rfl := List.mem_singleton.mp newSecond
        exact absurd same (apart first oldFirst)
      · obtain rfl := List.mem_singleton.mp newFirst
        exact absurd same.symm (apart second oldSecond)
      · exact (List.mem_singleton.mp newFirst).trans (List.mem_singleton.mp newSecond).symm
  | @derived views view source earlier id leans base known buffer ih =>
      have old : ∀ other ∈ views ++ [view], other.base? = none → other ∈ views := by
        intro other member rooted
        rcases List.mem_append.mp member with old | new
        · exact old
        · obtain rfl := List.mem_singleton.mp new
          cases base.symm.trans rooted
      intro first memberFirst second memberSecond rootFirst rootSecond same
      exact ih first (old first memberFirst rootFirst) second (old second memberSecond rootSecond)
        rootFirst rootSecond same

theorem root_of_ends (lineage : Lineage count views) (member : view ∈ views) (ends : view.Ends views root) :
    root ∈ views ∧ root.ownership ≠ .view ∧ root.buffer = view.buffer := by
  obtain ⟨found, there, foundEnds, buffer⟩ := lineage.exists_ends view member
  obtain rfl := lineage.ends_unique ends foundEnds
  exact ⟨there, (lineage.base?_eq_none_iff root there).mp ends.root, buffer⟩

/-- Arrays have the same memory where their roots are the same. -/
theorem buffer_eq_iff (lineage : Lineage count views) {otherRoot : ArrayView} (member : view ∈ views)
    (memberOther : other ∈ views) (ends : view.Ends views root) (ends' : other.Ends views otherRoot) :
    view.buffer = other.buffer ↔ root = otherRoot := by
  obtain ⟨there, _, buffer⟩ := lineage.root_of_ends member ends
  obtain ⟨there', _, buffer'⟩ := lineage.root_of_ends memberOther ends'
  rw [← buffer, ← buffer']
  constructor
  · exact lineage.eq_of_roots root there otherRoot there' ends.root ends'.root
  · exact congrArg ArrayView.buffer

end Lineage

end Marshal
