import Mathlib
import Marshal.Proofs.Value.Place

namespace Marshal

/-- Something nested more than `limit` levels deep, wherever it is. -/
def Error.tooDeepAt (limit : Nat) (place : String) : Error :=
  .typeMismatch s!"at most {limit} levels of nesting" "deeper nesting" place

namespace Value

variable {limit depth : Nat}

/-- What comes of a check that stops at the part with this path, or at none. -/
def verdict (limit : Nat) : Option Path → Except Error Unit
  | .none => .ok ()
  | some path => .error (.tooDeepAt limit path.text)

/-- The first of these paths that leads from `depth` to just below the limit. -/
def stop? (limit depth : Nat) (paths : List Path) : Option Path :=
  paths.find? fun path => depth + path.length = limit + 1

theorem stop?_here (within : depth ≤ limit + 1) (inside : List Path) :
    verdict limit (stop? limit depth ([] :: inside)) =
      if limit < depth then .error (.nestingTooDeep limit) else verdict limit (stop? limit depth inside) := by
  by_cases deep : limit < depth
  · have here : depth = limit + 1 := by omega
    simp only [stop?, List.length_nil, here, Nat.add_zero, decide_true, List.find?_cons_of_pos]
    rw [if_pos (Nat.lt_succ_self limit)]
    rfl
  · have above : ¬ depth + ([] : Path).length = limit + 1 := by
      rw [List.length_nil]
      omega
    simp only [stop?, List.find?_cons, above, decide_false, if_neg deep]

theorem stop?_under (step : Step) (inside : List Path) :
    stop? limit depth (inside.map (List.cons step)) =
      (stop? limit (depth + 1) inside).map (List.cons step) := by
  have longer : ∀ path : Path, depth + (step :: path).length = depth + 1 + path.length := by
    intro path
    rw [List.length_cons]
    omega
  simp only [stop?, List.find?_map, Function.comp_def, longer]

/-- Parts behind a step are gone through before the ones that follow. -/
theorem verdict_step (step : Step) (inside later : List Path) :
    verdict limit (stop? limit depth (inside.map (List.cons step) ++ later)) =
      match verdict limit (stop? limit (depth + 1) inside) with
      | .error e => .error (e.within step.text)
      | .ok () => verdict limit (stop? limit depth later) := by
  have apart : stop? limit depth (inside.map (List.cons step) ++ later) =
      ((stop? limit (depth + 1) inside).map (List.cons step)).or (stop? limit depth later) := by
    rw [← stop?_under, stop?, List.find?_append]
    rfl
  rw [apart]
  cases stop? limit (depth + 1) inside with
  | none => rfl
  | some path => exact congrArg Except.error (Error.within_typeMismatch step path _ _).symm

mutual

theorem checkDepthAt_eq (limit depth : Nat) (within : depth ≤ limit + 1) : (v : Value) →
    checkDepthAt limit depth v = verdict limit (stop? limit depth v.paths)
  | .seq items => by
      rw [paths, stop?_here within, checkDepthAt]
      by_cases deep : limit < depth
      · rw [if_pos deep, if_pos deep]
      · rw [if_neg deep, if_neg deep, checkItems_eq limit depth (Nat.le_of_not_lt deep) items 0]
  | .map entries => by
      rw [paths, stop?_here within, checkDepthAt]
      by_cases deep : limit < depth
      · rw [if_pos deep, if_pos deep]
      · rw [if_neg deep, if_neg deep, checkEntries_eq limit depth (Nat.le_of_not_lt deep) entries]
  | .none | .bool _ | .int _ _ | .float _ _ | .complex _ _ _ | .str _ | .bytes _ | .object _ | .array _ =>
      (stop?_here within []).symm

theorem checkItems_eq (limit depth : Nat) (shallow : depth ≤ limit) : (items : List Value) → (index : Nat) →
    checkItems limit depth index items = verdict limit (stop? limit depth (itemPaths index items))
  | [], _ => rfl
  | item :: rest, index => by
      rw [checkItems, itemPaths, verdict_step,
        checkDepthAt_eq limit (depth + 1) (Nat.succ_le_succ shallow) item,
        checkItems_eq limit depth shallow rest (index + 1)]
      rfl

theorem checkEntries_eq (limit depth : Nat) (shallow : depth ≤ limit) : (entries : List (Key × Value)) →
    checkEntries limit depth entries = verdict limit (stop? limit depth (entryPaths entries))
  | [] => rfl
  | (key, value) :: rest => by
      rw [checkEntries, entryPaths, verdict_step,
        checkDepthAt_eq limit (depth + 1) (Nat.succ_le_succ shallow) value,
        checkEntries_eq limit depth shallow rest]
      rfl

end

section Lengths

variable {length : Nat}

theorem exists_path_under (step : Step) (inside later : List Path) :
    (∃ path ∈ inside.map (List.cons step) ++ later, path.length = length + 1) ↔
      (∃ path ∈ inside, path.length = length) ∨ ∃ path ∈ later, path.length = length + 1 := by
  simp only [List.mem_append, List.mem_map, or_and_right, exists_or, exists_exists_and_eq_and,
    List.length_cons, Nat.add_right_cancel_iff]

mutual

/-- There are parts at every depth down to that of the deepest one. -/
theorem exists_path_iff : (v : Value) → (length : Nat) →
    ((∃ path ∈ v.paths, path.length = length) ↔ length ≤ v.nesting)
  | .seq items, 0 => iff_of_true ⟨[], List.mem_cons_self, rfl⟩ (Nat.zero_le _)
  | .map entries, 0 => iff_of_true ⟨[], List.mem_cons_self, rfl⟩ (Nat.zero_le _)
  | .seq items, length + 1 => by
      simpa [paths, nesting] using exists_itemPath_iff items 0 length
  | .map entries, length + 1 => by
      simpa [paths, nesting] using exists_entryPath_iff entries length
  | .none, _ | .bool _, _ | .int _ _, _ | .float _ _, _ | .complex _ _ _, _ | .str _, _ | .bytes _, _
  | .object _, _ | .array _, _ => by
      simp [paths, nesting, eq_comm]

theorem exists_itemPath_iff : (items : List Value) → (index length : Nat) →
    ((∃ path ∈ itemPaths index items, path.length = length + 1) ↔ length + 1 ≤ itemsNesting items)
  | [], _, _ => by simp [itemPaths, itemsNesting]
  | item :: rest, index, length => by
      rw [itemPaths, exists_path_under, exists_path_iff item length,
        exists_itemPath_iff rest (index + 1) length, itemsNesting]
      omega

theorem exists_entryPath_iff : (entries : List (Key × Value)) → (length : Nat) →
    ((∃ path ∈ entryPaths entries, path.length = length + 1) ↔ length + 1 ≤ entriesNesting entries)
  | [], _ => by simp [entryPaths, entriesNesting]
  | (key, value) :: rest, length => by
      rw [entryPaths, exists_path_under, exists_path_iff value length, exists_entryPath_iff rest length,
        entriesNesting]
      omega

end

end Lengths

theorem checkDepth_eq (limit : Nat) (v : Value) :
    v.checkDepth limit = verdict limit (stop? limit 0 v.paths) :=
  checkDepthAt_eq limit 0 (Nat.zero_le _) v

section Whole

variable {v : Value} {path : Path} {e : Error}

theorem stop?_eq_none : stop? limit 0 v.paths = .none ↔ v.nesting ≤ limit := by
  have deep := v.exists_path_iff (limit + 1)
  rw [stop?, List.find?_eq_none, ← Nat.not_lt, ← Nat.succ_le_iff, ← deep]
  simp

theorem checkDepth_iff : v.checkDepth limit = .ok () ↔ v.nesting ≤ limit := by
  rw [checkDepth_eq, ← stop?_eq_none]
  cases stop? limit 0 v.paths with
  | none => exact iff_of_true rfl rfl
  | some path => exact iff_of_false nofun nofun

theorem exists_stop (deep : limit < v.nesting) : ∃ path, stop? limit 0 v.paths = some path := by
  cases found : stop? limit 0 v.paths with
  | none => exact absurd (stop?_eq_none.mp found) (Nat.not_le_of_lt deep)
  | some path => exact ⟨path, rfl⟩

theorem checkDepth_of_stop (found : stop? limit 0 v.paths = some path) :
    v.checkDepth limit = .error (.tooDeepAt limit path.text) := by
  rw [checkDepth_eq, found]
  rfl

theorem checkDepth_of_deep (deep : limit < v.nesting) :
    ∃ path : Path, v.checkDepth limit = .error (.tooDeepAt limit path.text) := by
  obtain ⟨path, found⟩ := exists_stop deep
  exact ⟨path, checkDepth_of_stop found⟩

theorem deep_of_checkDepth (refused : v.checkDepth limit = .error e) : limit < v.nesting := by
  by_contra shallow
  rw [checkDepth_iff.mpr (Nat.le_of_not_lt shallow)] at refused
  cases refused

/-- A refused value has a part that is to blame. -/
theorem stop_of_checkDepth (refused : v.checkDepth limit = .error e) :
    ∃ path ∈ v.paths, e = .tooDeepAt limit path.text := by
  cases found : stop? limit 0 v.paths with
  | none =>
      rw [checkDepth_eq, found] at refused
      cases refused
  | some path =>
      exact ⟨path, List.mem_of_find?_eq_some found,
        Except.error.inj (refused.symm.trans (checkDepth_of_stop found))⟩

end Whole

/-- The check of a limit is exact.  A value passes just when it nests no deeper.  Otherwise the error is
located at the first part, depth first from left to right, that lies one level below the limit. -/
theorem checkDepth_exact (limit : Nat) (v : Value) :
    (v.checkDepth limit = .ok () ↔ v.nesting ≤ limit) ∧
    (limit < v.nesting → ∃ earlier path later, v.paths = earlier ++ path :: later ∧
      path.length = limit + 1 ∧ (∀ other ∈ earlier, other.length ≠ limit + 1) ∧
      v.checkDepth limit =
        .error (.typeMismatch s!"at most {limit} levels of nesting" "deeper nesting" path.text)) := by
  refine ⟨checkDepth_iff, fun deep => ?_⟩
  obtain ⟨path, found⟩ := exists_stop deep
  obtain ⟨reaches, earlier, later, parts, others⟩ := List.find?_eq_some_iff_append.mp found
  simp only [Nat.zero_add, decide_eq_true_eq] at reaches
  simp only [Nat.zero_add, Bool.not_eq_true', decide_eq_false_iff_not] at others
  exact ⟨earlier, path, later, parts, reaches, others, checkDepth_of_stop found⟩

/-- Two lists side by side, one of them down to the limit and the other a level further. -/
def stairs : Value :=
  .seq [.map [(.str "a", .seq [.seq []]), (.str "b", .seq [.none, .seq [.bool true, .bool false]])]]

theorem checkDepth_exact_stairs :
    3 < stairs.nesting ∧ ∃ path : Path, path.length = 4 ∧ path.text = "[0]['b'][1][0]" ∧
      stairs.checkDepth 3 =
        .error (.typeMismatch "at most 3 levels of nesting" "deeper nesting" path.text) := by
  have deep : 3 < stairs.nesting := by decide
  obtain ⟨earlier, path, later, parts, reaches, others, refused⟩ := (checkDepth_exact 3 stairs).2 deep
  have place : stairs.checkDepth 3 =
      .error (.typeMismatch "at most 3 levels of nesting" "deeper nesting" "[0]['b'][1][0]") := by cbv
  have same := Except.error.inj (refused.symm.trans place)
  injection same with _ _ text
  exact ⟨deep, path, reaches, text, refused⟩

end Value

end Marshal
