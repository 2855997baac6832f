import Mathlib
import Marshal.Program.Native
import Marshal.Proofs.Ty.Matching
import Marshal.Proofs.Value.Depth

namespace Marshal

/-- The location of an error begins with a name. -/
def Error.LocatedAt (name : String) (e : Error) : Prop := ∃ place, e.location? = some (name ++ place)

theorem Error.joinLocation_begins (name location : String) :
    ∃ place, joinLocation name location = name ++ place := by
  simp only [joinLocation]
  split
  · exact ⟨location, rfl⟩
  · exact ⟨"." ++ location, String.append_assoc⟩

theorem Error.locatedAt_typeMismatch (name expected actual location : String) :
    (within name (.typeMismatch expected actual location)).LocatedAt name := by
  obtain ⟨place, begins⟩ := joinLocation_begins name location
  exact ⟨place, congrArg some begins⟩

theorem Error.locatedAt_numericOverflow (name value target location : String) :
    (within name (.numericOverflow value target location)).LocatedAt name := by
  obtain ⟨place, begins⟩ := joinLocation_begins name location
  exact ⟨place, congrArg some begins⟩

theorem Ty.locatedAt_of_decode {t : Ty} {v : Value} {e : Error} (failed : t.decode v = .error e)
    (name : String) : (e.within name).LocatedAt name := by
  obtain ⟨node, _, _, rfl⟩ := misfit_of_decode failed
  simp only [Node.error, Demand.error]
  cases node.demand.integer? with
  | none => exact Error.locatedAt_typeMismatch name _ _ _
  | some overflow => exact Error.locatedAt_numericOverflow name _ _ _

theorem Value.locatedAt_of_checkDepth {limit : Nat} {v : Value} {e : Error}
    (refused : v.checkDepth limit = .error e) (name : String) : (e.within name).LocatedAt name := by
  obtain ⟨path, _, same⟩ := stop_of_checkDepth refused
  rw [same]
  exact Error.locatedAt_typeMismatch name _ _ _

section Binding

variable {function : String} {params : List Param} {positional args : List Value} {keywords : Keywords}
  {places placed : List (Option Value)}

theorem placeKeyword_length {keyword : String × Value}
    (put : placeKeyword function params places keyword = .ok placed) :
    placed.length = places.length := by
  simp only [placeKeyword] at put
  split at put
  · cases put
  · split at put
    · cases put
      exact List.length_set
    · cases put

theorem placeKeywords_length
    (put : keywords.foldlM (placeKeyword function params) places = .ok placed) :
    placed.length = places.length := by
  induction keywords generalizing places with
  | nil =>
      cases put
      rfl
  | cons keyword rest ih =>
      rw [List.foldlM_cons] at put
      cases first : placeKeyword function params places keyword with
      | error e =>
          rw [first] at put
          cases put
      | ok next =>
          rw [first] at put
          exact (ih put).trans (placeKeyword_length first)

/-- The places of the parameters once the positional arguments are in theirs. -/
def startingPlaces (params : List Param) (positional : List Value) : List (Option Value) :=
  positional.map some ++ List.replicate (params.length - positional.length) none

theorem startingPlaces_length (few : positional.length ≤ params.length) :
    (startingPlaces params positional).length = params.length := by
  rw [startingPlaces, List.length_append, List.length_map, List.length_replicate]
  omega

/-- Every place that is left empty belongs to a parameter with a default. -/
def Complete (params : List Param) (placed : List (Option Value)) : Prop :=
  ∀ (place : Nat) (param : Param), params[place]? = some param → placed[place]? = some none →
    param.default?.isSome

theorem complete_iff : Complete params placed ↔
    ((placed.zip params).filter fun (place, param) => place.isNone && param.isRequired).isEmpty = true := by
  rw [List.isEmpty_iff, List.filter_eq_nil_iff]
  constructor
  · rintro complete ⟨content, param⟩ member
    obtain ⟨place, there⟩ := List.mem_iff_getElem?.mp member
    obtain ⟨here, declared⟩ := List.getElem?_zip_eq_some.mp there
    cases content with
    | some v => simp
    | none =>
        have given := complete place param declared here
        simpa [Param.isRequired, Option.isSome_iff_ne_none] using given
  · intro nothing place param declared empty
    have pair : (placed.zip params)[place]? = some (none, param) :=
      List.getElem?_zip_eq_some.mpr ⟨empty, declared⟩
    simpa [Param.isRequired, Option.isSome_iff_ne_none] using nothing _ (List.mem_of_getElem? pair)

/-- What is in the place of a parameter, or else its default. -/
def settle (place : Option Value) (param : Param) : Value := (place.or param.default?).getD .none

theorem bindArguments_of_placed (few : positional.length ≤ params.length)
    (put : keywords.foldlM (placeKeyword function params) (startingPlaces params positional) = .ok placed)
    (complete : Complete params placed) :
    bindArguments function params positional keywords = .ok (placed.zipWith settle params) := by
  have enough : ¬ params.length < positional.length := Nat.not_lt.mpr few
  have nothing := complete_iff.mp complete
  rw [← List.map_uncurry_zip_eq_zipWith]
  simp only [startingPlaces] at put
  simp only [bindArguments, enough, ↓reduceIte, put, bind, Except.bind, nothing, Bool.not_true,
    Bool.false_eq_true]
  rfl

/-- Bound arguments: the positional ones are in the first places, keywords took others, and what was left had
a default. -/
theorem placed_of_bindArguments (bound : bindArguments function params positional keywords = .ok args) :
    positional.length ≤ params.length ∧
      ∃ placed, keywords.foldlM (placeKeyword function params) (startingPlaces params positional) =
        .ok placed ∧
        Complete params placed ∧ args = placed.zipWith settle params := by
  unfold bindArguments at bound
  by_cases many : params.length < positional.length
  · simp only [many, ↓reduceIte] at bound
    cases bound
  · have few := Nat.le_of_not_lt many
    simp only [many, ↓reduceIte] at bound
    refine ⟨few, ?_⟩
    change ((keywords.foldlM (placeKeyword function params) (startingPlaces params positional)).bind _) = _
      at bound
    cases put : keywords.foldlM (placeKeyword function params) (startingPlaces params positional) with
    | error e =>
        rw [put] at bound
        cases bound
    | ok placed =>
        rw [put] at bound
        simp only [Except.bind] at bound
        split at bound
        · cases bound
        · rename_i nothing
          cases bound
          refine ⟨placed, rfl, complete_iff.mpr ?_, ?_⟩
          · simpa only [Bool.not_eq_true', Bool.not_eq_false] using nothing
          · rw [← List.map_uncurry_zip_eq_zipWith]
            rfl

theorem bindArguments_length
    (bound : bindArguments function params positional keywords = .ok args) :
    args.length = params.length := by
  obtain ⟨few, placed, put, _, rfl⟩ := placed_of_bindArguments bound
  rw [List.length_zipWith, placeKeywords_length put, startingPlaces_length few, Nat.min_self]

/-- As many positional arguments as there are parameters are bound in their order. -/
theorem bindArguments_of_all (count : positional.length = params.length) :
    bindArguments function params positional [] = .ok positional := by
  have enough : ¬ params.length < positional.length := by omega
  have noPlaces : params.length - positional.length = 0 := by omega
  simp only [bindArguments, enough, ↓reduceIte, noPlaces, List.replicate_zero, List.append_nil,
    List.foldlM_nil, pure_bind]
  rw [List.filter_eq_nil_iff.mpr]
  · refine congrArg Except.ok ?_
    rw [List.zip_map_left, List.map_map]
    exact (List.map_congr_left fun entry _ => rfl).trans (List.map_fst_zip (Nat.le_of_eq count))
  · intro entry member
    obtain ⟨v, _, given⟩ := List.mem_map.mp (List.of_mem_zip member).1
    simp [← given]

/-- Positional arguments are bound to as many required parameters, as they are. -/
theorem bindArguments_of_required (required : ∀ param ∈ params, param.default? = none)
    (bound : bindArguments function params positional [] = .ok args) : args = positional := by
  obtain ⟨few, placed, put, complete, _⟩ := placed_of_bindArguments bound
  have start : placed = startingPlaces params positional := by
    rw [List.foldlM_nil] at put
    cases put
    rfl
  have count : positional.length = params.length := by
    by_contra other
    have fewer : positional.length < params.length := Nat.lt_of_le_of_ne few other
    have declared := List.getElem?_eq_getElem fewer
    have empty : placed[positional.length]? = some none := by
      rw [start, startingPlaces, List.getElem?_append_right (by simp)]
      simp [fewer]
    have given := complete _ _ declared empty
    rw [required _ (List.getElem_mem fewer)] at given
    cases given
  exact (Except.ok.inj ((bindArguments_of_all count).symm.trans bound)).symm

end Binding

section Nesting

variable {limit : Nat} {params : List Param} {args : List Value}

theorem checkNesting_of_shallow (shallow : ∀ v ∈ args, v.nesting ≤ limit) :
    checkNesting limit params args = .ok () := by
  induction params generalizing args with
  | nil => rfl
  | cons param params ih =>
      cases args with
      | nil => rfl
      | cons v args =>
          simp only [List.forall_mem_cons] at shallow
          simp only [checkNesting, Value.checkDepth_iff.mpr shallow.1]
          exact ih shallow.2

/-- The first argument that nests too deep gives the error, located at its parameter. -/
theorem checkNesting_of_deep {index : Nat} {param : Param} {v : Value} {e : Error}
    (declared : params[index]? = some param) (given : args[index]? = some v)
    (refused : v.checkDepth limit = .error e)
    (shallow : ∀ earlier ∈ args.take index, earlier.nesting ≤ limit) :
    checkNesting limit params args = .error (e.within param.name) := by
  induction index generalizing params args with
  | zero =>
      obtain ⟨params, rfl⟩ : ∃ rest, params = param :: rest := by
        cases params <;> simp_all
      obtain ⟨args, rfl⟩ : ∃ rest, args = v :: rest := by
        cases args <;> simp_all
      simp only [checkNesting, refused]
  | succ index ih =>
      cases params with
      | nil => cases declared
      | cons first params =>
          cases args with
          | nil => cases given
          | cons u args =>
              simp only [List.take_succ_cons, List.forall_mem_cons] at shallow
              simp only [checkNesting, Value.checkDepth_iff.mpr shallow.1]
              exact ih declared given shallow.2

theorem shallow_or_deep (limit : Nat) (args : List Value) : (∀ v ∈ args, v.nesting ≤ limit) ∨
    ∃ index v, args[index]? = some v ∧ limit < v.nesting ∧
      ∀ earlier ∈ args.take index, earlier.nesting ≤ limit := by
  induction args with
  | nil => exact .inl (by simp)
  | cons v args ih =>
      by_cases deep : limit < v.nesting
      · exact .inr ⟨0, v, rfl, deep, by simp⟩
      · have here : v.nesting ≤ limit := Nat.le_of_not_lt deep
        rcases ih with shallow | ⟨index, u, given, deeper, shallow⟩
        · exact .inl (List.forall_mem_cons.mpr ⟨here, shallow⟩)
        · exact .inr ⟨index + 1, u, given, deeper, List.forall_mem_cons.mpr ⟨here, shallow⟩⟩

end Nesting

/-- Typed arguments are the converted values, in their order. -/
def Args.Converted : (types : List Ty) → List Value → Args types → Prop
  | [], values, _ => values = []
  | t :: types, values, (x, xs) =>
    ∃ v rest, values = v :: rest ∧ t.decode v = .ok x ∧ Converted types rest xs

section Conversion

variable {types : List Ty} {args : List Value}

theorem decodeArgs_of_converted {xs : Args types} (converted : Args.Converted types args xs) (start : Nat) :
    decodeArgs types start args = .ok xs := by
  induction types generalizing args start with
  | nil => rfl
  | cons t types ih =>
      obtain ⟨x, xs⟩ := xs
      obtain ⟨v, rest, rfl, decoded, converted⟩ := converted
      simp only [decodeArgs, List.headD_cons, decoded, List.tail_cons, ih converted]

/-- The first argument that does not convert gives the error. -/
theorem decodeArgs_of_failed {index : Nat} {t : Ty} {v : Value} {e : Error}
    (typed : types[index]? = some t) (given : args[index]? = some v) (failed : t.decode v = .error e)
    (converts : ∀ pair ∈ (types.zip args).take index, ∃ x, pair.1.decode pair.2 = .ok x) (start : Nat) :
    decodeArgs types start args = .error (.argument (start + index) e) := by
  induction index generalizing types args start with
  | zero =>
      obtain ⟨types, rfl⟩ : ∃ rest, types = t :: rest := by
        cases types <;> simp_all
      obtain ⟨args, rfl⟩ : ∃ rest, args = v :: rest := by
        cases args <;> simp_all
      simp only [decodeArgs, List.headD_cons, failed, Nat.add_zero]
  | succ index ih =>
      cases types with
      | nil => cases typed
      | cons first types =>
          cases args with
          | nil => cases given
          | cons u args =>
              simp only [List.zip_cons_cons, List.take_succ_cons, List.forall_mem_cons] at converts
              obtain ⟨⟨x, decoded⟩, converts⟩ := converts
              simp only [decodeArgs, List.headD_cons, decoded, List.tail_cons,
                ih typed given converts (start + 1)]
              rw [Nat.add_assoc, Nat.add_comm 1 index]

/-- Either all arguments convert, or there is a first one that does not. -/
theorem converted_or_failed (lengths : args.length = types.length) :
    (∃ xs, Args.Converted types args xs) ∨
      ∃ index t v e, types[index]? = some t ∧ args[index]? = some v ∧ t.decode v = .error e ∧
        ∀ pair ∈ (types.zip args).take index, ∃ x, pair.1.decode pair.2 = .ok x := by
  induction types generalizing args with
  | nil => exact .inl ⟨(), List.length_eq_zero_iff.mp lengths⟩
  | cons t types ih =>
      cases args with
      | nil => cases lengths
      | cons v args =>
          cases decoded : t.decode v with
          | error e => exact .inr ⟨0, t, v, e, rfl, rfl, decoded, by simp⟩
          | ok x =>
              rcases ih (Nat.succ.inj lengths) with ⟨xs, converted⟩ |
                ⟨index, s, u, e, typed, given, failed, converts⟩
              · exact .inl ⟨(x, xs), v, args, rfl, decoded, converted⟩
              · refine .inr ⟨index + 1, s, u, e, typed, given, failed, ?_⟩
                simpa only [List.zip_cons_cons, List.take_succ_cons, List.forall_mem_cons] using
                  ⟨⟨x, decoded⟩, converts⟩

end Conversion

/-- What the checks before native code come to: typed arguments for it, or the error of the first check
that fails.  First the arguments are bound, then none may nest too deep, then the instance has to be
free, if there is one, and last all arguments have to convert. -/
inductive Screened (function : String) (params : List Param) (types : List Ty) (limit : Nat)
    (busy? : Option Error) (positional : List Value) (keywords : Keywords) :
    Except Error (Args types) → Prop
  | unbound {e : Error} (unbound : bindArguments function params positional keywords = .error e) :
      Screened function params types limit busy? positional keywords (.error e)
  | tooDeep {args : List Value} {index : Nat} {param : Param} {v : Value} {e : Error}
      (bound : bindArguments function params positional keywords = .ok args)
      (declared : params[index]? = some param) (given : args[index]? = some v)
      (deep : limit < v.nesting) (refused : v.checkDepth limit = .error e)
      (shallow : ∀ earlier ∈ args.take index, earlier.nesting ≤ limit) :
      Screened function params types limit busy? positional keywords (.error (e.within param.name))
  | busy {args : List Value} {e : Error}
      (bound : bindArguments function params positional keywords = .ok args)
      (shallow : ∀ v ∈ args, v.nesting ≤ limit) (busy : busy? = some e) :
      Screened function params types limit busy? positional keywords (.error e)
  | unconverted {args : List Value} {index : Nat} {param : Param} {t : Ty} {v : Value} {e : Error}
      (bound : bindArguments function params positional keywords = .ok args)
      (shallow : ∀ v ∈ args, v.nesting ≤ limit) (free : busy? = none)
      (declared : params[index]? = some param) (typed : types[index]? = some t)
      (given : args[index]? = some v) (failed : t.decode v = .error e)
      (converts : ∀ pair ∈ (types.zip args).take index, ∃ x, pair.1.decode pair.2 = .ok x) :
      Screened function params types limit busy? positional keywords (.error (e.within param.name))
  | passed {args : List Value} {xs : Args types}
      (bound : bindArguments function params positional keywords = .ok args)
      (shallow : ∀ v ∈ args, v.nesting ≤ limit) (free : busy? = none)
      (converted : Args.Converted types args xs) :
      Screened function params types limit busy? positional keywords (.ok xs)

/-- The checks always come to something. -/
theorem Screened.exists {params : List Param} {types : List Ty} (lengths : params.length = types.length)
    (function : String) (limit : Nat) (busy? : Option Error) (positional : List Value)
    (keywords : Keywords) :
    ∃ verdict, Screened function params types limit busy? positional keywords verdict := by
  cases bound : bindArguments function params positional keywords with
  | error e => exact ⟨_, .unbound bound⟩
  | ok args =>
      have count := bindArguments_length bound
      rcases shallow_or_deep limit args with shallow | ⟨index, v, given, deep, shallow⟩
      · cases occupied : busy? with
        | some e => exact ⟨_, .busy bound shallow rfl⟩
        | none =>
            rcases converted_or_failed (count.trans lengths) with ⟨xs, converted⟩ |
              ⟨index, t, v, e, typed, given, failed, converts⟩
            · exact ⟨_, .passed bound shallow rfl converted⟩
            · obtain ⟨inside, _⟩ := List.getElem?_eq_some_iff.mp given
              have declared := List.getElem?_eq_getElem (count ▸ inside)
              exact ⟨_, .unconverted bound shallow rfl declared typed given failed converts⟩
      · obtain ⟨inside, _⟩ := List.getElem?_eq_some_iff.mp given
        have declared := List.getElem?_eq_getElem (count ▸ inside)
        obtain ⟨path, refused⟩ := Value.checkDepth_of_deep deep
        exact ⟨_, .tooDeep bound declared given deep refused shallow⟩

end Marshal
