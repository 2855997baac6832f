import Mathlib
import Marshal.Proofs.Call.Limit
import Marshal.Proofs.Ty.Location

namespace Marshal

open Act hiding pure bind
open Value (Path Step)

variable {σ α β : Type}

namespace Error

/-- A conversion error about a part of a value that goes by a name. -/
def Below (name : String) (v : Value) (e : Error) : Prop :=
  ∃ path : Path, path.Leads v ∧ e.location? = some (name ++ path.text)

variable {e : Error} {v : Value}

theorem kind_of_location? {place : String} (located : e.location? = some place) :
    e.kind = .typeMismatch := by
  cases e with
  | typeMismatch | numericOverflow => rfl
  | _ => cases located

theorem location?_within {place : String} (located : e.location? = some place) (segment : String) :
    (e.within segment).location? = some (joinLocation segment place) := by
  cases e with
  | typeMismatch expected actual location =>
      cases located
      rfl
  | numericOverflow value target location =>
      cases located
      rfl
  | _ => cases located

/-- An error about a part of an unnamed value becomes one about a part of the value under its name. -/
theorem Below.within (below : Below "" v e) (name : String) : Below name v (e.within name) := by
  obtain ⟨path, leads, located⟩ := below
  refine ⟨path, leads, ?_⟩
  rw [location?_within located, String.empty_append, joinLocation_of_bracket path.text_bracket]

end Error

namespace Value

/-- The nesting check refuses a value for a part of it. -/
theorem below_of_checkDepth {limit : Nat} {v : Value} {e : Error} (refused : v.checkDepth limit = .error e) :
    e.Below "" v := by
  obtain ⟨path, member, same⟩ := stop_of_checkDepth refused
  refine ⟨path, v.leads_of_mem_paths member, ?_⟩
  rw [same, String.empty_append]
  rfl

end Value

namespace Ty

/-- A conversion fails for a part of the value, and only if the value does not match. -/
theorem below_of_decode {t : Ty} {v : Value} {e : Error} (failed : t.decode v = .error e) :
    e.Below "" v ∧ ¬ t.Matches v := by
  obtain ⟨node, member, misfits, rfl⟩ := misfit_of_decode failed
  refine ⟨⟨node.path, t.leads_of_mem_nodes member, ?_⟩, fun fits => ?_⟩
  · rw [String.empty_append, Node.error, Demand.error]
    cases node.demand.integer? <;> rfl
  · rw [(t.matches_iff_fits v).mp fits node member] at misfits
    cases misfits

end Ty

section Binding

variable {function : String} {params : List Param} {positional args : List Value} {keywords : Keywords}
  {places : List (Option Value)} {e : Error}

theorem arity_of_placeKeyword {keyword : String × Value}
    (refused : placeKeyword function params places keyword = .error e) :
    ∃ detail, e = .arity function detail := by
  simp only [placeKeyword] at refused
  split at refused
  · exact ⟨_, (Except.error.inj refused).symm⟩
  · split at refused
    · cases refused
    · exact ⟨_, (Except.error.inj refused).symm⟩

theorem arity_of_placeKeywords (refused : keywords.foldlM (placeKeyword function params) places = .error e) :
    ∃ detail, e = .arity function detail := by
  induction keywords generalizing places with
  | nil => cases refused
  | cons keyword rest ih =>
      rw [List.foldlM_cons] at refused
      cases first : placeKeyword function params places keyword with
      | error inner =>
          rw [first] at refused
          cases refused
          exact arity_of_placeKeyword first
      | ok next =>
          rw [first] at refused
          exact ih refused

/-- Arguments that cannot be bound are blamed on the function. -/
theorem arity_of_bindArguments (refused : bindArguments function params positional keywords = .error e) :
    ∃ detail, e = .arity function detail := by
  unfold bindArguments at refused
  by_cases many : params.length < positional.length
  · simp only [many, ↓reduceIte] at refused
    exact ⟨_, (Except.error.inj refused).symm⟩
  · simp only [many, ↓reduceIte] at refused
    cases put : keywords.foldlM (placeKeyword function params)
        (positional.map some ++ List.replicate (params.length - positional.length) none) with
    | error inner =>
        rw [put] at refused
        cases refused
        exact arity_of_placeKeywords put
    | ok placed =>
        rw [put] at refused
        simp only [bind, Except.bind, pure, Except.pure] at refused
        split at refused
        · exact ⟨_, (Except.error.inj refused).symm⟩
        · cases refused

end Binding

/-- An argument is refused for its nesting, or because it does not convert to the type that native code
takes in its place. -/
def Offends (limit : Nat) (types : List Ty) (index : Nat) (v : Value) : Prop :=
  limit < v.nesting ∨ ∃ t, types[index]? = some t ∧ ¬ t.Matches v

/-- The names in an error of a call: one about how many arguments were given names the function, and one
about a value is located below the name of a parameter, in the argument that offends there. -/
structure Error.Named (function : String) (params : List Param) (limit : Nat) (types : List Ty)
    (positional : List Value) (keywords : Keywords) (e : Error) : Prop where
  counted {named detail : String} (arity : e = .arity named detail) : named = function
  located {place : String} (found : e.location? = some place) :
    ∃ args index param v path, bindArguments function params positional keywords = .ok args ∧
      params[index]? = some param ∧ args[index]? = some v ∧ Offends limit types index v ∧
      Path.Leads path v ∧ place = param.name ++ path.text

section Named

variable {function : String} {params : List Param} {limit : Nat} {types : List Ty}
  {positional args : List Value} {keywords : Keywords} {e : Error} {index : Nat} {param : Param} {v : Value}

theorem Error.Named.of_arity (detail : String) :
    Named function params limit types positional keywords (.arity function detail) where
  counted arity := (Error.arity.inj arity).1.symm
  located found := by cases found

theorem Error.Named.of_below (bound : bindArguments function params positional keywords = .ok args)
    (declared : params[index]? = some param) (given : args[index]? = some v)
    (offends : Offends limit types index v) (below : e.Below param.name v) :
    Named function params limit types positional keywords e := by
  obtain ⟨path, leads, located⟩ := below
  refine ⟨fun arity => ?_, fun found => ?_⟩
  · subst arity
    cases located
  · exact ⟨args, index, param, v, path, bound, declared, given, offends, leads,
      (Option.some.inj (located.symm.trans found)).symm⟩

/-- An error that does not speak of arguments names nothing. -/
theorem Error.Named.of_other (arity : ∀ named detail, e ≠ .arity named detail)
    (unlocated : e.location? = none) : Named function params limit types positional keywords e where
  counted same := absurd same (arity _ _)
  located found := by cases unlocated.symm.trans found

/-- The checks before typed native code name what is to blame. -/
theorem Screened.named {busy? : Option Error}
    (free : ∀ e, busy? = some e → Error.Named function params limit types positional keywords e)
    (screened : Screened function params types limit busy? positional keywords (.error e)) :
    Error.Named function params limit types positional keywords e := by
  cases screened with
  | unbound unbound =>
      obtain ⟨detail, rfl⟩ := arity_of_bindArguments unbound
      exact .of_arity detail
  | tooDeep bound declared given deep refused shallow =>
      exact .of_below bound declared given (.inl deep) ((Value.below_of_checkDepth refused).within _)
  | busy bound shallow busy => exact free e busy
  | unconverted bound shallow free declared typed given failed converts =>
      obtain ⟨below, unmatched⟩ := Ty.below_of_decode failed
      exact .of_below bound declared given (.inr ⟨_, typed, unmatched⟩) (below.within _)

/-- What the checks before native code refuse is the number of arguments or one of them. -/
theorem Screened.kind
    (screened : Screened function params types limit none positional keywords (.error e)) :
    e.kind = .arity ∨ e.kind = .typeMismatch := by
  cases screened with
  | unbound unbound =>
      obtain ⟨detail, rfl⟩ := arity_of_bindArguments unbound
      exact .inl rfl
  | tooDeep bound declared given deep refused shallow =>
      obtain ⟨place, located⟩ := Value.locatedAt_of_checkDepth refused _
      exact .inr (Error.kind_of_location? located)
  | busy bound shallow busy => cases busy
  | unconverted bound shallow free declared typed given failed converts =>
      obtain ⟨place, located⟩ := Ty.locatedAt_of_decode failed _
      exact .inr (Error.kind_of_location? located)

end Named

/-- The nesting check refuses the first argument that is too deep, under the name of its parameter. -/
theorem below_of_checkNesting {limit : Nat} {params : List Param} {args : List Value} {e : Error}
    (refused : checkNesting limit params args = .error e) :
    ∃ (index : Nat) (param : Param) (v : Value), params[index]? = some param ∧ args[index]? = some v ∧
      limit < v.nesting ∧ e.Below param.name v := by
  induction params generalizing args with
  | nil => cases refused
  | cons param params ih =>
      cases args with
      | nil => cases refused
      | cons v args =>
          simp only [checkNesting] at refused
          split at refused
          · rename_i inner failed
            obtain rfl := (Except.error.inj refused).symm
            exact ⟨0, param, v, rfl, rfl, Value.deep_of_checkDepth failed,
              (Value.below_of_checkDepth failed).within _⟩
          · obtain ⟨index, found⟩ := ih refused
            exact ⟨index + 1, found⟩

/-- A call enters native code, or it fails before that with an error of the named kind, and only the journal
tells of it. -/
def Accounted (call : Act σ α) (w noted : World σ) (enter : β → Act σ α) (named : Error → Prop) : Prop :=
  (∃ x, call w = enter x noted) ∨ ∃ e, call w = (.failed e, noted) ∧ named e

section Accounted

variable {call : Act σ α} {w noted : World σ} {enter : β → Act σ α} {named : Error → Prop}

theorem EntersOnce.accounted {verdict : Except Error β → Prop}
    (enters : EntersOnce verdict call w noted enter)
    (names : ∀ e, verdict (.error e) → named e) : Accounted call w noted enter named := by
  obtain ⟨result, decided, _⟩ := enters.decided
  cases result with
  | error e => exact .inr ⟨e, enters.refused decided, names e decided⟩
  | ok x => exact .inl ⟨x, enters.entered decided⟩

variable {function : String} {params : List Param} {limit : Nat} {positional : List Value}
    {keywords : Keywords}

/-- Binding arguments and checking their nesting name what is to blame, whatever native code is. -/
theorem Accounted.of_checked {enter : List Value → Act σ α} (types : List Ty)
    (same : call w = (do
      let args ← ofExcept (bindArguments function params positional keywords)
      ofExcept (checkNesting limit params args)
      enter args) noted) :
    Accounted call w noted enter (Error.Named function params limit types positional keywords) := by
  cases bound : bindArguments function params positional keywords with
  | error e =>
      obtain ⟨detail, rfl⟩ := arity_of_bindArguments bound
      refine .inr ⟨_, ?_, .of_arity detail⟩
      rw [same, bound, ofExcept_error, fail_bind, fail_apply]
  | ok args =>
      cases checked : checkNesting limit params args with
      | error e =>
          obtain ⟨index, param, v, declared, given, deep, below⟩ := below_of_checkNesting checked
          refine .inr ⟨e, ?_, .of_below bound declared given (.inl deep) below⟩
          rw [same, bound, ofExcept_ok, pure_bind, checked, ofExcept_error, fail_bind, fail_apply]
      | ok _ =>
          refine .inl ⟨args, ?_⟩
          rw [same, bound, ofExcept_ok, pure_bind, checked, ofExcept_ok, pure_bind]

end Accounted

namespace Handle

variable [NativeState σ] {w : World σ} {handle : Handle} {cell : Cell σ} {state : σ}
    {c : ClassDef (Program σ)}
  {name receiver : String}

theorem forType_of_foreign (other : receiver ≠ NativeState.typeName state) (e : Error) (program : Program σ) :
    forType receiver e (.ok program) state = .error e := by
  have differs : ¬ NativeState.typeName state = receiver := fun same => other same.symm
  simp only [forType, differs, ↓reduceIte]
  rfl

omit [NativeState σ] in
theorem eq_busy {e : Error} (busy : handle.busy? cell = some e) : e = handle.busy := by
  simp only [busy?] at busy
  split at busy
  · cases busy
  · exact (Option.some.inj busy).symm

variable (holds : handle.Holds w cell state c)

include holds

/-- A method that is called on an instance of another native type is not entered. -/
theorem invoke_accounted {types : List Ty} {body : Args types → Program σ} {m : MethodBinding (Program σ)}
    (found : c.method? name = some m) (wraps : m.Wraps receiver body) (stack : Nat) (positional : List Value)
    (keywords : Keywords) :
    Accounted (handle.invoke (Program.run (stack + 1)) name positional keywords) w
      (w.noted (handle.invoking m.name positional keywords)) (handle.entering c m stack body)
      fun e => Error.Named (handle.qualified m.name) m.params c.maxDepth types positional keywords e ∨
        receiver ≠ NativeState.typeName state ∧ e = foreign receiver := by
  by_cases own : receiver = NativeState.typeName state
  · subst own
    exact (invoke_entersOnce holds found wraps stack positional keywords).accounted fun e screened =>
      .inl (screened.named fun _ busy => eq_busy busy ▸ .of_other nofun rfl)
  · have after := holds.noted (handle.invoking m.name positional keywords)
    right
    have called := invoke_of_found (Program.run (stack + 1)) holds found positional keywords
    rcases Accounted.of_checked types called with ⟨args, entered⟩ | ⟨e, failed, named⟩
    · cases occupied : handle.busy? cell with
      | some e =>
          refine ⟨e, entered.trans (after.whileHeld_of_busy occupied _), .inl ?_⟩
          exact eq_busy occupied ▸ .of_other nofun rfl
      | none =>
          refine ⟨_, (entered.trans (after.whileHeld_of_free occupied _)).trans ?_, .inr ⟨own, rfl⟩⟩
          obtain ⟨_, _, same⟩ := wraps.shape
          rw [same, forType_of_foreign own, ofExcept_error, fail_bind, after.alone_fail occupied]
    · exact ⟨e, failed, .inl named⟩

/-- A value that is assigned is blamed on the name that the property was declared with. -/
theorem setAttr_accounted {declared : String} {type accepted : Ty} {getter : Native σ type.Carrier}
    {setter : accepted.Carrier → Native σ Unit}
    (found : c.property? name = some (.readWrite declared receiver type getter accepted setter)) (stack : Nat)
    (value : Value) :
    Accounted (handle.setAttr (Program.run (stack + 1)) name value) w w
      (fun x => handle.assigning stack (setter x fun _ => .done (.ok .none)))
      fun e => e.Below declared value ∧ ¬ accepted.Matches value ∨ e = handle.busy ∨
        receiver ≠ NativeState.typeName state ∧ e = foreign receiver := by
  by_cases own : receiver = NativeState.typeName state
  · subst own
    refine (setAttr_entersOnce holds found stack value).accounted fun e assigned => ?_
    cases assigned with
    | busy busy => exact .inr (.inl (eq_busy busy))
    | unconverted free failed =>
        obtain ⟨below, unmatched⟩ := Ty.below_of_decode failed
        exact .inl ⟨below.within declared, unmatched⟩
  · right
    rw [setAttr_of_setter holds _ found rfl]
    cases occupied : handle.busy? cell with
    | some e => exact ⟨e, bind_of_failed (holds.whileHeld_of_busy occupied _), .inr (.inl (eq_busy occupied))⟩
    | none =>
        cases decoded : accepted.decode value with
        | error e =>
            obtain ⟨below, unmatched⟩ := Ty.below_of_decode decoded
            refine ⟨_, bind_of_failed ((holds.whileHeld_of_free occupied _).trans ?_),
              .inl ⟨below.within declared, unmatched⟩⟩
            simp only [Property.readWrite, Property.readOnly, decoded]
            exact holds.alone_fail occupied _
        | ok x =>
            refine ⟨_, bind_of_failed ((holds.whileHeld_of_free occupied _).trans ?_), .inr (.inr ⟨own, rfl⟩)⟩
            simp only [Property.readWrite, Property.readOnly, decoded]
            rw [forType_of_foreign own, ofExcept_error, fail_bind, holds.alone_fail occupied]

end Handle

end Marshal
