import Mathlib
import Marshal.Proofs.Call.Members

namespace Marshal

open Value (Path)
open Act hiding pure bind

variable {σ : Type} {w noted : World σ}

section Given

variable {function : String} {params : List Param} {positional args : List Value} {keywords : Keywords}
  {places placed : List (Option Value)} {v : Value}

/-- A keyword argument takes a place that was free. -/
theorem placeKeyword_eq {keyword : String × Value}
    (put : placeKeyword function params places keyword = .ok placed) :
    ∃ index, places[index]? = some none ∧ placed = places.set index (some keyword.2) := by
  simp only [placeKeyword] at put
  split at put
  · cases put
  · split at put
    · rename_i free
      cases put
      exact ⟨_, free, rfl⟩
    · cases put

theorem mem_of_placeKeyword {keyword : String × Value}
    (put : placeKeyword function params places keyword = .ok placed)
    (given : some v ∈ places ∨ v = keyword.2) : some v ∈ placed := by
  obtain ⟨index, free, rfl⟩ := placeKeyword_eq put
  obtain ⟨inside, nothing⟩ := List.getElem?_eq_some_iff.mp free
  rcases given with there | rfl
  · obtain ⟨other, within, same⟩ := List.getElem_of_mem there
    have apart : index ≠ other := by
      rintro rfl
      cases nothing.symm.trans same
    refine List.mem_iff_getElem.mpr ⟨other, by simpa using within, ?_⟩
    rw [List.getElem_set_ne apart, same]
  · exact List.mem_set inside _

theorem mem_of_placeKeywords (put : keywords.foldlM (placeKeyword function params) places = .ok placed)
    (given : some v ∈ places ∨ v ∈ keywords.map Prod.snd) : some v ∈ placed := by
  induction keywords generalizing places with
  | nil =>
      cases put
      exact given.resolve_right (by simp)
  | cons keyword rest ih =>
      rw [List.foldlM_cons] at put
      cases first : placeKeyword function params places keyword with
      | error e =>
          rw [first] at put
          cases put
      | ok next =>
          rw [first] at put
          refine ih put ?_
          rw [List.map_cons, List.mem_cons, ← or_assoc] at given
          exact given.imp_left (mem_of_placeKeyword first)

/-- Each value that a call gives is bound to a parameter. -/
theorem mem_of_bindArguments (bound : bindArguments function params positional keywords = .ok args)
    (given : v ∈ positional ++ keywords.map Prod.snd) : v ∈ args := by
  obtain ⟨few, placed, put, _, rfl⟩ := placed_of_bindArguments bound
  have count : placed.length = params.length := (placeKeywords_length put).trans (startingPlaces_length few)
  have placing : some v ∈ placed := by
    refine mem_of_placeKeywords put ((List.mem_append.mp given).imp_left fun member => ?_)
    exact List.mem_append_left _ (List.mem_map_of_mem member)
  obtain ⟨index, within, here⟩ := List.getElem_of_mem placing
  refine List.mem_iff_getElem.mpr ⟨index, by simpa [← count] using within, ?_⟩
  simp [here, settle]

end Given

/-- The error of something nested too deep, at a path into what bears the name. -/
def Error.tooDeep (limit : Nat) (name : String) (path : Path) : Error :=
  (Error.typeMismatch s!"at most {limit} levels of nesting" "deeper nesting" path.text).within name

/-- How a call treats the nesting of its arguments, whatever runs native code: if they cannot be bound or one
of them is too deep, it fails before that, and only the journal tells of it. -/
structure Limited (limit : Nat) (function : String) (params : List Param) (positional : List Value)
    (keywords : Keywords) (call : Runner σ → Act σ Value) (enter : Runner σ → List Value → Act σ Value)
    (w noted : World σ) : Prop where
  unbound {e : Error} (failed : bindArguments function params positional keywords = .error e) :
    ∀ run, call run w = (.failed e, noted)
  tooDeep {args : List Value} {index : Nat} {param : Param} {v : Value}
      (bound : bindArguments function params positional keywords = .ok args)
      (declared : params[index]? = some param) (given : args[index]? = some v) (deep : limit < v.nesting)
      (shallow : ∀ earlier ∈ args.take index, earlier.nesting ≤ limit) :
    ∃ path, ∀ run, call run w = (.failed (.tooDeep limit param.name path), noted)
  entered {args : List Value} (bound : bindArguments function params positional keywords = .ok args)
      (shallow : ∀ v ∈ args, v.nesting ≤ limit) :
    ∀ run, call run w = enter run args noted
  /-- No given value that is too deep reaches native code. -/
  refused {args : List Value} {v : Value}
    (bound : bindArguments function params positional keywords = .ok args)
      (given : v ∈ positional ++ keywords.map Prod.snd) (deep : limit < v.nesting) :
    ∃ name path, ∀ run, call run w = (.failed (.tooDeep limit name path), noted)

section Limited

variable {limit : Nat} {function : String} {params : List Param} {positional : List Value}
  {keywords : Keywords} {call : Runner σ → Act σ Value} {enter : Runner σ → List Value → Act σ Value}

theorem Limited.of_checked (same : ∀ run, call run w =
    (do
      let args ← ofExcept (bindArguments function params positional keywords)
      ofExcept (checkNesting limit params args)
      enter run args) noted) :
    Limited limit function params positional keywords call enter w noted := by
  have checked : ∀ {args index param v}, bindArguments function params positional keywords = .ok args →
      params[index]? = some param → args[index]? = some v → limit < v.nesting →
      (∀ earlier ∈ args.take index, earlier.nesting ≤ limit) →
      ∃ path, ∀ run, call run w = (.failed (.tooDeep limit param.name path), noted) := by
    intro args index param v bound declared given deep shallow
    obtain ⟨path, refused⟩ := Value.checkDepth_of_deep deep
    refine ⟨path, fun run => ?_⟩
    rw [same, bound, ofExcept_ok, pure_bind, checkNesting_of_deep declared given refused shallow,
      ofExcept_error, fail_bind, fail_apply]
    rfl
  refine ⟨fun failed run => ?_, checked, fun bound shallow run => ?_, fun {args v} bound given deep => ?_⟩
  · rw [same, failed, ofExcept_error, fail_bind, fail_apply]
  · rw [same, bound, ofExcept_ok, pure_bind, checkNesting_of_shallow shallow, ofExcept_ok, pure_bind]
  · rcases shallow_or_deep limit args with shallow | ⟨index, first, there, deeper, before⟩
    · exact absurd (shallow v (mem_of_bindArguments bound given)) (Nat.not_le_of_lt deep)
    · obtain ⟨inside, _⟩ := List.getElem?_eq_some_iff.mp there
      have declared := List.getElem?_eq_getElem (bindArguments_length bound ▸ inside)
      exact ⟨_, checked bound declared there deeper before⟩

end Limited

/-- Native code of a function on bound arguments, and what becomes of its result. -/
def FunctionBinding.enter (f : FunctionBinding (Program σ)) (run : Runner σ) (args : List Value) :
    Act σ Value :=
  (Conclusion.called f.name f.params f.catchPanics).conclude (run [] (f.entry args))

theorem FunctionBinding.invoke_limited (f : FunctionBinding (Program σ)) (positional : List Value)
    (keywords : Keywords) (w : World σ) :
    Limited f.maxDepth f.name f.params positional keywords (fun run => f.invoke run positional keywords)
      f.enter w (w.noted (f.invoking positional keywords)) :=
  .of_checked fun run => f.invoke_apply run positional keywords w

namespace Handle

variable [NativeState σ] {handle : Handle} {cell : Cell σ} {state : σ} {c : ClassDef (Program σ)}
    {name : String}

/-- Native code of a method on bound arguments, with the instance in hand, and what becomes of its result. -/
def enter (handle : Handle) (c : ClassDef (Program σ)) (m : MethodBinding (Program σ)) (run : Runner σ)
    (args : List Value) : Act σ Value :=
  handle.whileHeld true fun state => do
    let program ← ofExcept (forType m.receiver (foreign m.receiver) (.ok (m.entry args)) state)
    (Conclusion.called (handle.qualified m.name) m.params c.catchPanics).conclude
      (run [.instance handle true] program)

theorem invoke_limited (holds : handle.Holds w cell state c) {m : MethodBinding (Program σ)}
    (found : c.method? name = some m) (positional : List Value) (keywords : Keywords) :
    Limited c.maxDepth (handle.qualified m.name) m.params positional keywords
      (fun run => handle.invoke run name positional keywords) (handle.enter c m) w
      (w.noted (handle.invoking m.name positional keywords)) :=
  .of_checked fun run => invoke_of_found run holds found positional keywords

/-- An assignment depends on whether the setter accepts the value, and on nothing else about the value. -/
theorem setAttr_unlimited (holds : handle.Holds w cell state c) (free : handle.busy? cell = none)
    {p : Property (Program σ)} {setter : Setter (Program σ)} (found : c.property? name = some p)
    (settable : p.setter? = some setter) (own : p.receiver = NativeState.typeName state) (stack : Nat)
    (value : Value) :
    handle.setAttr (Program.run (stack + 1)) name value w =
      (ofExcept (setter.accept value) >>= handle.assigning stack) w := by
  rw [setAttr_of_setter holds _ found settable, bind_apply, Act.bind, holds.whileHeld_of_free free, own,
    forType_of_same]
  cases setter.accept value with
  | error e => rw [ofExcept_error, fail_bind, holds.alone_fail free, fail_bind, fail_apply]
  | ok program => rfl

end Handle

end Marshal
