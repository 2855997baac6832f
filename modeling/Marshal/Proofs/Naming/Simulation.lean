import Mathlib
import Marshal.Proofs.Naming.Counterpart
import Marshal.Proofs.Program.Moments

/-!
# Native code in counterparts of a world

Respelled native code does the same in two worlds that are counterparts: its requests lead to native
code that is respelled too, on the same arguments, and end alike.  This is shown for one request, given
that it holds for the code that the request enters, then for a whole program, and then, by induction on
the stack, for every run.
-/

namespace Marshal

open Act hiding pure bind

variable {σ : Type}

section Definitions

variable (same : Fidelity → Program σ → Program σ → Prop) (F : Fidelity)

/-- Native code that is about to be entered in both worlds: related programs on the same frames. -/
structure Opening.Counterpart (V : Vocabulary) (o other : Opening σ) : Prop where
  world : o.world.Counterpart V same other.world
  hold : other.hold? = o.hold?
  frames : other.frames = o.frames
  program : same F o.program other.program

/-- Ends of calls that differ at most in the names that errors tell of. -/
inductive Conclusion.Counterpart : Conclusion → Conclusion → Prop
  | called {function twin : String} {params others : List Param} (catchPanics : Bool)
      (named : F = .exact → twin = function ∧ others = params) :
      Counterpart (.called function params catchPanics) (.called twin others catchPanics)
  | read : Counterpart .read .read
  | written : Counterpart .written .written

/-- Calls that lead to related native code on the same instance. -/
inductive NativeCall.Counterpart : NativeCall σ → NativeCall σ → Prop
  | function {program twin : Program σ} {conclusion last : Conclusion} (code : same F program twin)
      (ends : conclusion.Counterpart F last) :
      Counterpart (.function program conclusion) (.function twin last)
  | member (handle : Handle) (writable : Bool) {program twin : σ → Except Error (Program σ)}
      {conclusion last : Conclusion} (code : ∀ state, Alike F.Errors (same F) (program state) (twin state))
      (ends : conclusion.Counterpart F last) :
      Counterpart (.member handle writable program conclusion) (.member handle writable twin last)

end Definitions

variable {V : Vocabulary} {same : Fidelity → Program σ → Program σ → Prop} {F : Fidelity}

section Ends

end Ends

section Preparing

theorem FunctionBinding.prepare_agree {style : NamingStyle} {known : Set String}
    {f g : FunctionBinding (Program σ)} (counterpart : f.Counterpart same style F g) {keywords : Keywords}
    (apart : NamesApart style known f.params keywords) (positional : List Value) :
    Agree (World.Counterpart V same) F.Errors (NativeCall.Counterpart same F) (f.prepare positional keywords)
      (g.prepare positional (style.keywords keywords)) := by
  obtain ⟨admits, name, params, catchPanics, maxDepth, entry⟩ := counterpart
  have named : F = .exact → g.name = f.name ∧ g.params = f.params := by
    intro exact
    obtain rfl := admits exact
    exact ⟨name, params.trans (List.map_id f.params)⟩
  simp only [prepare]
  refine (agree_log _ _).bind fun _ _ _ => ?_
  have bound := bindArguments_renamed admits (fun exact => (named exact).1) apart positional
  rw [← params] at bound
  refine (agree_ofExcept bound).bind fun args twin same => ?_
  subst same
  have nested := checkNesting_renamed admits f.maxDepth f.params args
  rw [← params] at nested
  rw [maxDepth, catchPanics]
  refine (agree_ofExcept nested).bind fun _ _ _ => ?_
  exact agree_pure (.function (entry args) (.called _ named))

namespace Handle

variable (handle : Handle)

theorem classDef_agree :
    Agree (World.Counterpart V same) F.Errors (ClassDef.Counterpart V same handle.classId)
    handle.classDef handle.classDef := by
  simp only [classDef]
  refine (agree_read fun w v related => related.classes handle.classId).bind fun c d alike => ?_
  cases alike with
  | none => exact agree_fail (.refl F _)
  | some counterpart => exact agree_pure counterpart

theorem alive_agree : Agree (World.Counterpart V same) F.Errors Eq handle.alive handle.alive :=
  handle.oblivious_alive.agree (.refl F)

variable [NativeState σ]

theorem forType_alike (type : String) (e : Error) {program twin : Except Error (Program σ)}
    (alike : Alike F.Errors (same F) program twin) (state : σ) :
    Alike F.Errors (same F) (forType type e program state) (forType type e twin state) := by
  refine alike.bind fun code other related => ?_
  split
  · exact .ok related
  · exact .error (.refl F e)

variable (faithful : V.Faithful)

include faithful

theorem prepareInvoke_agree {method : String} {keywords : Keywords}
    (known : method ∈ (V.names handle.classId).methods)
    (given : ∀ keyword ∈ keywords, keyword.1 ∈ (V.names handle.classId).params method)
    (positional : List Value) :
    Agree (World.Counterpart V same) (V.fidelity handle.classId).Errors
      (NativeCall.Counterpart same (V.fidelity handle.classId))
      (handle.prepareInvoke method positional keywords)
      (handle.prepareInvoke ((V.style handle.classId).apply method) positional
        ((V.style handle.classId).keywords keywords)) := by
  have admits := faithful.admits handle.classId
  simp only [prepareInvoke]
  refine handle.alive_agree.bind fun _ _ _ => ?_
  refine handle.classDef_agree.bind fun c d classes => ?_
  have missing := Fidelity.Errors.of_label
    (e := fun name => .attributeNotFound name handle.className) admits method
    fun _ _ => rfl
  have found := classes.methods.get? (faithful.methods handle.classId) known
  refine (agree_ofOption missing found).bind fun m n counterpart => ?_
  obtain ⟨named, params, declared, receiver, entry⟩ := counterpart
  -- Where errors have to agree exactly nothing is renamed, so they can name the method.
  have exactly : V.fidelity handle.classId = .exact → n.name = m.name ∧ n.params = m.params := by
    intro exact
    have style := admits exact
    rw [style] at named params
    exact ⟨named, params.trans (List.map_id m.params)⟩
  have qualified : V.fidelity handle.classId = .exact →
      handle.qualified n.name = handle.qualified m.name := fun exact => by rw [(exactly exact).1]
  refine (agree_log _ _).bind fun _ _ _ => ?_
  have apart : NamesApart (V.style handle.classId)
    ((V.names handle.classId).params method) m.params keywords :=
    ⟨faithful.params handle.classId known, declared, given⟩
  have bound := bindArguments_renamed admits qualified apart positional
  rw [← params] at bound
  refine (agree_ofExcept bound).bind fun args twin same => ?_
  subst same
  have nested := checkNesting_renamed admits c.maxDepth m.params args
  rw [← params] at nested
  rw [classes.maxDepth, classes.catchPanics, receiver]
  refine (agree_ofExcept nested).bind fun _ _ _ => agree_pure (.member handle true (fun state => ?_) ?_)
  · exact forType_alike _ _ (.ok (entry args)) state
  · exact .called _ fun exact => ⟨qualified exact, (exactly exact).2⟩

omit [NativeState σ] in
theorem property_agree {name : String} (known : name ∈ (V.names handle.classId).properties) :
    Agree (World.Counterpart V same) (V.fidelity handle.classId).Errors
      (Property.Counterpart same (V.fidelity handle.classId)) (handle.property name)
      (handle.property ((V.style handle.classId).apply name)) := by
  simp only [property]
  refine handle.classDef_agree.bind fun c d classes => ?_
  refine agree_ofOption ?_ (classes.properties.get? (faithful.properties handle.classId) known)
  exact .of_label (e := fun name => .attributeNotFound name handle.className)
    (faithful.admits handle.classId) name fun _ _ => rfl

theorem prepareGet_agree {name : String} (known : name ∈ (V.names handle.classId).properties) :
    Agree (World.Counterpart V same) (V.fidelity handle.classId).Errors
      (NativeCall.Counterpart same (V.fidelity handle.classId)) (handle.prepareGet name)
      (handle.prepareGet ((V.style handle.classId).apply name)) := by
  simp only [prepareGet]
  refine handle.alive_agree.bind fun _ _ _ => ?_
  refine (handle.property_agree faithful known).bind fun p q counterpart => ?_
  rw [counterpart.receiver]
  exact agree_pure (.member handle false
    (fun state => forType_alike _ _ (.ok counterpart.getter) state) .read)

theorem prepareSet_agree {name : String} (known : name ∈ (V.names handle.classId).properties)
    (value : Value) :
    Agree (World.Counterpart V same) (V.fidelity handle.classId).Errors
      (NativeCall.Counterpart same (V.fidelity handle.classId)) (handle.prepareSet name value)
      (handle.prepareSet ((V.style handle.classId).apply name) value) := by
  simp only [prepareSet]
  refine handle.alive_agree.bind fun _ _ _ => ?_
  refine (handle.property_agree faithful known).bind fun p q counterpart => ?_
  rw [counterpart.receiver]
  refine (agree_ofOption ?_ counterpart.setter).bind fun setter twin accepts => ?_
  · exact .of_label
      (e := fun name => .borrowedMutation s!"property '{name}' of {handle.className} is read-only")
      (faithful.admits handle.classId) name fun _ _ => rfl
  · exact agree_pure (.member handle true (fun state => forType_alike _ _ (accepts value) state) .written)

end Handle

end Preparing

section Defining

variable (faithful : V.Faithful) {classId : Nat} {c d : ClassDef (Program σ)}
    {m n : MethodBinding (Program σ)}

theorem ClassDef.Counterpart.addMethod (classes : c.Counterpart V same classId d) (faithful : V.Faithful)
    (known : m.name ∈ (V.names classId).methods) (counterpart : m.Counterpart V same classId m.name n) :
    (c.addMethod m).Counterpart V same classId (d.addMethod n) where
  name := classes.name
  instanceType := classes.instanceType
  catchPanics := classes.catchPanics
  maxDepth := classes.maxDepth
  kept := classes.kept
  renamed := classes.renamed
  methods := by
    have inserted := classes.methods.insert (faithful.methods classId) known counterpart
    rwa [← counterpart.named] at inserted
  properties := classes.properties

end Defining

section Entering

variable {w v : World σ}

theorem Handle.entered_agree (handle : Handle) (writable : Bool) (related : w.Counterpart V same v) :
    Option.Rel (fun held twin => held.1 = twin.1 ∧ held.2.Counterpart V same twin.2)
      (handle.entered? writable w) (handle.entered? writable v) := by
  obtain ⟨ends, _⟩ := (handle.oblivious_borrowed writable).agree (E := Eq) (fun _ => rfl) w v related
  simp only [entered?]
  generalize (handle.borrowed writable w).1 = outcome at ends ⊢
  generalize (handle.borrowed writable v).1 = twin at ends ⊢
  cases ends with
  | returned same =>
      subst same
      exact .some ⟨rfl, related.setCell handle _⟩
  | failed _ => exact .none
  | panicked _ => exact .none
  | exhausted => exact .none

theorem NativeCall.Counterpart.opening_agree {call twin : NativeCall σ}
    (counterpart : call.Counterpart same F twin) (related : w.Counterpart V same v) :
    Option.Rel (Opening.Counterpart same F V) (call.opening? w) (twin.opening? v) := by
  cases counterpart with
  | function code ends => exact .some ⟨related, rfl, rfl, code⟩
  | @member handle writable program twin conclusion last code ends =>
      simp only [opening?]
      have entered := handle.entered_agree writable related
      generalize handle.entered? writable w = held at entered ⊢
      generalize handle.entered? writable v = other at entered ⊢
      cases entered with
      | none => exact .none
      | @some held other alike =>
          obtain ⟨state, here⟩ := held
          obtain ⟨_, there⟩ := other
          obtain ⟨rfl, after⟩ := alike
          have accepts := code state
          simp only [Option.bind_eq_bind, Option.bind_some]
          generalize program state = given at accepts ⊢
          generalize twin state = taken at accepts ⊢
          cases accepts with
          | error _ => exact .none
          | ok code => exact .some ⟨after, rfl, rfl, code⟩

variable [NativeState σ]

/-- Requests enter related native code, or none in either world. -/
theorem Request.Respelled.opening_agree (faithful : V.Faithful) {asked other : Request σ (Program σ)}
    (respelled : asked.Respelled V same F other) (related : w.Counterpart V same v) :
    Option.Rel (Opening.Counterpart same F V) (asked.opening? w) (other.opening? v) := by
  have opened : ∀ {prepare twin : Act σ (NativeCall σ)}, asked.prepare? = some prepare →
      other.prepare? = some twin →
      Agree (World.Counterpart V same) F.Errors (NativeCall.Counterpart same F) prepare twin →
      Option.Rel (Opening.Counterpart same F V) (asked.opening? w) (other.opening? v) := by
    intro prepare twin here there agree
    obtain ⟨ends, after⟩ := agree w v related
    simp only [opening?, here, there, Option.bind_eq_bind, Option.bind_some]
    rcases ended : prepare w with ⟨outcome, first⟩
    rcases paired : twin v with ⟨last, second⟩
    rw [ended, paired] at ends after
    cases ends with
    | returned counterpart => exact counterpart.opening_agree after
    | failed _ => exact .none
    | panicked _ => exact .none
    | exhausted => exact .none
  cases respelled with
  | call counterpart apart positional =>
      exact opened rfl rfl (FunctionBinding.prepare_agree counterpart apart positional)
  | @invoke handle method keywords known given positional =>
      exact opened rfl rfl (handle.prepareInvoke_agree faithful known given positional)
  | @getAttr handle name known => exact opened rfl rfl (handle.prepareGet_agree faithful known)
  | @setAttr handle name known value => exact opened rfl rfl (handle.prepareSet_agree faithful known value)
  | _ => exact .none

end Entering

section Running

variable {run : Runner σ}
  (agree : ∀ F frames p q, same F p q →
    Agree (World.Counterpart V same) Eq F.Results (run frames p) (run frames q))

include agree

variable [NativeState σ] (faithful : V.Faithful)

include faithful

namespace Program

end Program

end Running

namespace Program

variable [NativeState σ]

end Program

end Marshal
