import Mathlib
import Marshal.Program.Native
import Marshal.Proofs.Call.Renaming

/-!
# Native code under other names

In a second world some classes export their members in snake case that export them as declared in a
first one.  Native code goes by the names of the world it is in.  `Respelled` says that code of the
second world is code of the first one with these names respelled: step by step it asks for the same, and
it goes on alike after replies that differ at most in what an error says.
-/

namespace Marshal

variable {σ : Type}

/-- Names that the members of a class can have, and of the parameters of each method. -/
structure MemberNames where
  methods : Set String
  properties : Set String
  params : String → Set String

/-- Any names at all. -/
def MemberNames.all : MemberNames :=
  { methods := Set.univ, properties := Set.univ, params := fun _ => Set.univ }

/-- Snake case keeps the names apart. -/
structure MemberNames.Apart (names : MemberNames) : Prop where
  methods : Set.InjOn snakeCase names.methods
  properties : Set.InjOn snakeCase names.properties
  params : ∀ method ∈ names.methods, Set.InjOn snakeCase (names.params method)

/-- Which classes the second world renames, and the names that are used there.  Members of the other classes
have the same names in both worlds.  For each class it says how exactly its native code agrees. -/
structure Vocabulary where
  renamed? : Nat → Option MemberNames
  fidelity : Nat → Fidelity

namespace Vocabulary

variable (V : Vocabulary) (classId : Nat)

def style : NamingStyle := if (V.renamed? classId).isSome then .snakeCase else .asDeclared

def names : MemberNames := (V.renamed? classId).getD .all

/-- Renamed classes keep their names apart, and their native code is not held to tell errors in the same
words. -/
def Faithful : Prop :=
  ∀ classId names, V.renamed? classId = some names → V.fidelity classId = .alike ∧ names.Apart

variable {V}

theorem style_of_renamed {names : MemberNames} (renamed : V.renamed? classId = some names) :
    V.style classId = .snakeCase ∧ V.names classId = names := by
  simp only [style, Vocabulary.names, renamed, Option.isSome_some, ↓reduceIte, Option.getD_some, and_self]

theorem style_of_kept (kept : V.renamed? classId = none) :
    V.style classId = .asDeclared ∧ V.names classId = .all := by
  simp only [style, Vocabulary.names, kept, Option.isSome_none, Bool.false_eq_true, ↓reduceIte,
    Option.getD_none, and_self]

namespace Faithful

variable (faithful : V.Faithful)

include faithful

theorem admits : (V.fidelity classId).Admits (V.style classId) := by
  intro exact
  cases renamed : V.renamed? classId with
  | none => exact (style_of_kept classId renamed).1
  | some names => cases exact.symm.trans (faithful classId names renamed).1

theorem methods : Set.InjOn (V.style classId).apply (V.names classId).methods := by
  cases renamed : V.renamed? classId with
  | none =>
      rw [(style_of_kept classId renamed).1]
      exact fun _ _ _ _ same => same
  | some names =>
      obtain ⟨style, known⟩ := style_of_renamed classId renamed
      rw [style, known]
      exact (faithful classId names renamed).2.methods

theorem properties : Set.InjOn (V.style classId).apply (V.names classId).properties := by
  cases renamed : V.renamed? classId with
  | none =>
      rw [(style_of_kept classId renamed).1]
      exact fun _ _ _ _ same => same
  | some names =>
      obtain ⟨style, known⟩ := style_of_renamed classId renamed
      rw [style, known]
      exact (faithful classId names renamed).2.properties

theorem params {method : String} (member : method ∈ (V.names classId).methods) :
    Set.InjOn (V.style classId).apply ((V.names classId).params method) := by
  cases renamed : V.renamed? classId with
  | none =>
      rw [(style_of_kept classId renamed).1]
      exact fun _ _ _ _ same => same
  | some names =>
      obtain ⟨style, known⟩ := style_of_renamed classId renamed
      rw [known] at member
      rw [style, known]
      exact (faithful classId names renamed).2.params method member

end Faithful

end Vocabulary

/-- The same value, or errors that agree and came about in the same way. -/
inductive Fidelity.Results (F : Fidelity) : Result → Result → Prop
  | ok (value : Value) : Results F (.ok value) (.ok value)
  | argument (index : Nat) {e f : Error} (alike : F.Errors e f) :
      Results F (.error (.argument index e)) (.error (.argument index f))
  | failed {e f : Error} (alike : F.Errors e f) : Results F (.error (.failed e)) (.error (.failed f))

section Bindings

variable (V : Vocabulary) (same : Fidelity → Program σ → Program σ → Prop)

/-- A function and its counterpart under the names that a style gives. -/
structure FunctionBinding.Counterpart (style : NamingStyle) (F : Fidelity)
    (f g : FunctionBinding (Program σ)) : Prop where
  admits : F.Admits style
  name : g.name = style.apply f.name
  params : g.params = f.params.map style.param
  catchPanics : g.catchPanics = f.catchPanics
  maxDepth : g.maxDepth = f.maxDepth
  entry : ∀ args, same F (f.entry args) (g.entry args)

/-- Two methods with the same names, and native code that is related. -/
structure MethodBinding.Twin (F : Fidelity) (m n : MethodBinding (Program σ)) : Prop where
  name : n.name = m.name
  params : n.params = m.params
  receiver : n.receiver = m.receiver
  entry : ∀ args, same F (m.entry args) (n.entry args)

/-- A method that a class exports under a name, and its counterpart in the second world. -/
structure MethodBinding.Counterpart (classId : Nat) (name : String) (m n : MethodBinding (Program σ)) :
    Prop where
  named : n.name = (V.style classId).apply m.name
  params : n.params = m.params.map (V.style classId).param
  known : ∀ param ∈ m.params, param.name ∈ (V.names classId).params name
  receiver : n.receiver = m.receiver
  entry : ∀ args, same (V.fidelity classId) (m.entry args) (n.entry args)

structure Property.Counterpart (F : Fidelity) (p q : Property (Program σ)) : Prop where
  receiver : q.receiver = p.receiver
  getter : same F p.getter q.getter
  setter : Option.Rel (fun s t => ∀ value, Alike F.Errors (same F) (s.accept value) (t.accept value))
    p.setter? q.setter?

/-- Requests that are the same but for the names that they go by.  The replies agree at the given fidelity. -/
inductive Request.Respelled : Fidelity → Request σ (Program σ) → Request σ (Program σ) → Prop
  | log (event : Event) : Respelled .exact (.log event) (.log event)
  | print (text : String) : Respelled .exact (.print text) (.print text)
  | create (classId : Nat) (state : σ) : Respelled .exact (.create classId state) (.create classId state)
  | retain (handle : Handle) : Respelled .exact (.retain handle) (.retain handle)
  | release (handle : Handle) : Respelled .exact (.release handle) (.release handle)
  | array (request : ArrayRequest) : Respelled .exact (.array request) (.array request)
  | call {style : NamingStyle} {F : Fidelity} {f g : FunctionBinding (Program σ)} {keywords : Keywords}
      {known : Set String} (counterpart : f.Counterpart same style F g)
      (apart : NamesApart style known f.params keywords) (positional : List Value) :
      Respelled F (.call f positional keywords) (.call g positional (style.keywords keywords))
  -- The names of members are those that the class of the handle has in each world.
  | invoke {handle : Handle} {method : String} {keywords : Keywords}
      (known : method ∈ (V.names handle.classId).methods)
      (given : ∀ keyword ∈ keywords, keyword.1 ∈ (V.names handle.classId).params method)
      (positional : List Value) :
      Respelled (V.fidelity handle.classId) (.invoke handle method positional keywords)
        (.invoke handle ((V.style handle.classId).apply method) positional
          ((V.style handle.classId).keywords keywords))
  | getAttr {handle : Handle} {name : String} (known : name ∈ (V.names handle.classId).properties) :
      Respelled (V.fidelity handle.classId) (.getAttr handle name)
        (.getAttr handle ((V.style handle.classId).apply name))
  | setAttr {handle : Handle} {name : String} (known : name ∈ (V.names handle.classId).properties)
      (value : Value) :
      Respelled (V.fidelity handle.classId) (.setAttr handle name value)
        (.setAttr handle ((V.style handle.classId).apply name) value)
  | defineMethod {classId : Nat} {m n : MethodBinding (Program σ)} (twin : m.Twin same (V.fidelity classId) n)
      (known : ∀ names, V.renamed? classId = some names →
        m.name ∈ names.methods ∧ ∀ param ∈ m.params, param.name ∈ names.params m.name) :
      Respelled .exact (.defineMethod classId m) (.defineMethod classId n)

/-- Native code that is the same but for the names that it goes by.  Its results agree at the given
fidelity. -/
inductive Program.Respelled : Fidelity → Program σ → Program σ → Prop
  | done {F : Fidelity} {result other : Result} (alike : F.Results result other) :
      Respelled F (.done result) (.done other)
  | panic {F : Fidelity} (payload : Payload) : Respelled F (.panic payload) (.panic payload)
  | look {F : Fidelity} (level : Nat) {next last : Option (Content σ) → Program σ}
      (onward : ∀ content, Respelled F (next content) (last content)) :
      Respelled F (.look level next) (.look level last)
  | put {F : Fidelity} (level : Nat) (content : Content σ) {next last : Program σ}
      (onward : Respelled F next last) : Respelled F (.put level content next) (.put level content last)
  | request {F G : Fidelity} {asked other : Request σ (Program σ)}
      {next last : Except Error Value → Program σ} (asks : asked.Respelled V same G other)
      (onward : ∀ reply twin, Alike G.Errors Eq reply twin → Respelled F (next reply) (last twin)) :
      Respelled F (.request asked next) (.request other last)
  | withInstance {F G : Fidelity} (handle : Handle) (type : String) {body inner : Program σ}
      {next last : Except Error Result → Program σ} (within : Respelled G body inner)
      (onward : ∀ reply twin, Alike Eq G.Results reply twin → Respelled F (next reply) (last twin)) :
      Respelled F (.withInstance handle type body next) (.withInstance handle type inner last)
  | withBytes {F G : Fidelity} (view : ArrayView) (writable : Bool) {body inner : Program σ}
      {next last : Except Error Result → Program σ} (within : Respelled G body inner)
      (onward : ∀ reply twin, Alike Eq G.Results reply twin → Respelled F (next reply) (last twin)) :
      Respelled F (.withBytes view writable body next) (.withBytes view writable inner last)
  | mapElements {F G : Fidelity} (view : ArrayView) (type : ElementType)
      {body inner : type.Carrier → Program σ} {next last : Except Error Unit → Program σ}
      (within : ∀ old, Respelled G (body old) (inner old))
      (onward : ∀ reply, Respelled F (next reply) (last reply)) :
      Respelled F (.mapElements view type body next) (.mapElements view type inner last)

end Bindings

section Anonymous

/-- Requests that call nothing and define nothing go by no names. -/
def Request.Anonymous {π : Type} : Request σ π → Prop
  | .log _ | .print _ | .create .. | .retain _ | .release _ | .array _ => True
  | _ => False

/-- Native code that goes by no names of members.  It can call functions that it has got hold of. -/
inductive Program.Anonymous : Program σ → Prop
  | done (result : Result) : Anonymous (.done result)
  | panic (payload : Payload) : Anonymous (.panic payload)
  | look (level : Nat) {next : Option (Content σ) → Program σ}
    (onward : ∀ content, Anonymous (next content)) :
      Anonymous (.look level next)
  | put (level : Nat) (content : Content σ) {next : Program σ} (onward : Anonymous next) :
      Anonymous (.put level content next)
  | request {asked : Request σ (Program σ)} {next : Except Error Value → Program σ}
    (nameless : asked.Anonymous)
      (onward : ∀ reply, Anonymous (next reply)) : Anonymous (.request asked next)
  | call {f : FunctionBinding (Program σ)} (positional : List Value) (keywords : Keywords)
      {next : Except Error Value → Program σ} (code : ∀ args, Anonymous (f.entry args))
      (onward : ∀ reply, Anonymous (next reply)) : Anonymous (.request (.call f positional keywords) next)
  | withInstance (handle : Handle) (type : String) {body : Program σ} {next : Except Error Result → Program σ}
      (within : Anonymous body) (onward : ∀ reply, Anonymous (next reply)) :
      Anonymous (.withInstance handle type body next)
  | withBytes (view : ArrayView) (writable : Bool) {body : Program σ} {next : Except Error Result → Program σ}
      (within : Anonymous body) (onward : ∀ reply, Anonymous (next reply)) :
      Anonymous (.withBytes view writable body next)
  | mapElements (view : ArrayView) (type : ElementType) {body : type.Carrier → Program σ}
      {next : Except Error Unit → Program σ} (within : ∀ old, Anonymous (body old))
      (onward : ∀ reply, Anonymous (next reply)) : Anonymous (.mapElements view type body next)

/-- Native code that is the same under all names. -/
def Program.Unchanged (_ : Fidelity) (p q : Program σ) : Prop := p = q ∧ p.Anonymous

variable {V : Vocabulary} {same : Fidelity → Program σ → Program σ → Prop} {F : Fidelity}

theorem Fidelity.Results.refl (F : Fidelity) (result : Result) : F.Results result result := by
  rcases result with (⟨index, e⟩ | e) | value
  · exact .argument index (.refl F e)
  · exact .failed (.refl F e)
  · exact .ok value

theorem Fidelity.Results.eq {result other : Result} (alike : Fidelity.exact.Results result other) :
    result = other := by
  cases alike with
  | ok value => rfl
  | argument index alike => rw [show _ = _ from alike]
  | failed alike => rw [show _ = _ from alike]

theorem Request.Anonymous.respelled {asked : Request σ (Program σ)} (nameless : asked.Anonymous) :
    asked.Respelled V same .exact asked := by
  cases asked with
  | log event => exact .log event
  | print text => exact .print text
  | create classId state => exact .create classId state
  | retain handle => exact .retain handle
  | release handle => exact .release handle
  | array request => exact .array request
  | _ => exact nameless.elim

/-- Native code without names is its own respelling. -/
theorem Program.Anonymous.respelled (kept : ∀ F p, p.Anonymous → same F p p) {p : Program σ}
    (anonymous : p.Anonymous) (F : Fidelity) : p.Respelled V same F p := by
  induction anonymous generalizing F with
  | done result => exact .done (.refl F result)
  | panic payload => exact .panic payload
  | look level _ onward => exact .look level fun content => onward content F
  | put level content _ onward => exact .put level content (onward F)
  | request nameless _ onward =>
      refine .request nameless.respelled fun reply twin alike => ?_
      obtain rfl : reply = twin := alike.eq
      exact onward reply F
  | @call f positional keywords next code _ _ onward =>
      have counterpart : f.Counterpart same .asDeclared .exact f :=
        ⟨fun _ => rfl, rfl, (List.map_id f.params).symm, rfl, rfl, fun args => kept _ _ (code args)⟩
      have apart : NamesApart .asDeclared Set.univ f.params keywords :=
        ⟨fun _ _ _ _ same => same, fun _ _ => Set.mem_univ _, fun _ _ => Set.mem_univ _⟩
      have asks := Request.Respelled.call (V := V) counterpart apart positional
      rw [NamingStyle.keywords_asDeclared] at asks
      refine .request asks fun reply twin alike => ?_
      obtain rfl : reply = twin := alike.eq
      exact onward reply F
  | withInstance handle type _ _ within onward =>
      refine .withInstance handle type (within .exact) fun reply twin alike => ?_
      cases alike with
      | ok results => exact results.eq ▸ onward _ F
      | error same => exact same ▸ onward _ F
  | withBytes view writable _ _ within onward =>
      refine .withBytes view writable (within .exact) fun reply twin alike => ?_
      cases alike with
      | ok results => exact results.eq ▸ onward _ F
      | error same => exact same ▸ onward _ F
  | mapElements view type _ _ within onward =>
      exact .mapElements view type (fun old => within old .exact) fun reply => onward reply F

/-- Typed native code that leads to code without names where what comes after it goes by none. -/
def Native.Anonymous {α : Type} (code : Native σ α) : Prop :=
  ∀ next : α → Program σ, (∀ a, (next a).Anonymous) → (code next).Anonymous

namespace Native

variable {α β : Type}

theorem Anonymous.bind {code : Native σ α} {f : α → Native σ β} (first : code.Anonymous)
    (rest : ∀ a, (f a).Anonymous) : (code >>= f).Anonymous :=
  fun next onward => first _ fun a => rest a next onward

end Native

end Anonymous

end Marshal
