import Mathlib
import Marshal.Proofs.Module.Conversation

namespace Marshal

variable {σ : Type}

/-- The vocabulary before anything is renamed. -/
def Vocabulary.plain (V : Vocabulary) : Vocabulary := { V with renamed? := fun _ => none }

section Classes

variable {V : Vocabulary} {same : Fidelity → Program σ → Program σ → Prop} {classId : Nat}
  {c d : ClassDef (Program σ)}

/-- The members of a class have names that are known. -/
structure ClassDef.Within (c : ClassDef (Program σ)) (names : MemberNames) : Prop where
  methods : ∀ entry ∈ c.methods, entry.2.name ∈ names.methods
  params : ∀ entry ∈ c.methods, ∀ param ∈ entry.2.params, param.name ∈ names.params entry.2.name
  properties : ∀ entry ∈ c.properties, entry.1 ∈ names.properties

theorem MethodBinding.Counterpart.twin {name : String} {m n : MethodBinding (Program σ)}
    (counterpart : m.Counterpart V.plain same classId name n) : m.Twin same (V.fidelity classId) n where
  name := counterpart.named
  params := counterpart.params.trans (List.map_id _)
  receiver := counterpart.receiver
  entry := counterpart.entry

/-- Built under declared names and in snake case, a class has its members under names that correspond. -/
theorem ClassDef.Counterpart.configure {config : Config} {names : MemberNames} (faithful : V.Faithful)
    (renamed : V.renamed? classId = some names) (within : c.Within names)
    (counterpart : c.Counterpart V.plain same classId d) :
    (c.configure { config with naming := .asDeclared }).Counterpart V same classId
      (d.configure { config with naming := .snakeCase }) := by
  obtain ⟨style, known⟩ := Vocabulary.style_of_renamed classId renamed
  refine ⟨counterpart.name, counterpart.instanceType, rfl, rfl, ?_, fun _ => ⟨rfl, rfl⟩, ?_, ?_⟩
  · intro kept
    rw [kept] at renamed
    cases renamed
  · refine Entries.Renamed.ofList ?_ (faithful.methods classId)
    rw [Entries.Renamed, List.forall₂_map_left_iff, List.forall₂_map_right_iff]
    have named := (List.forall₂_and_left _ _).mpr
      ⟨fun entry member => And.intro (within.methods entry member) (within.params entry member),
        counterpart.methods⟩
    refine named.imp fun entry twin alike => ?_
    obtain ⟨⟨member, declared⟩, _, _, alike⟩ := alike
    have twin := alike.twin
    have name : (entry.2.rename .asDeclared).name = entry.2.name := rfl
    have params : (entry.2.rename .asDeclared).params = entry.2.params := List.map_id _
    refine ⟨known ▸ member, ?_, ?_, ?_, ?_, twin.receiver, twin.entry⟩
    · rw [style]
      exact congrArg snakeCase twin.name
    · rw [style]
      exact congrArg snakeCase twin.name
    · rw [style, params]
      exact congrArg (List.map NamingStyle.snakeCase.param) twin.params
    · rw [known, params]
      exact declared
  · refine Entries.Renamed.ofList ?_ (faithful.properties classId)
    rw [Entries.Renamed, List.forall₂_map_left_iff, List.forall₂_map_right_iff]
    have named := (List.forall₂_and_left _ _).mpr ⟨within.properties, counterpart.properties⟩
    refine named.imp fun entry twin alike => ?_
    obtain ⟨member, _, same, alike⟩ := alike
    refine ⟨known ▸ member, ?_, alike⟩
    rw [style]
    exact congrArg snakeCase same

end Classes

/-- Two functions with the same names, and native code that is related. -/
structure FunctionBinding.Twin (same : Fidelity → Program σ → Program σ → Prop)
    (f g : FunctionBinding (Program σ)) : Prop where
  name : g.name = f.name
  params : g.params = f.params
  entry : ∀ args, same .alike (f.entry args) (g.entry args)

namespace ModuleDescription

/-- The description with another naming style. -/
def styled (d : ModuleDescription σ) (style : NamingStyle) : ModuleDescription σ :=
  { d with config := { d.config with naming := style } }

/-- Snake case keeps apart what has to be: the names of the parameters of each function, and the names that a
vocabulary gives the members of the classes of the module. -/
structure Apart (V : Vocabulary) (d : ModuleDescription σ) (w : World σ) : Prop where
  faithful : V.Faithful
  functions : ∀ f ∈ d.exports, Set.InjOn snakeCase f.paramNames
  renamed : ∀ classId c, w.class? classId = some c →
    ((V.renamed? classId).isSome ↔ classId ∈ d.classes.map NativeClass.classId)
  within : ∀ classId names, V.renamed? classId = some names → ∀ c, w.class? classId = some c → c.Within names

/-- Two descriptions of one module, in worlds with the same classes, whose native code is related. -/
structure Twin (V : Vocabulary) (same : Fidelity → Program σ → Program σ → Prop) (d e : ModuleDescription σ)
    (w v : World σ) : Prop where
  config : e.config = d.config
  classes : e.classes.map NativeClass.classId = d.classes.map NativeClass.classId
  functions : ∀ f ∈ d.exports, ∃ g ∈ e.exports, f.Twin same g
  world : w.Counterpart V.plain same v

variable {V : Vocabulary} {same : Fidelity → Program σ → Program σ → Prop} {d e : ModuleDescription σ}
  {w v built last : World σ} {m n : NativeModule σ}

section Twins

variable (twin : Twin V same d e w v) (apart : Apart V d w)
  (here : (d.styled .asDeclared).build w = (.returned m, built))
  (there : (e.styled .snakeCase).build v = (.returned n, last))

include twin apart here there

theorem Twin.modules : m.Counterpart same n := by
  obtain ⟨_, rfl, _⟩ := returned_of_build here
  obtain ⟨⟨_, distinct⟩, rfl, _⟩ := returned_of_build there
  have exported : ∀ name f, ((d.styled .asDeclared).built w).function? name = some f →
      ∃ declared ∈ d.exports, name = declared.name ∧ f = (d.styled .asDeclared).exported declared :=
    fun _ _ found => exported_of_function? found
  have kept : ∀ f, ((d.styled .asDeclared).exported f).params = f.params := fun f => List.map_id f.params
  refine ⟨fun name f found => ?_, fun name f found => ?_⟩
  · obtain ⟨declared, member, rfl, rfl⟩ := exported name f found
    obtain ⟨g, listed, same⟩ := twin.functions declared member
    have known := function?_built (w := v) distinct listed
    refine ⟨(e.styled .snakeCase).exported g, ?_, nofun, ?_, ?_, ?_, ?_, same.entry⟩
    · rwa [same.name] at known
    · exact congrArg snakeCase same.name
    · rw [kept]
      exact congrArg (List.map NamingStyle.snakeCase.param) same.params
    · exact (congrArg Config.catchPanics twin.config :)
    · exact (congrArg Config.maxDepth twin.config :)
  · obtain ⟨declared, member, rfl, rfl⟩ := exported name f found
    rw [FunctionBinding.paramNames, kept]
    exact apart.functions declared member

end Twins

section Declared

end Declared

end ModuleDescription

section Unchanged

/-- The native code of a class goes by no names. -/
structure ClassDef.Anonymous (c : ClassDef (Program σ)) : Prop where
  methods : ∀ entry ∈ c.methods, ∀ args, (entry.2.entry args).Anonymous
  getters : ∀ entry ∈ c.properties, entry.2.getter.Anonymous
  setters : ∀ entry ∈ c.properties, ∀ setter, entry.2.setter? = some setter → ∀ value program,
    setter.accept value = .ok program → program.Anonymous

/-- All native code of a module and of the classes that there are goes by no names. -/
structure ModuleDescription.Anonymous (d : ModuleDescription σ) (w : World σ) : Prop where
  functions : ∀ f ∈ d.exports, ∀ args, (f.entry args).Anonymous
  classes : ∀ classId c, w.class? classId = some c → c.Anonymous

variable {V : Vocabulary} {same : Fidelity → Program σ → Program σ → Prop}
  (kept : ∀ F p, p.Anonymous → same F p p)

include kept

theorem Property.Counterpart.of_anonymous {p : Property (Program σ)} {F : Fidelity}
    (getter : p.getter.Anonymous)
    (setter : ∀ setter, p.setter? = some setter → ∀ value program,
      setter.accept value = .ok program → program.Anonymous) :
    p.Counterpart same F p where
  receiver := rfl
  getter := kept F _ getter
  setter := by
    cases found : p.setter? with
    | none => exact .none
    | some s =>
        refine .some fun value => ?_
        cases accepts : s.accept value with
        | error e => exact .error (.refl F e)
        | ok program => exact .ok (kept F _ (setter s found value program accepts))

theorem ClassDef.Anonymous.counterpart {c : ClassDef (Program σ)} (anonymous : c.Anonymous) (classId : Nat) :
    c.Counterpart V.plain same classId c where
  name := rfl
  instanceType := rfl
  catchPanics := rfl
  maxDepth := rfl
  kept _ := rfl
  renamed := nofun
  methods := by
    refine List.forall₂_same.mpr fun entry member => ⟨Set.mem_univ _, rfl, rfl, ?_, ?_, rfl, fun args => ?_⟩
    · exact (List.map_id _).symm
    · exact fun _ _ => Set.mem_univ _
    · exact kept _ _ (anonymous.methods entry member args)
  properties := by
    refine List.forall₂_same.mpr fun entry member => ⟨Set.mem_univ _, rfl, ?_⟩
    exact .of_anonymous kept (anonymous.getters entry member) (anonymous.setters entry member)

theorem World.Counterpart.of_anonymous {w : World σ}
    (classes : ∀ classId c, w.class? classId = some c → c.Anonymous) : w.Counterpart V.plain same w := by
  refine ⟨rfl, fun classId => ?_⟩
  cases found : w.class? classId with
  | none => exact .none
  | some c => exact .some ((classes classId c found).counterpart kept classId)

omit kept in
theorem ModuleDescription.Anonymous.twin {d : ModuleDescription σ} {w : World σ} (anonymous : d.Anonymous w) :
    d.Twin V Program.Unchanged d w w where
  config := rfl
  classes := rfl
  functions f member := ⟨f, member, rfl, rfl, fun args => ⟨rfl, anonymous.functions f member args⟩⟩
  world := .of_anonymous (fun _ _ anonymous => ⟨rfl, anonymous⟩) anonymous.classes

end Unchanged

section Distinct

end Distinct

namespace Sample

def raising : MethodBinding (Program State) :=
  (MethodBinding.ofNative "RaiseBy" accountType [long] .unit Account.deposited).withParams ["newAmount"]

/-- A class whose members have other names in snake case. -/
def desk : ClassDef (Program State) where
  name := "Account"
  instanceType := accountType
  methods := [("GetBalance", .ofNative "GetBalance" accountType [] long Account.balanceOf),
    ("RaiseBy", raising)]
  properties := [("currentBalance", Account.balanceProperty)]

def start : World State := { classes := [desk] }

end Sample

namespace Sample

end Sample

end Marshal
