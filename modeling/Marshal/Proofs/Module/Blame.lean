import Mathlib
import Marshal.Proofs.Module.Nesting
import Marshal.Proofs.Program.Dispatch

namespace Marshal

open Act hiding pure bind

variable {σ : Type}

namespace ClassDef

variable {declared : ClassDef (Program σ)} {config : Config} {taken : List (MethodBinding (Program σ))}
  {name : String}

/-- The methods of a class of a module are those that were declared for it and those that it took, under
exported names. -/
theorem method?_configured_taking {b : MethodBinding (Program σ)}
    (found : ((declared.configure config).taking taken).method? name = some b) :
    ∃ m ∈ declared.methods.map Prod.snd ++ taken, name = config.naming.apply m.name ∧
      b = m.rename config.naming := by
  rw [method?_taking, Option.or_eq_some_iff] at found
  rcases found with latest | ⟨_, first⟩
  · obtain ⟨m, there, rfl⟩ := Option.map_eq_some_iff.mp latest
    have named := List.find?_some there
    simp only [decide_eq_true_eq] at named
    have member := List.mem_reverse.mp (List.mem_of_find?_eq_some there)
    exact ⟨m, List.mem_append_right _ member, named.symm, rfl⟩
  · have listed := Entries.mem_of_get? ((Entries.get?_ofList _ _).symm.trans first)
    obtain ⟨⟨key, m⟩, there, same⟩ := List.mem_map.mp (List.mem_reverse.mp listed)
    cases same
    exact ⟨m, List.mem_append_left _ (List.mem_map_of_mem there), rfl, rfl⟩

/-- The properties of a class of a module are those that were declared for it, under exported names. -/
theorem property?_configured_taking {p : Property (Program σ)}
    (found : ((declared.configure config).taking taken).property? name = some p) :
    ∃ key, (key, p) ∈ declared.properties ∧ name = config.naming.apply key := by
  have first : (declared.configure config).property? name = some p := by
    rw [← found]
    exact ((declared.configure config).taking_same (f := fun c => c.property? name)
      (fun _ _ => rfl) taken).symm
  have listed := Entries.mem_of_get? ((Entries.get?_ofList _ _).symm.trans first)
  obtain ⟨⟨key, other⟩, there, same⟩ := List.mem_map.mp (List.mem_reverse.mp listed)
  cases same
  exact ⟨key, there, rfl⟩

end ClassDef

section Speaking

variable [NativeState σ] (w : World σ) (limit : Nat) (name : String) (positional : List Value)
  (keywords : Keywords)

/-- How the call of an exported function goes: it fails with an error that names the function by its exported
name, or an argument that offends by that of its parameter, or it enters native code.  Code that is typed
converts its arguments first. -/
structure NativeModule.Speaks (exporter : NativeModule σ) (f : FunctionBinding (Program σ)) : Prop where
  checked (run : Runner σ) : Accounted (exporter.invoke run name positional keywords) w
    ((w.noted (exporter.calling name)).noted (f.invoking positional keywords)) (f.enter run)
    (Error.Named name f.params limit [] positional keywords)
  typed {types : List Ty} {body : Args types → Program σ} (wraps : f.Wraps body) (stack : Nat) :
    Accounted (exporter.invoke (Program.run (stack + 1)) name positional keywords) w
      ((w.noted (exporter.calling name)).noted (f.invoking positional keywords)) (f.entering stack body)
      (Error.Named name f.params limit types positional keywords)

/-- How the call of a method of an instance goes: as that of a function, named after the class too.
Typed code is for instances of one native type, and refuses others as what they are. -/
structure Handle.Speaks (handle : Handle) (state : σ) (c : ClassDef (Program σ))
    (m : MethodBinding (Program σ)) : Prop where
  checked (run : Runner σ) : Accounted (handle.invoke run name positional keywords) w
    (w.noted (handle.invoking name positional keywords)) (handle.enter c m run)
    (Error.Named (handle.qualified name) m.params limit [] positional keywords)
  typed {types : List Ty} {receiver : String} {body : Args types → Program σ} (wraps : m.Wraps receiver body)
      (stack : Nat) :
    Accounted (handle.invoke (Program.run (stack + 1)) name positional keywords) w
      (w.noted (handle.invoking name positional keywords)) (handle.entering c m stack body)
      fun e => Error.Named (handle.qualified name) m.params limit types positional keywords e ∨
        receiver ≠ NativeState.typeName state ∧ e = Handle.foreign receiver

/-- How an assignment to a property goes that was declared with a setter, under some name: a value that
does not convert is named by the name of that declaration. -/
def Handle.SpeaksOf (handle : Handle) (state : σ) (declared : String) (p : Property (Program σ)) : Prop :=
  ∀ {receiver : String} {type accepted : Ty} {getter : Native σ type.Carrier}
    {setter : accepted.Carrier → Native σ Unit},
    p = .readWrite declared receiver type getter accepted setter → ∀ stack value,
    Accounted (handle.setAttr (Program.run (stack + 1)) name value) w w
      (fun x => handle.assigning stack (setter x fun _ => .done (.ok .none)))
      fun e => e.Below declared value ∧ ¬ accepted.Matches value ∨ e = handle.busy ∨
        receiver ≠ NativeState.typeName state ∧ e = Handle.foreign receiver

end Speaking

section Exports

variable [NativeState σ] {w : World σ} (positional : List Value) (keywords : Keywords)

theorem NativeModule.speaks_of_found {exporter : NativeModule σ} {name : String}
    {f : FunctionBinding (Program σ)} (found : exporter.function? name = some f) (named : f.name = name) :
    exporter.Speaks w f.maxDepth name positional keywords f := by
  subst named
  have called : ∀ run, exporter.invoke run f.name positional keywords w =
      f.invoke run positional keywords (w.noted (exporter.calling f.name)) :=
    fun run => NativeModule.invoke_of_found found run positional keywords w
  constructor
  · intro run
    refine .of_checked [] ?_
    rw [called, f.invoke_apply]
    rfl
  · intro types body wraps stack
    rw [Accounted, called]
    have entersOnce := FunctionBinding.invoke_entersOnce wraps stack (w.noted (exporter.calling f.name))
      positional keywords
    exact entersOnce.accounted fun e screened => screened.named (by rintro _ ⟨⟩)

theorem Handle.speaks_of_method {handle : Handle} {cell : Cell σ} {state : σ} {c : ClassDef (Program σ)}
    {name : String} {m : MethodBinding (Program σ)} (holds : handle.Holds w cell state c)
    (found : c.method? name = some m) (named : m.name = name) :
    handle.Speaks w c.maxDepth name positional keywords state c m := by
  subst named
  refine ⟨fun run => .of_checked [] ?_, fun wraps stack => ?_⟩
  · exact invoke_of_found run holds found positional keywords
  · exact invoke_accounted holds found wraps stack positional keywords

end Exports

/-- Errors name what is to blame as callers see it.  A function, constructor or method that fails before
native code names itself by its exported name if it could not bind its arguments, and otherwise an
argument that offends by the exported name of its parameter, followed by the path into the argument.  A
value that is assigned to a property is named as well, but by the name that the property was declared
with. -/
theorem errors_name_exports [NativeState σ] {d : ModuleDescription σ} {w built : World σ}
    {exporter : NativeModule σ} (builds : d.build w = (.returned exporter, built)) :
    (∀ f ∈ d.exports, exporter.function? (d.config.naming.apply f.name) = some (d.exported f) ∧
      ∀ now positional keywords,
        exporter.Speaks now d.config.maxDepth (d.config.naming.apply f.name) positional keywords
          (d.exported f)) ∧
    ∀ stack programs before m rest, Program.sessionMoments stack programs built = before ++ m :: rest →
      ∀ (handle : Handle) cell state c, handle.classId ∈ d.classes.map NativeClass.classId →
        handle.Holds m.world cell state c →
        ∃ declared, w.class? handle.classId = some declared ∧
          (∀ fresh made after, Handle.create handle.classId fresh m.world = (.returned made, after) →
            made.className = declared.name) ∧
          (∀ name b, c.method? name = some b →
            (∃ method ∈ declared.methods.map Prod.snd ++ taken handle.classId before,
              name = d.config.naming.apply method.name ∧ b = method.rename d.config.naming) ∧
            ∀ positional keywords,
              handle.Speaks m.world d.config.maxDepth name positional keywords state c b) ∧
          ∀ name p, c.property? name = some p →
            ∃ key, (key, p) ∈ declared.properties ∧ name = d.config.naming.apply key ∧
              handle.SpeaksOf m.world name state key p := by
  refine ⟨fun f member => ?_, ?_⟩
  · obtain ⟨⟨_, functions⟩, rfl, _⟩ := ModuleDescription.returned_of_build builds
    have found := ModuleDescription.function?_built (w := w) functions member
    exact ⟨found, fun now positional keywords => NativeModule.speaks_of_found positional keywords found rfl⟩
  · intro stack programs before m rest reached handle cell state c member holds
    have chronicle := Program.chronicle_session handle.classId stack programs built
    rw [reached] at chronicle
    have present := chronicle.class_at
    rw [holds.declared, ModuleDescription.class?_of_build builds, if_pos member, Option.map_map] at present
    obtain ⟨declared, there, rfl⟩ := Option.map_eq_some_iff.mp present.symm
    let configured := declared.configure d.config
    let since := taken handle.classId before
    have limit := configured.taking_same (f := ClassDef.maxDepth) (fun _ _ => rfl) since
    have shown := configured.taking_same (f := ClassDef.name) (fun _ _ => rfl) since
    refine ⟨declared, there, fun fresh made after created => ?_, fun name b found => ?_,
      fun name p found => ?_⟩
    · cases created
      have known : m.world.class? handle.classId = some (configured.taking since) := holds.declared
      simp only [known, Option.map_some, shown, Option.getD_some]
      rfl
    · obtain ⟨method, given, named, rfl⟩ := ClassDef.method?_configured_taking found
      refine ⟨⟨method, given, named, rfl⟩, fun positional keywords => ?_⟩
      have speaks := Handle.speaks_of_method positional keywords holds found named.symm
      rwa [Function.comp_apply, limit] at speaks
    · obtain ⟨key, given, named⟩ := ClassDef.property?_configured_taking found
      refine ⟨key, given, named, fun same stack value => ?_⟩
      subst same
      exact Handle.setAttr_accounted holds found stack value

namespace Sample

def ownerName : Property (Program State) := Account.ownerProperty "OwnerName"

/-- A class with a property whose declared name is not in snake case. -/
def housed : ClassDef (Program State) := { bank with properties := [("OwnerName", ownerName)] }

def house : World State := { branch with classes := [housed] }

def halving : FunctionBinding (Program State) := .ofNative "HalfOf" [long] long half

def snaked : ModuleDescription State where
  name := "bank"
  functions := [halving]
  classes := [{ classId := 0 }]
  config := { naming := .snakeCase }

end Sample

open Sample in
theorem errors_name_exports_declared :
    ∃ (exporter : NativeModule State) (built : World State),
      snaked.build house = (.returned exporter, built) ∧
        exporter.Speaks built defaultMaxDepth "half_of" [] [] (snaked.exported halving) ∧
        (exporter.invoke (Program.run 1) "half_of" [] [] built).1 =
          .failed (.arity "half_of" "missing 1 required argument: 'arg1'") ∧
        NamingStyle.snakeCase.apply "OwnerName" = "owner_name" ∧
        teller.SpeaksOf built "owner_name" (.account { balance := Long.zero }) "OwnerName" ownerName ∧
        (teller.setAttr (Program.run 1) "owner_name" (.int 5 none) built).1 =
          .failed (.typeMismatch "str" "int" "OwnerName") := by
  obtain ⟨exporter, built, cell, builds, free, holds⟩ :
      ∃ (exporter : NativeModule State) (built : World State) (cell : Cell State),
        snaked.build house = (.returned exporter, built) ∧ teller.busy? cell = none ∧
          teller.Holds built cell (.account { balance := Long.zero }) (housed.configure snaked.config) :=
    ⟨_, _, _, ModuleDescription.build_of_distinct (by decide) (by decide), rfl, rfl, by decide, rfl, rfl⟩
  obtain ⟨functions, sessions⟩ := errors_name_exports builds
  have function : NamingStyle.snakeCase.apply "HalfOf" = "half_of" := by decide
  have parameter : NamingStyle.snakeCase.apply "arg1" = "arg1" := by decide
  have property : NamingStyle.snakeCase.apply "OwnerName" = "owner_name" := by decide
  have called : exporter.function? "half_of" = some (snaked.exported halving) ∧ ∀ now positional keywords,
      exporter.Speaks now defaultMaxDepth "half_of" positional keywords (snaked.exported halving) :=
    function ▸ functions halving List.mem_cons_self
  have unbound : bindArguments (snaked.exported halving).name (snaked.exported halving).params [] [] =
      .error (.arity "half_of" "missing 1 required argument: 'arg1'") := by
    have named : (snaked.exported halving).name = NamingStyle.snakeCase.apply "HalfOf" := rfl
    have given : (snaked.exported halving).params =
      [{ name := NamingStyle.snakeCase.apply "arg1", type := long.native }] := rfl
    rw [named, given, function, parameter]
    rfl
  have listed : housed.properties = [] ++ ("OwnerName", ownerName) :: [] := rfl
  have last := (housed.properties_configure snaked.config).last listed (List.forall_mem_nil _)
  have found : (housed.configure snaked.config).property? (NamingStyle.snakeCase.apply "OwnerName") =
      some ownerName := last
  rw [property] at found
  obtain ⟨declared, there, _, _, properties⟩ := sessions 0 [] [] { world := built, holds := [] } [] rfl teller
    _ _ _ (List.mem_singleton_self 0) holds
  cases there
  obtain ⟨key, member, _, speaksOf⟩ := properties _ _ found
  cases List.mem_singleton.mp member
  have refused := (Handle.setAttr_entersOnce holds found 0 (.int 5 none)).refused (.unconverted free rfl)
  refine ⟨exporter, built, builds, called.2 _ _ _, ?_, property, speaksOf, ?_⟩
  · rw [NativeModule.invoke_of_found called.1, FunctionBinding.invoke_apply, unbound]
    rfl
  · have located : (Error.mismatch "str" "int").within "OwnerName" =
    .typeMismatch "str" "int" "OwnerName" := by
      simp [Error.mismatch, Error.within, Error.joinLocation]
    exact (congrArg Prod.fst refused).trans (congrArg Outcome.failed located)

end Marshal
