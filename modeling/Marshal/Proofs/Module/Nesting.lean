import Mathlib
import Marshal.Proofs.Call.Limit
import Marshal.Proofs.Module.Exports
import Marshal.Proofs.Program.Settings

namespace Marshal

open Act hiding pure bind

variable {σ : Type} {w built : World σ} {m : NativeModule σ}

/-- What a module writes to the journal when one of its functions is called. -/
def NativeModule.calling (m : NativeModule σ) (name : String) : Event :=
  ⟨.debug, .module, "module call", [⟨"module", m.name⟩, .quoted "function" name]⟩

theorem NativeModule.invoke_of_found {name : String} {f : FunctionBinding (Program σ)}
    (found : m.function? name = some f) (run : Runner σ) (positional : List Value) (keywords : Keywords)
    (w : World σ) :
    m.invoke run name positional keywords w =
      f.invoke run positional keywords (w.noted (m.calling name)) := by
  simp only [invoke, found, ofOption_some, pure_bind]
  rfl

namespace ModuleDescription

variable {d : ModuleDescription σ}

/-- Where a build succeeds, nothing clashed. -/
theorem returned_of_build (builds : d.build w = (.returned m, built)) :
    ((d.classNames w).Nodup ∧ d.exportedNames.Nodup) ∧ m = d.built w ∧
      built.classes = (d.configured d.classes w).classes := by
  by_cases distinct : (d.classNames w).Nodup ∧ d.exportedNames.Nodup
  · cases (build_of_distinct distinct.1 distinct.2).symm.trans builds
    exact ⟨distinct, rfl, rfl⟩
  · obtain ⟨kind, name, after, refused⟩ := build_of_clash distinct
    cases refused.symm.trans builds

theorem maxDepth_of_build (builds : d.build w = (.returned m, built)) {name : String}
    {f : FunctionBinding (Program σ)} (found : m.function? name = some f) :
    f.maxDepth = d.config.maxDepth := by
  obtain ⟨_, rfl, _⟩ := returned_of_build builds
  obtain ⟨declared, _, _, rfl⟩ := exported_of_function? found
  rfl

theorem class?_of_build (builds : d.build w = (.returned m, built)) (classId : Nat) :
    built.class? classId =
      if classId ∈ d.classes.map NativeClass.classId then (w.class? classId).map fun c => c.configure d.config
      else w.class? classId := by
  obtain ⟨⟨classes, _⟩, _, same⟩ := returned_of_build builds
  rw [← d.class?_configured classes, World.class?, World.class?, same]

/-- As long as classes keep their settings, those of the module have the settings of the module. -/
theorem settings_of_build (builds : d.build w = (.returned m, built)) {now : World σ}
    (kept : built.KeepsSettings now) {id : Nat} (member : id ∈ d.classes.map NativeClass.classId)
    {c : ClassDef (Program σ)} (found : now.class? id = some c) : c.settings = d.config := by
  have settings := kept.class_settings id
  rw [found, class?_of_build builds, if_pos member, Option.map_map] at settings
  obtain ⟨declared, _, settled⟩ := Option.map_eq_some_iff.mp settings.symm
  exact settled.symm

end ModuleDescription

/-- Native code of a module runs on no argument that nests deeper than the limit of the module, in
whatever world programs have led to: the call of a function, a constructor or a method fails before it,
and arguments that nest no deeper are not refused for it.  A value that is assigned to a property is not
limited: native code runs on it however deep it nests. -/
theorem nesting_limit_exact [NativeState σ] {d : ModuleDescription σ}
    (builds : d.build w = (.returned m, built)) :
    (∀ stack programs, built.KeepsSettings (Program.session stack programs built)) ∧
    ∀ now, built.KeepsSettings now →
      (∀ name f, m.function? name = some f → ∀ positional keywords,
        Limited d.config.maxDepth f.name f.params positional keywords
          (fun run => m.invoke run name positional keywords) f.enter now
          ((now.noted (m.calling name)).noted (f.invoking positional keywords))) ∧
      ∀ (handle : Handle) cell state c, handle.classId ∈ d.classes.map NativeClass.classId →
        handle.Holds now cell state c →
        (∀ name method, c.method? name = some method → ∀ positional keywords,
          Limited d.config.maxDepth (handle.qualified method.name) method.params positional keywords
            (fun run => handle.invoke run name positional keywords) (handle.enter c method) now
            (now.noted (handle.invoking method.name positional keywords))) ∧
        ∀ name p setter, c.property? name = some p → p.setter? = some setter →
          p.receiver = NativeState.typeName state → handle.busy? cell = none → ∀ stack value,
          handle.setAttr (Program.run (stack + 1)) name value now =
            (ofExcept (setter.accept value) >>= handle.assigning stack) now := by
  refine ⟨fun stack programs => Program.settings_session stack programs built, fun now kept => ⟨?_, ?_⟩⟩
  · intro name f found positional keywords
    rw [← ModuleDescription.maxDepth_of_build builds found]
    refine .of_checked fun run => ?_
    rw [NativeModule.invoke_of_found found, f.invoke_apply]
    rfl
  · intro handle cell state c member holds
    have settings := ModuleDescription.settings_of_build builds kept member holds.declared
    have limit : c.maxDepth = d.config.maxDepth := congrArg Config.maxDepth settings
    refine ⟨fun name method found positional keywords => ?_, fun name p setter found settable own free => ?_⟩
    · rw [← limit]
      exact Handle.invoke_limited holds found positional keywords
    · exact Handle.setAttr_unlimited holds free found settable own

namespace Sample

/-- A class with a method and a property that take a list. -/
def savings : ClassDef (Program State) where
  name := "Account"
  instanceType := accountType
  methods := [("raise", .ofNative "raise" accountType [.list long] .unit Account.raised)]
  properties := [("history", Account.historyProperty "history")]

def saver : World State := { branch with classes := [savings] }

/-- A module that takes no containers with anything inside. -/
def flat : ModuleDescription State where
  name := "bank"
  classes := [{ classId := 0 }]
  config := { maxDepth := 0 }

end Sample

open Sample in
theorem nesting_limit_exact_assignment :
    ∃ m built, flat.build saver = (.returned m, built) ∧
      (∃ name path, ∀ run, teller.invoke run "raise" [.seq [.int 5 none]] [] built =
        (.failed (.tooDeep 0 name path), built.noted (teller.invoking "raise" [.seq [.int 5 none]] []))) ∧
      (teller.setAttr (Program.run 1) "history" (.seq [.int 5 none]) built).1 = .returned () := by
  have builds := ModuleDescription.build_of_distinct (d := flat) (w := saver) (by decide) (by decide)
  obtain ⟨_, laws⟩ := nesting_limit_exact builds
  obtain ⟨methods, properties⟩ :=
    (laws _ rfl).2 teller _ _ _ (List.mem_singleton_self 0) ⟨rfl, by decide, rfl, rfl⟩
  refine ⟨_, _, builds, ?_, ?_⟩
  · have bound : bindArguments "Account.raise" [{ name := "arg1", type := (Ty.list long).native }]
        [.seq [.int 5 none]] [] = .ok [.seq [.int 5 none]] := rfl
    exact (methods "raise" _ rfl _ _).refused bound (List.mem_singleton_self _) (by decide)
  · rw [properties "history" _ _ rfl rfl rfl rfl]
    rfl

end Marshal
