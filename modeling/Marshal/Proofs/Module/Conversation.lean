import Mathlib
import Marshal.Proofs.Module.Nesting
import Marshal.Proofs.Naming.Simulation

/-!
# Conversations with a module

Callers make one call after the other: of functions of a module, or of whatever native code can ask for.  The
answer to a call says which native code it entered, if any, and how it ended.  Conversations with two modules
whose tables correspond go on alike, with the names of the one and of the other.
-/

namespace Marshal

open Act hiding pure bind

variable {σ : Type}

/-- What callers do: they call a function of a module, or ask for something else, as native code can. -/
inductive Call (σ : Type)
  | function (name : String) (positional : List Value) (keywords : Keywords)
  | request (asked : Request σ (Program σ))

/-- What comes of a call: the native code that it enters, if any, and how it ends. -/
structure Answer (σ : Type) where
  entered? : Option (Opening σ)
  outcome : Outcome Value

namespace NativeModule

variable [NativeState σ] (m : NativeModule σ) (run : Runner σ)

def perform : Call σ → Act σ Value
  | .function name positional keywords => m.invoke run name positional keywords
  | .request asked => asked.serve run

def opening? (w : World σ) : Call σ → Option (Opening σ)
  | .function name positional keywords =>
    (m.function? name).bind fun f => (Request.call f positional keywords).opening? (w.noted (m.calling name))
  | .request asked => asked.opening? w

end NativeModule

def FunctionBinding.paramNames {π : Type} (f : FunctionBinding π) : Set String :=
  {name | ∃ param ∈ f.params, param.name = name}

section Conversations

variable (V : Vocabulary) (same : Fidelity → Program σ → Program σ → Prop)

/-- Calls of a module under declared names, and the same ones under the names in snake case.  Keywords are
named after parameters. -/
inductive Call.Respelled (m : NativeModule σ) : Fidelity → Call σ → Call σ → Prop
  | function {name : String} {f : FunctionBinding (Program σ)} (found : m.function? name = some f)
      (positional : List Value) {keywords : Keywords}
      (named : ∀ keyword ∈ keywords, keyword.1 ∈ f.paramNames) :
      Respelled m .alike (.function name positional keywords)
        (.function (snakeCase name) positional (NamingStyle.snakeCase.keywords keywords))
  | request {F : Fidelity} {asked other : Request σ (Program σ)}
    (respelled : asked.Respelled V same F other) :
      Respelled m F (.request asked) (.request other)

/-- Answers are alike that enter related native code and give the same value, or errors of the same kind. -/
structure Answer.Counterpart (answer other : Answer σ) : Prop where
  entered : Option.Rel (fun o twin => ∃ F, o.Counterpart same F V twin) answer.entered? other.entered?
  outcome : answer.outcome.Agree (fun e f => e.label = f.label) Eq other.outcome

/-- Modules with the same functions, under declared names and in snake case. -/
structure NativeModule.Counterpart (m n : NativeModule σ) : Prop where
  functions : ∀ name f, m.function? name = some f →
    ∃ g, n.function? (snakeCase name) = some g ∧ f.Counterpart same .snakeCase .alike g
  apart : ∀ name f, m.function? name = some f → Set.InjOn snakeCase f.paramNames

variable {V same} {F : Fidelity} {m n : NativeModule σ} {w v : World σ} [NativeState σ] {run : Runner σ}

omit [NativeState σ] in
theorem NativeModule.Counterpart.function_respelled (modules : m.Counterpart same n) {name : String}
    {f : FunctionBinding (Program σ)} (found : m.function? name = some f) {keywords : Keywords}
    (named : ∀ keyword ∈ keywords, keyword.1 ∈ f.paramNames) (positional : List Value) :
    ∃ g, n.function? (snakeCase name) = some g ∧ Request.Respelled V same .alike (.call f positional keywords)
      (.call g positional (NamingStyle.snakeCase.keywords keywords)) := by
  obtain ⟨g, there, counterpart⟩ := modules.functions name f found
  have apart : NamesApart .snakeCase f.paramNames f.params keywords :=
    ⟨modules.apart name f found, fun param member => ⟨param, member, rfl⟩, named⟩
  exact ⟨g, there, .call counterpart apart positional⟩

namespace Call.Respelled

variable (modules : m.Counterpart same n) (faithful : V.Faithful) {call other : Call σ}
  (respelled : call.Respelled V same m F other)

include modules faithful respelled

theorem opening_agree (related : w.Counterpart V same v) :
    Option.Rel (Opening.Counterpart same F V) (m.opening? w call) (n.opening? v other) := by
  cases respelled with
  | function found positional named =>
      obtain ⟨g, there, asks⟩ := modules.function_respelled found named positional
      simp only [NativeModule.opening?, found, there, Option.bind_some]
      exact asks.opening_agree faithful (related.log _ _)
  | request asks => exact asks.opening_agree faithful related

end Call.Respelled

end Conversations

end Marshal
