import Mathlib
import Marshal.Call.Binding
import Marshal.Proofs.World.Agree

namespace Marshal

/-- How exactly two runs agree: in every error, or only in the cause of every error. -/
inductive Fidelity
  | exact
  | alike

def Fidelity.Errors : Fidelity → Error → Error → Prop
  | .exact, e, f => e = f
  | .alike, e, f => e.label = f.label

namespace Error

@[simp] theorem label_within (segment : String) (e : Error) : (e.within segment).label = e.label := by
  cases e <;> rfl

end Error

namespace CallError

variable (function : String) (params : List Param) (e : Error)

end CallError

namespace Fidelity

variable {F : Fidelity}

@[refl] theorem Errors.refl (F : Fidelity) (e : Error) : F.Errors e e := by
  cases F <;> rfl

theorem Errors.of_eq (F : Fidelity) {e f : Error} (same : e = f) : F.Errors e f := same ▸ refl F e

theorem Errors.label {e f : Error} (alike : F.Errors e f) : e.label = f.label := by
  cases F with
  | exact => exact congrArg Error.label alike
  | alike => exact alike

theorem alike_of_label {α β : Type} {R : α → β → Prop} {e f : Error} (same : e.label = f.label) :
    Alike Fidelity.alike.Errors R (.error e) (.error f) :=
  .error (E := Fidelity.alike.Errors) same

/-- How exactly runs agree in which names are exported in a style. -/
def Admits (F : Fidelity) (style : NamingStyle) : Prop := F = .exact → style = .asDeclared

/-- Errors with the same cause that tell of exported names agree. -/
theorem Errors.of_label {e : String → Error} {style : NamingStyle} (admits : F.Admits style) (name : String)
    (same : ∀ a b, (e a).label = (e b).label) : F.Errors (e name) (e (style.apply name)) := by
  cases F with
  | exact =>
      obtain rfl := admits rfl
      rfl
  | alike => exact same _ _

end Fidelity

namespace NamingStyle

variable (style : NamingStyle)

def param (param : Param) : Param := { param with name := style.apply param.name }

def keywords (keywords : Keywords) : Keywords := keywords.map fun (name, value) => (style.apply name, value)

@[simp] theorem param_asDeclared : NamingStyle.asDeclared.param = id := rfl

@[simp] theorem keywords_asDeclared (keywords : Keywords) :
    NamingStyle.asDeclared.keywords keywords = keywords := by
  rw [NamingStyle.keywords]
  exact List.map_id' keywords

end NamingStyle

section Binding

variable {style : NamingStyle} {known : Set String} {params : List Param} {function twin : String}

/-- The names of parameters and keywords are known, and the style keeps known names apart. -/
structure NamesApart (style : NamingStyle) (known : Set String) (params : List Param) (keywords : Keywords) :
    Prop where
  injective : Set.InjOn style.apply known
  params : ∀ param ∈ params, param.name ∈ known
  keywords : ∀ keyword ∈ keywords, keyword.1 ∈ known

theorem findIdx?_renamed (injective : Set.InjOn style.apply known)
    (declared : ∀ param ∈ params, param.name ∈ known) {name : String} (member : name ∈ known) :
    (params.map style.param).findIdx? (fun param => param.name == style.apply name) =
      params.findIdx? fun param => param.name == name := by
  rw [List.findIdx?_map]
  have same : ∀ param ∈ params, (style.apply param.name == style.apply name) = (param.name == name) := by
    intro param there
    rw [Bool.eq_iff_iff, beq_iff_eq, beq_iff_eq, injective.eq_iff (declared param there) member]
  clear declared
  induction params with
  | nil => rfl
  | cons param rest ih =>
      rw [List.forall_mem_cons] at same
      rw [List.findIdx?_cons, List.findIdx?_cons, ih same.2]
      simp only [Function.comp_apply, NamingStyle.param, same.1]

theorem placeKeyword_renamed (injective : Set.InjOn style.apply known)
    (declared : ∀ param ∈ params, param.name ∈ known) {keyword : String × Value} (member : keyword.1 ∈ known)
    (places : List (Option Value)) :
    Alike Fidelity.alike.Errors Eq (placeKeyword function params places keyword)
      (placeKeyword twin (params.map style.param) places (style.apply keyword.1, keyword.2)) := by
  simp only [placeKeyword, findIdx?_renamed injective declared member]
  cases params.findIdx? fun param => param.name == keyword.1 with
  | none => exact Fidelity.alike_of_label rfl
  | some index =>
      dsimp only
      rcases places[index]? with _ | (_ | taken)
      · exact Fidelity.alike_of_label rfl
      · exact .ok rfl
      · exact Fidelity.alike_of_label rfl

theorem placeKeywords_renamed {keywords : Keywords} (apart : NamesApart style known params keywords)
    (places : List (Option Value)) :
    Alike Fidelity.alike.Errors Eq (keywords.foldlM (placeKeyword function params) places)
      ((style.keywords keywords).foldlM (placeKeyword twin (params.map style.param)) places) := by
  obtain ⟨injective, declared, given⟩ := apart
  induction keywords generalizing places with
  | nil => exact .ok rfl
  | cons keyword rest ih =>
      rw [List.forall_mem_cons] at given
      rw [NamingStyle.keywords, List.map_cons, List.foldlM_cons, List.foldlM_cons]
      refine (placeKeyword_renamed injective declared given.1 places).bind fun next paired same => ?_
      subst same
      exact ih next given.2

theorem bindArguments_alike {keywords : Keywords} (apart : NamesApart style known params keywords)
    (positional : List Value) :
    Alike Fidelity.alike.Errors Eq (bindArguments function params positional keywords)
      (bindArguments twin (params.map style.param) positional (style.keywords keywords)) := by
  unfold bindArguments
  rw [List.length_map]
  by_cases many : params.length < positional.length
  · simp only [many, ↓reduceIte]
    exact Fidelity.alike_of_label rfl
  · simp only [many, ↓reduceIte]
    refine (placeKeywords_renamed apart _).bind fun places paired same => ?_
    subst same
    have zipped : places.zip (params.map style.param) = (places.zip params).map (Prod.map id style.param) :=
      List.zip_map_right ..
    have nameless : (fun entry : Option Value × Param => entry.1.isNone && entry.2.isRequired) ∘
        Prod.map id style.param = fun entry => entry.1.isNone && entry.2.isRequired := rfl
    simp only [zipped, List.filter_map, nameless, List.isEmpty_map, List.map_map]
    split
    · exact Fidelity.alike_of_label rfl
    · exact .ok rfl

theorem checkNesting_alike (limit : Nat) (params : List Param) (args : List Value) :
    Alike Fidelity.alike.Errors Eq (checkNesting limit params args)
      (checkNesting limit (params.map style.param) args) := by
  induction params generalizing args with
  | nil => exact .ok rfl
  | cons param rest ih =>
      cases args with
      | nil => exact .ok rfl
      | cons v args =>
          rw [List.map_cons, checkNesting, checkNesting]
          cases v.checkDepth limit with
          | error e => exact Fidelity.alike_of_label ((e.label_within _).trans (e.label_within _).symm)
          | ok _ => exact ih args

variable {F : Fidelity}

theorem bindArguments_renamed {keywords : Keywords} (admits : F.Admits style)
    (named : F = .exact → twin = function)
    (apart : NamesApart style known params keywords) (positional : List Value) :
    Alike F.Errors Eq (bindArguments function params positional keywords)
      (bindArguments twin (params.map style.param) positional (style.keywords keywords)) := by
  cases F with
  | exact =>
      obtain rfl := admits rfl
      obtain rfl := named rfl
      rw [NamingStyle.param_asDeclared, List.map_id, NamingStyle.keywords_asDeclared]
      exact .refl (fun _ => rfl) _
  | alike => exact bindArguments_alike apart positional

theorem checkNesting_renamed (admits : F.Admits style) (limit : Nat) (params : List Param)
    (args : List Value) :
    Alike F.Errors Eq (checkNesting limit params args)
      (checkNesting limit (params.map style.param) args) := by
  cases F with
  | exact =>
      obtain rfl := admits rfl
      rw [NamingStyle.param_asDeclared, List.map_id]
      exact .refl (fun _ => rfl) _
  | alike => exact checkNesting_alike limit params args

end Binding

end Marshal
