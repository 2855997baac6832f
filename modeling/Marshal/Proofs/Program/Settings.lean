import Mathlib
import Marshal.Proofs.Program.Chronicle

namespace Marshal

open World

variable {σ : Type} {w after : World σ}

def ClassDef.settings {π : Type} (c : ClassDef π) : Config :=
  { naming := c.naming, catchPanics := c.catchPanics, maxDepth := c.maxDepth }

namespace World

def settings (w : World σ) : List Config := w.classes.map ClassDef.settings

/-- Every class has the settings that it had. -/
def KeepsSettings (w after : World σ) : Prop := after.settings = w.settings

theorem KeepsSettings.class_settings (kept : w.KeepsSettings after) (id : Nat) :
    (after.class? id).map ClassDef.settings = (w.class? id).map ClassDef.settings := by
  have same : after.settings[id]? = w.settings[id]? := congrArg (fun settings => settings[id]?) kept
  rwa [settings, settings, List.getElem?_map, List.getElem?_map] at same

end World

/-- Whatever programs a caller runs, the settings of every class stay as they were. -/
theorem Program.settings_session [NativeState σ] (stack : Nat) (programs : List (Program σ)) (w : World σ) :
    w.KeepsSettings (session stack programs w) := by
  refine List.ext_getElem? fun id => ?_
  rw [settings, settings, List.getElem?_map, List.getElem?_map, ← class?, ← class?,
    (chronicle_session id stack programs w).class_last, Option.map_map]
  exact congrArg (fun f => Option.map f (w.class? id))
    (funext fun c => c.taking_same (fun _ _ => rfl) _)

end Marshal
