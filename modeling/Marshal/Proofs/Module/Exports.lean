import Mathlib
import Marshal.Module
import Marshal.Proofs.Value.Entries
import Marshal.Proofs.World.Lives
import Marshal.Sample.Catalogue

namespace Marshal

open Act hiding pure bind

variable {σ : Type}

namespace World

variable (w : World σ) (id other : Nat) (f : ClassDef (Program σ) → ClassDef (Program σ))

def className? : Option String := (w.class? id).map ClassDef.name

variable {f}

theorem className?_setClass (keeps : ∀ c, (f c).name = c.name) :
    (w.setClass id f).className? other = w.className? other := by
  simp only [className?, class?_setClass]
  split
  · simp only [Option.map_map, Function.comp_def, keeps]
  · rfl

end World

namespace ClassDef

variable {π : Type} (c : ClassDef π) (config : Config)

@[simp] theorem configure_name : (c.configure config).name = c.name := rfl

theorem methods_configure : LastFound (fun entry => config.naming.apply entry.2.name)
    (fun entry => entry.2.rename config.naming) c.methods (c.configure config).method? :=
  Entries.lastFound _ _ _

theorem properties_configure : LastFound (fun entry => config.naming.apply entry.1) Prod.snd c.properties
    (c.configure config).property? :=
  Entries.lastFound _ _ _

end ClassDef

namespace ModuleDescription

variable (d : ModuleDescription σ) {w : World σ}

/-- The functions and constructors, in the order in which they are exported. -/
def exports : List (FunctionBinding (Program σ)) :=
  d.functions ++ d.classes.flatMap NativeClass.constructors

def exportedNames : List String := d.exports.map fun f => d.config.naming.apply f.name

/-- The classes that there are, under their names. -/
def classTable (w : World σ) (classes : List (NativeClass σ)) : Entries String Nat :=
  classes.filterMap fun c => (w.className? c.classId).map fun name => (name, c.classId)

def classNames (w : World σ) : List String := (classTable w d.classes).map Prod.fst

/-- The world in which these classes have the settings of the module. -/
def configured (classes : List (NativeClass σ)) (w : World σ) : World σ :=
  classes.foldl (fun w c => w.setClass c.classId fun c => c.configure d.config) w

section Classes

variable {c : NativeClass σ} {rest classes : List (NativeClass σ)} {table : Entries String Nat}

theorem classTable_cons_of_none (missing : w.className? c.classId = none) :
    classTable w (c :: rest) = classTable w rest := by
  simp only [classTable, List.filterMap_cons, missing, Option.map_none]

theorem classTable_cons_of_some {name : String} (found : w.className? c.classId = some name) :
    classTable w (c :: rest) = (name, c.classId) :: classTable w rest := by
  simp only [classTable, List.filterMap_cons, found, Option.map_some]

theorem mem_classTable {id : Nat} {name : String} (found : w.className? id = some name)
    (member : id ∈ classes.map NativeClass.classId) : (name, id) ∈ classTable w classes := by
  obtain ⟨c, there, rfl⟩ := List.mem_map.mp member
  exact List.mem_filterMap.mpr ⟨c, there, by rw [found, Option.map_some]⟩

theorem classTable_configured (c : NativeClass σ) (w : World σ) (classes : List (NativeClass σ)) :
    classTable (d.configured [c] w) classes = classTable w classes := by
  have same : ∀ id, (d.configured [c] w).className? id = w.className? id :=
    fun id => w.className?_setClass c.classId id fun _ => rfl
  simp only [classTable, same]

/-- One step through the classes: a number without a class does not count, and a class must not have the name
of an earlier one. -/
theorem addClasses_cons : d.addClasses (c :: rest) table w =
    match w.className? c.classId with
    | none => d.addClasses rest table (d.configured [c] w)
    | some name =>
      if name ∈ table.map Prod.fst then (.failed (d.twiceError "class" name), d.configured [c] w)
      else d.addClasses rest (table ++ [(name, c.classId)]) (d.configured [c] w) := by
  have found := World.class?_setClass w c.classId c.classId fun c => c.configure d.config
  rw [if_pos rfl] at found
  simp only [addClasses, bind_apply, Act.bind, modify_apply, read_apply, found, World.className?, configured,
    List.foldl_cons, List.foldl_nil]
  cases w.class? c.classId with
  | none => rfl
  | some definition =>
      simp only [Option.map_some, ClassDef.configure_name]
      by_cases known : definition.name ∈ table.map Prod.fst
      · have there : (Entries.get? table definition.name).isSome := by
          rw [Option.isSome_iff_ne_none, ne_eq, Entries.get?_eq_none, not_not]
          exact known
        simp only [there, ↓reduceIte, known, fail_bind, fail_apply]
      · have absent : Entries.get? table definition.name = none := Entries.get?_eq_none.mpr known
        have new : ∀ entry ∈ table, entry.1 ≠ definition.name :=
          fun entry member same => known (same ▸ List.mem_map_of_mem member)
        simp only [absent, Option.isSome_none, Bool.false_eq_true, ↓reduceIte, known,
          Entries.insert_of_new new]

theorem addClasses_of_distinct (distinct : ((table ++ classTable w classes).map Prod.fst).Nodup) :
    d.addClasses classes table w = (.returned (table ++ classTable w classes), d.configured classes w) := by
  induction classes generalizing table w with
  | nil =>
      rw [classTable, List.filterMap_nil, List.append_nil]
      rfl
  | cons c rest ih =>
      rw [addClasses_cons]
      have next := @ih (d.configured [c] w)
      simp only [classTable_configured] at next
      cases found : w.className? c.classId with
      | none =>
          rw [classTable_cons_of_none found] at distinct ⊢
          exact next distinct
      | some name =>
          rw [classTable_cons_of_some found, List.append_cons] at distinct ⊢
          have new : name ∉ table.map Prod.fst := by
            rw [List.map_append, List.map_append, List.append_assoc] at distinct
            exact fun known => (List.nodup_append.mp distinct).2.2 name known name (by simp) rfl
          simp only [new, ↓reduceIte]
          exact next distinct

theorem addClasses_of_clash (sofar : (table.map Prod.fst).Nodup)
    (clash : ¬ ((table ++ classTable w classes).map Prod.fst).Nodup) :
    ∃ name after, d.addClasses classes table w = (.failed (d.twiceError "class" name), after) := by
  induction classes generalizing table w with
  | nil =>
      rw [classTable, List.filterMap_nil, List.append_nil] at clash
      exact absurd sofar clash
  | cons c rest ih =>
      rw [addClasses_cons]
      have next := @ih (d.configured [c] w)
      simp only [classTable_configured] at next
      cases found : w.className? c.classId with
      | none =>
          rw [classTable_cons_of_none found] at clash
          exact next sofar clash
      | some name =>
          rw [classTable_cons_of_some found, List.append_cons] at clash
          by_cases known : name ∈ table.map Prod.fst
          · exact ⟨name, _, if_pos known⟩
          · simp only [known, ↓reduceIte]
            refine next ?_ clash
            rw [List.map_append, List.map_singleton]
            exact sofar.append (List.nodup_singleton name) (by simpa using known)

/-- Each class is configured once. -/
theorem class?_configured (distinct : ((classTable w classes).map Prod.fst).Nodup) (id : Nat) :
    (d.configured classes w).class? id =
      if id ∈ classes.map NativeClass.classId then (w.class? id).map fun c => c.configure d.config
      else w.class? id := by
  induction classes generalizing w with
  | nil => rfl
  | cons c rest ih =>
      have next := @ih (d.configured [c] w)
      have step : (d.configured [c] w).class? id = _ := w.class?_setClass c.classId id _
      rw [classTable_configured] at next
      change (d.configured rest (d.configured [c] w)).class? id = _
      cases found : w.className? c.classId with
      | none =>
          have missing : w.class? c.classId = none := Option.map_eq_none_iff.mp found
          rw [classTable_cons_of_none found] at distinct
          rw [next distinct, step]
          by_cases here : c.classId = id
          · simp only [← here, missing, Option.map_none, ite_self]
          · simp only [here, ↓reduceIte, List.map_cons, List.mem_cons, Ne.symm here, false_or]
      | some name =>
          rw [classTable_cons_of_some found, List.map_cons, List.nodup_cons] at distinct
          have last : c.classId ∉ rest.map NativeClass.classId :=
            fun later => distinct.1 (List.mem_map_of_mem (mem_classTable found later))
          rw [next distinct.2, step]
          by_cases here : c.classId = id
          · simp only [← here, last, ↓reduceIte, List.map_cons, List.mem_cons, true_or]
          · simp only [here, ↓reduceIte, List.map_cons, List.mem_cons, Ne.symm here, false_or]

end Classes

section Functions

variable {f : FunctionBinding (Program σ)} {fs : List (FunctionBinding (Program σ))}
  {table : Entries String (FunctionBinding (Program σ))}

/-- The functions under their exported names. -/
def functionTable (fs : List (FunctionBinding (Program σ))) : Entries String (FunctionBinding (Program σ)) :=
  fs.map fun f => (d.config.naming.apply f.name, d.exported f)

theorem keys_functionTable :
    (d.functionTable fs).map Prod.fst = fs.map fun f => d.config.naming.apply f.name := by
  rw [functionTable, List.map_map]
  rfl

theorem addFunctions_of_distinct (distinct : ((table ++ d.functionTable fs).map Prod.fst).Nodup) :
    d.addFunctions fs table = .ok (table ++ d.functionTable fs) := by
  induction fs generalizing table with
  | nil => exact congrArg Except.ok (List.append_nil table).symm
  | cons f rest ih =>
      have listed : table ++ d.functionTable (f :: rest) =
          table ++ [(d.config.naming.apply f.name, d.exported f)] ++ d.functionTable rest :=
        List.append_cons ..
      have apart := distinct
      rw [List.map_append, List.nodup_append] at apart
      have new : ∀ entry ∈ table, entry.1 ≠ (d.exported f).name :=
        fun entry member => apart.2.2 _ (List.mem_map_of_mem member) _ List.mem_cons_self
      have absent : Entries.get? table (d.exported f).name = none :=
        Entries.get?_eq_none.mpr fun known =>
          have ⟨entry, member, same⟩ := List.mem_map.mp known
          new entry member same
      simp only [addFunctions, absent, Entries.insert_of_new new]
      rw [listed] at distinct ⊢
      exact ih distinct

theorem addFunctions_of_clash (sofar : (table.map Prod.fst).Nodup)
    (clash : ¬ ((table ++ d.functionTable fs).map Prod.fst).Nodup) :
    ∃ name, d.addFunctions fs table = .error (d.twiceError "function" name) := by
  induction fs generalizing table with
  | nil => exact absurd sofar (by simpa only [functionTable, List.map_nil, List.append_nil] using clash)
  | cons f rest ih =>
      have listed : table ++ d.functionTable (f :: rest) =
          table ++ [((d.exported f).name, d.exported f)] ++ d.functionTable rest :=
        List.append_cons ..
      rw [listed] at clash
      cases known : Entries.get? table (d.exported f).name with
      | some other => exact ⟨(d.exported f).name, by simp only [addFunctions, known]⟩
      | none =>
          have new := Entries.get?_eq_none.mp known
          have fresh : ∀ entry ∈ table, entry.1 ≠ (d.exported f).name :=
            fun entry member same => new (same ▸ List.mem_map_of_mem member)
          simp only [addFunctions, known, Entries.insert_of_new fresh]
          refine ih ?_ clash
          rw [List.map_append, List.map_singleton]
          exact sofar.append (List.nodup_singleton _) (by simpa using new)

end Functions

/-- What a build writes to the journal. -/
def building (m : NativeModule σ) : Event :=
  ⟨.info, .module, "built native module",
    [⟨"module", m.name⟩, .ofNat "functions" m.functions.length, .ofNat "classes" m.classes.length]⟩

/-- The module that a build gives when no names clash. -/
def built (w : World σ) : NativeModule σ :=
  { name := d.name, doc? := d.doc?, functions := d.functionTable d.exports,
    classes := classTable w d.classes, config := d.config }

variable {d}

theorem build_of_distinct (classes : (d.classNames w).Nodup) (functions : d.exportedNames.Nodup) :
    d.build w = (.returned (d.built w),
      { d.configured d.classes w with
        journal := building (d.built w) :: (d.configured d.classes w).journal }) := by
  have added : d.addClasses d.classes [] w = (.returned (classTable w d.classes), d.configured d.classes w) :=
    d.addClasses_of_distinct classes
  have distinct : (([] ++ d.functionTable d.exports).map Prod.fst).Nodup := by
    rwa [List.nil_append, keys_functionTable]
  have exported : d.addFunctions d.exports [] = .ok (d.functionTable d.exports) :=
    d.addFunctions_of_distinct distinct
  have names : d.functions ++ d.classes.flatMap NativeClass.constructors = d.exports := rfl
  simp only [build, bind_of_returned added, names, exported, ofExcept_ok, pure_bind]
  rfl

theorem build_of_clash (clash : ¬ ((d.classNames w).Nodup ∧ d.exportedNames.Nodup)) :
    ∃ kind name after, d.build w = (.failed (d.twiceError kind name), after) := by
  by_cases classes : (d.classNames w).Nodup
  · have functions : ¬ ((([] : Entries String _) ++ d.functionTable d.exports).map Prod.fst).Nodup := by
      rw [List.nil_append, keys_functionTable]
      exact fun distinct => clash ⟨classes, distinct⟩
    obtain ⟨name, refused⟩ : ∃ name, d.addFunctions d.exports [] = .error (d.twiceError "function" name) :=
      d.addFunctions_of_clash List.nodup_nil functions
    have added : d.addClasses d.classes [] w =
      (.returned (classTable w d.classes), d.configured d.classes w) :=
      d.addClasses_of_distinct classes
    have names : d.functions ++ d.classes.flatMap NativeClass.constructors = d.exports := rfl
    refine ⟨"function", name, d.configured d.classes w, ?_⟩
    simp only [build, bind_of_returned added, names, refused, ofExcept_error, fail_bind, fail_apply]
  · obtain ⟨name, after, refused⟩ :
        ∃ name after, d.addClasses d.classes [] w = (.failed (d.twiceError "class" name), after) :=
      d.addClasses_of_clash List.nodup_nil classes
    exact ⟨"class", name, after, bind_of_failed refused⟩

theorem function?_built (functions : d.exportedNames.Nodup) {f : FunctionBinding (Program σ)}
    (member : f ∈ d.exports) :
    (d.built w).function? (d.config.naming.apply f.name) = some (d.exported f) := by
  refine Entries.get?_of_mem ?_ (List.mem_map_of_mem member)
  rwa [built, keys_functionTable]

theorem exported_of_function? {name : String} {f : FunctionBinding (Program σ)}
    (found : (d.built w).function? name = some f) :
    ∃ declared ∈ d.exports, name = d.config.naming.apply declared.name ∧ f = d.exported declared := by
  obtain ⟨declared, member, same⟩ := List.mem_map.mp (Entries.mem_of_get? found)
  cases same
  exact ⟨declared, member, rfl, rfl⟩

theorem class?_built (classes : (d.classNames w).Nodup) {c : NativeClass σ} {declared : ClassDef (Program σ)}
    (member : c ∈ d.classes) (found : w.class? c.classId = some declared) :
    (d.configured d.classes w).class? c.classId = some (declared.configure d.config) ∧
      (d.built w).class? (d.configured d.classes w) declared.name = some (declared.configure d.config) := by
  have configured : (d.configured d.classes w).class? c.classId = some (declared.configure d.config) := by
    rw [d.class?_configured classes, if_pos (List.mem_map_of_mem member), found, Option.map_some]
  have named : w.className? c.classId = some declared.name := by rw [World.className?, found, Option.map_some]
  have listed := Entries.get?_of_mem classes (mem_classTable named (List.mem_map_of_mem member))
  refine ⟨configured, ?_⟩
  rw [NativeModule.class?, built, listed, Option.bind_some, configured]

end ModuleDescription

/-- A build fails just when two classes have one name or two functions come to have one exported name;
otherwise every function and constructor is found under its exported name, with its own native code.  A build
does not fail because members of a class come to have one exported name: the name then leads to the last of
them, and the others are not found. -/
theorem ModuleDescription.build_exact (d : ModuleDescription σ) (w : World σ) :
    (¬ ((d.classNames w).Nodup ∧ d.exportedNames.Nodup) →
      ∃ text after, d.build w = (.failed (.config text), after)) ∧
    ((d.classNames w).Nodup ∧ d.exportedNames.Nodup →
      ∃ m after, d.build w = (.returned m, after) ∧
        (∀ f ∈ d.exports,
          m.function? (d.config.naming.apply f.name) = some (d.exported f) ∧
          (d.exported f).entry = f.entry) ∧
        ∀ c ∈ d.classes, ∀ declared, w.class? c.classId = some declared →
          ∃ built, after.class? c.classId = some built ∧ m.class? after declared.name = some built ∧
            LastFound (fun entry => d.config.naming.apply entry.2.name)
              (fun entry => entry.2.rename d.config.naming) declared.methods built.method? ∧
            LastFound (fun entry => d.config.naming.apply entry.1) Prod.snd declared.properties
              built.property? ∧
            ((declared.methods.map fun entry => d.config.naming.apply entry.2.name).Nodup →
              ∀ entry ∈ declared.methods, built.method? (d.config.naming.apply entry.2.name) =
                some (entry.2.rename d.config.naming)) ∧
            ((declared.properties.map fun entry => d.config.naming.apply entry.1).Nodup →
              ∀ entry ∈ declared.properties,
                built.property? (d.config.naming.apply entry.1) = some entry.2)) := by
  refine ⟨fun clash => ?_, fun ⟨classes, functions⟩ => ⟨_, _, build_of_distinct classes functions, ?_, ?_⟩⟩
  · obtain ⟨kind, name, after, refused⟩ := build_of_clash clash
    exact ⟨_, after, refused⟩
  · exact fun f member => ⟨function?_built functions member, rfl⟩
  · intro c member declared found
    obtain ⟨configured, named⟩ := class?_built classes member found
    have methods := declared.methods_configure d.config
    have properties := declared.properties_configure d.config
    exact ⟨_, configured, named, methods, properties,
      fun distinct _ there => methods.of_distinct distinct there,
      fun distinct _ there => properties.of_distinct distinct there⟩

namespace Sample

def covered : MethodBinding (Program State) :=
  .ofNative "GetBalance" accountType [] long Account.balanceOf

def covering : MethodBinding (Program State) :=
  .ofNative "get_balance" accountType [] .unit fun _ => onAccount fun _ => ok ()

/-- A class with two methods that have one name in snake case. -/
def ledger : ClassDef (Program State) where
  name := "Ledger"
  instanceType := accountType
  methods := [(covered.name, covered), (covering.name, covering)]

def books : ModuleDescription State where
  name := "books"
  classes := [{ classId := 0 }]
  config := { naming := .snakeCase }

end Sample

open Sample in
theorem ModuleDescription.build_exact_sharedName :
    ∃ m after c, books.build { classes := [ledger] } = (.returned m, after) ∧
      m.class? after "Ledger" = some c ∧
      (c.method? "get_balance").map MethodBinding.returns = some Ty.unit.native := by
  obtain ⟨m, after, built, _, classes⟩ :=
    (books.build_exact { classes := [ledger] }).2 ⟨by decide, by decide⟩
  obtain ⟨c, _, named, methods, _⟩ := classes _ (List.mem_singleton_self _) ledger rfl
  have shared : NamingStyle.snakeCase.apply covering.name =
    NamingStyle.snakeCase.apply covered.name := by decide
  have listed : ledger.methods = [] ++ (covered.name, covered) :: [(covering.name, covering)] := rfl
  obtain ⟨other, later, _, found⟩ := methods.hidden listed ⟨_, List.mem_singleton_self _, shared⟩
  obtain rfl := List.mem_singleton.mp later
  have written : "get_balance" = NamingStyle.snakeCase.apply covered.name := by decide
  rw [written]
  exact ⟨m, after, c, built, named, congrArg (Option.map MethodBinding.returns) found⟩

end Marshal
