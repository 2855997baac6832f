import Mathlib
import Marshal.Proofs.Call.Blame
import Marshal.Proofs.Sample.Basic

namespace Marshal

open Act hiding pure bind

namespace Sample

section Members

variable (config : Config)

theorem exportedClass_methods : exportedClass.methods = [("GetValue", getter), ("Add", adder)] := rfl

/-- The methods of the class are found under their exported names. -/
theorem exportedClass_method? {m : MethodBinding (Program State)}
    (member : (m.name, m) ∈ exportedClass.methods) :
    (exportedClass.configure config).method? (config.naming.apply m.name) =
      some (m.rename config.naming) := by
  refine (exportedClass.methods_configure config).of_distinct ?_ member
  rw [exportedClass_methods]
  cases config.naming <;> decide

theorem exportedClass_property? :
    (exportedClass.configure config).property? (config.naming.apply "Value") = some shown :=
  (exportedClass.properties_configure config).of_distinct (List.nodup_singleton _)
    (List.mem_singleton_self ("Value", shown))

end Members

section Native

variable {handle : Handle} {w : World State} {x d : Long} {writable : Bool} (stack : Nat)

/-- Native code of an instance goes on with the number that it holds. -/
theorem run_onExported {α : Type} (held : (Frame.instance handle writable).content? w =
      some (.instance (.exported x))) (f : Long → Code α) (next : α → Program State) :
    Program.run (stack + 1) [.instance handle writable] (onExported f next) w =
      Program.run (stack + 1) [.instance handle writable] (f x next) w := by
  have looked (next : Option (Content State) → Program State) :
      Program.run (stack + 1) [.instance handle writable] (.look 0 next) w =
        Program.run (stack + 1) [.instance handle writable]
          (next ((Frame.instance handle writable).content? w)) w := rfl
  refine (looked _).trans ?_
  rw [held]

theorem run_getting (held : (Frame.instance handle writable).content? w = some (.instance (.exported x))) :
    Program.run (stack + 1) [.instance handle writable] (getting.program ()) w =
      (.returned (.ok (.int x.val (some .i64))), w) :=
  run_onExported stack held _ _

theorem run_shown (held : (Frame.instance handle writable).content? w = some (.instance (.exported x))) :
    Program.run (stack + 1) [.instance handle writable] shown.getter w =
      (.returned (.ok (.int x.val (some .i64))), w) :=
  run_onExported stack held _ _

theorem run_accumulating_of_fits {sum : Long} (held : (Frame.instance handle writable).content? w =
      some (.instance (.exported x))) (fits : Fixed.ofInt? .i64 (x.val + d.val) = some sum) :
    Program.run (stack + 1) [.instance handle writable] (accumulating.program (d, ())) w =
      (.returned (.ok .none), (Frame.instance handle writable).store (.instance (.exported sum)) w) := by
  refine (run_onExported stack held _ _).trans ?_
  rw [fits]
  rfl

theorem run_accumulating_of_not (held : (Frame.instance handle writable).content? w =
      some (.instance (.exported x))) (large : Fixed.ofInt? .i64 (x.val + d.val) = none) :
    Program.run (stack + 1) [.instance handle writable] (accumulating.program (d, ())) w =
      (.returned (.error (.failed (.native "" "integer overflow"))), w) := by
  refine (run_onExported stack held _ _).trans ?_
  rw [large]
  rfl

end Native

/-- What can be done with a number behind a handle. -/
inductive Use
  | add (args : List Value)
  | getValue
  | readValue
  | retain
  | release

/-- One use of a number, with the world before and after it. -/
structure Turn where
  use : Use
  before : World State
  outcome : Outcome Value
  after : World State

section Turns

variable (naming : NamingStyle) (handle : Handle) (stack : Nat)

def Use.request : Use → Request State (Program State)
  | .add args => .invoke handle (naming.apply "Add") args []
  | .getValue => .invoke handle (naming.apply "GetValue") [] []
  | .readValue => .getAttr handle (naming.apply "Value")
  | .retain => .retain handle
  | .release => .release handle

/-- How many references there are after a use. -/
def Use.references (references : Nat) : Use → Nat
  | .retain => references + 1
  | .release => references - 1
  | _ => references

/-- No use releases the last of so many references. -/
def Spares : (references : Nat) → List Use → Prop
  | _, [] => True
  | references, use :: rest => (use = .release → 1 < references) ∧ Spares (use.references references) rest

def Use.turn (use : Use) (w : World State) : Turn :=
  let ended := (use.request naming handle).serve (Program.run (stack + 1)) w
  { use, before := w, outcome := ended.1, after := ended.2 }

/-- Uses of one number, one after the other. -/
def turns : List Use → World State → List Turn
  | [], _ => []
  | use :: rest, w =>
    let turn := use.turn naming handle stack w
    turn :: turns rest turn.after

end Turns

namespace Turn

/-- What was added, if anything was. -/
def added (turn : Turn) : Int :=
  match turn.use, turn.outcome with
  | .add [.int d _], .returned _ => d
  | _, _ => 0

/-- How a number is used: it is given as it is, and something is added to it if that is one integer in its
range and the sum is in its range as well. -/
def Correct (naming : NamingStyle) (handle : Handle) (x : Long) (turn : Turn) : Prop :=
  match turn.use with
  | .add args =>
    (∀ d tag, args = [.int d tag] → IntType.i64.contains d = true →
      (turn.outcome = .returned .none ↔ IntType.i64.contains (x.val + d) = true) ∧
      (turn.outcome = .failed (.native (handle.qualified (naming.apply "Add")) "integer overflow") ↔
        IntType.i64.contains (x.val + d) = false)) ∧
    ((∀ d tag, args = [.int d tag] → IntType.i64.contains d = false) →
      ∃ e, turn.outcome = .failed e ∧ (e.kind = .arity ∨ e.kind = .typeMismatch))
  | .getValue | .readValue => turn.outcome = .returned (.int x.val (some .i64))
  | .retain => turn.outcome = .returned .none
  | .release => turn.outcome = .returned (.bool false)

/-- A use that fails is seen in the journal only. -/
def Harmless (turn : Turn) : Prop :=
  ∀ e, turn.outcome = .failed e → ∃ event, turn.after = turn.before.noted event

end Turn

/-- A number behind a handle of the class of numbers, which nobody is using, and how many references to
it there are. -/
def Shows (config : Config) (handle : Handle) (x : Long) (references : Nat) (w : World State) : Prop :=
  ∃ cell, handle.Holds w cell (.exported x) (exportedClass.configure config) ∧ handle.busy? cell = none ∧
    cell.references = references

section Uses

variable {config : Config} {handle : Handle} {x d : Long} {w : World State} {cell : Cell State}
  (holds : handle.Holds w cell (.exported x) (exportedClass.configure config))
  (free : handle.busy? cell = none) (stack : Nat)

include holds free

theorem serve_getValue :
    (Use.getValue.request config.naming handle).serve (Program.run (stack + 1)) w =
      (.returned (.int x.val (some .i64)),
        w.noted (handle.invoking (config.naming.apply "GetValue") [] [])) := by
  have found : (exportedClass.configure config).method? (config.naming.apply "GetValue") =
      some (getter.rename config.naming) := exportedClass_method? config (.head _)
  have wraps : (getter.rename config.naming).Wraps exportedType getting.program :=
    .rename (.native "GetValue" long getting rfl) _
  have converted : Args.Converted [] [] () := rfl
  have noted := holds.noted (handle.invoking (config.naming.apply "GetValue") [] [])
  have entered := (Handle.invoke_entersOnce holds found wraps stack [] []).entered
    (.passed (bindArguments_of_all rfl) (by simp) free converted)
  have ran := run_getting stack ((noted.held .exclusive).content? true)
  have same := noted.entering_of_same (getter.rename config.naming) getting.program () free ran
  exact entered.trans same

theorem serve_readValue :
    (Use.readValue.request config.naming handle).serve (Program.run (stack + 1)) w =
      (.returned (.int x.val (some .i64)), w) :=
  holds.getAttr_of_same free (exportedClass_property? config) rfl
    (run_shown stack ((holds.held (.shared 0)).content? false))

/-- Adding goes through the checks of its argument first. -/
theorem add_entersOnce (args : List Value) :
    EntersOnce (Screened (handle.qualified (config.naming.apply "Add")) (adder.rename config.naming).params
        [long] config.maxDepth none args [])
      ((Use.add args).request config.naming handle |>.serve (Program.run (stack + 1))) w
      (w.noted (handle.invoking (config.naming.apply "Add") args []))
      (handle.entering (exportedClass.configure config) (adder.rename config.naming) stack
        accumulating.program) := by
  have found : (exportedClass.configure config).method? (config.naming.apply "Add") =
      some (adder.rename config.naming) := exportedClass_method? config (.tail _ (.head _))
  have wraps : (adder.rename config.naming).Wraps exportedType accumulating.program :=
    .rename (.native "Add" .unit accumulating rfl) _
  rw [← free]
  exact Handle.invoke_entersOnce holds found wraps stack args []

theorem serve_add_refused {args : List Value}
    (other : ∀ n tag, args = [.int n tag] → IntType.i64.contains n = false) :
    ∃ e, (e.kind = .arity ∨ e.kind = .typeMismatch) ∧
      ((Use.add args).request config.naming handle).serve (Program.run (stack + 1)) w =
        (.failed e, w.noted (handle.invoking (config.naming.apply "Add") args [])) := by
  have enters := add_entersOnce holds free stack args
  obtain ⟨verdict, screened, _⟩ := enters.decided
  cases verdict with
  | error e => exact ⟨e, screened.kind, enters.refused screened⟩
  | ok xs =>
      cases screened with
      | passed bound shallow free converted =>
          have required : ∀ param ∈ (adder.rename config.naming).params, param.default? = none := by
            rintro param (_ | ⟨_, ⟨⟩⟩)
            rfl
          obtain rfl := bindArguments_of_required required bound
          obtain ⟨v, rest, rfl, decoded, rfl⟩ := converted
          cases v with
          | int n tag =>
              have misfits : (NativeInt.fixed .i64).type.contains n = false := other n tag rfl
              cases decoded.symm.trans (NativeInt.decode_of_not misfits)
          | _ => cases decoded

omit holds free in
theorem add_screened (d : Long) (tag : IntTag) :
    Screened (handle.qualified (config.naming.apply "Add")) (adder.rename config.naming).params [long]
      config.maxDepth none [.int d.val tag] [] (.ok (d, ())) := by
  have fits : (NativeInt.fixed .i64).type.contains d.val = true := d.inRange
  have converted : Args.Converted [long] [.int d.val tag] (d, ()) :=
    ⟨_, _, rfl, NativeInt.decode_of_contains fits, rfl⟩
  exact .passed (bindArguments_of_all rfl) (by simp [Value.nesting]) rfl converted

theorem serve_add_of_fits {sum : Long} (fits : Fixed.ofInt? .i64 (x.val + d.val) = some sum) (tag : IntTag) :
    ∃ after, ((Use.add [.int d.val tag]).request config.naming handle).serve (Program.run (stack + 1)) w =
      (.returned .none, after) ∧ Shows config handle sum cell.references after := by
  have entered := (add_entersOnce holds free stack [.int d.val tag]).entered (add_screened d tag)
  have noted := holds.noted (handle.invoking (config.naming.apply "Add") [.int d.val tag] [])
  have held := noted.held .exclusive
  have ran := run_accumulating_of_fits stack (held.content? true) fits
  have stored := held.setCell
    (f := fun cell => { cell with state? := cell.state?.map fun _ => State.exported sum })
    holds.live (congrArg (Option.map fun _ => State.exported sum) holds.present)
  have freed := stored.setCell (f := fun cell => { cell with access := cell.access.leave true })
    holds.live stored.present
  exact ⟨_, entered.trans (Handle.entering_of_returned _ _ _ ran), _, freed, rfl, rfl⟩

theorem serve_add_of_not (large : Fixed.ofInt? .i64 (x.val + d.val) = none) (tag : IntTag) :
    ((Use.add [.int d.val tag]).request config.naming handle).serve (Program.run (stack + 1)) w =
      (.failed (.native (handle.qualified (config.naming.apply "Add")) "integer overflow"),
        w.noted (handle.invoking (config.naming.apply "Add") [.int d.val tag] [])) := by
  have entered := (add_entersOnce holds free stack [.int d.val tag]).entered (add_screened d tag)
  have noted := holds.noted (handle.invoking (config.naming.apply "Add") [.int d.val tag] [])
  have ran := run_accumulating_of_not stack ((noted.held .exclusive).content? true) large
  have same := noted.entering_of_same (adder.rename config.naming) accumulating.program (d, ()) free ran
  exact entered.trans same

theorem serve_retain : ∃ after,
    (Use.retain.request config.naming handle).serve (Program.run (stack + 1)) w = (.returned .none, after) ∧
      Shows config handle x (cell.references + 1) after := by
  have retained := holds.setCell (f := fun other => { other with references := cell.references + 1 })
    (Nat.succ_pos _) holds.present
  have returned : handle.retain w =
      (.returned (), w.setCell handle fun other => { other with references := cell.references + 1 }) := by
    simp only [Handle.retain, bind_of_returned holds.alive]
    rfl
  exact ⟨_, bind_of_returned returned, _, retained, free, rfl⟩

theorem serve_release (several : 1 < cell.references) : ∃ after,
    (Use.release.request config.naming handle).serve (Program.run (stack + 1)) w =
        (.returned (.bool false), after) ∧
      Shows config handle x (cell.references - 1) after := by
  have released := holds.setCell (f := fun other => { other with references := cell.references - 1 })
    (Nat.sub_pos_of_lt several) holds.present
  have returned : handle.release w =
      (.returned false, w.setCell handle fun other => { other with references := cell.references - 1 }) := by
    simp only [Handle.release, bind_of_returned holds.alive, several, ↓reduceIte]
    rfl
  exact ⟨_, bind_of_returned returned, _, released, free, rfl⟩

end Uses

section Runs

variable {config : Config} {handle : Handle} {x : Long} {references : Nat} {w : World State} {use : Use}
  (stack : Nat)

/-- What is known of a turn whose number is `x` before it. -/
structure Turn.Sound (config : Config) (handle : Handle) (x : Long) (references : Nat) (turn : Turn) :
    Prop where
  shows : Shows config handle x references turn.before
  correct : turn.Correct config.naming handle x
  harmless : turn.Harmless
  next : ∃ y : Long, y.val = x.val + turn.added ∧
    Shows config handle y (turn.use.references references) turn.after

theorem Use.turn_eq {outcome : Outcome Value} {after : World State}
    (ended : (use.request config.naming handle).serve (Program.run (stack + 1)) w = (outcome, after)) :
    use.turn config.naming handle stack w = { use, before := w, outcome, after } := by
  simp only [turn, ended]

theorem Turn.added_of_failed {turn : Turn} {e : Error} (failed : turn.outcome = .failed e) :
    turn.added = 0 := by
  simp only [added, failed]
  split
  · contradiction
  · rfl

theorem Shows.noted (shows : Shows config handle x references w) (event : Event) :
    Shows config handle x references (w.noted event) := by
  obtain ⟨cell, holds, free, count⟩ := shows
  exact ⟨cell, holds.noted event, free, count⟩

/-- What fails to be added is seen in the journal only. -/
theorem Turn.sound_of_failed {turn : Turn} {args : List Value} {e : Error} {event : Event}
    (shows : Shows config handle x references turn.before) (correct : turn.Correct config.naming handle x)
    (used : turn.use = .add args) (failed : turn.outcome = .failed e)
    (same : turn.after = turn.before.noted event) : turn.Sound config handle x references where
  shows
  correct
  harmless _ _ := ⟨event, same⟩
  next := by
    refine ⟨x, by rw [Turn.added_of_failed failed, Int.add_zero], ?_⟩
    rw [used, same]
    exact shows.noted event

theorem Use.turn_add_sound (shows : Shows config handle x references w) {n : Int}
    (inRange : IntType.i64.contains n = true) (tag : IntTag) :
    ((Use.add [.int n tag]).turn config.naming handle stack w).Sound config handle x references := by
  have ⟨cell, holds, free, count⟩ := shows
  let d : Long := ⟨n, inRange⟩
  have accepted : ¬ ∀ m s, [Value.int n tag] = [.int m s] → IntType.i64.contains m = false :=
    fun other => absurd ((other n tag rfl).symm.trans inRange) (by decide)
  cases fits : IntType.i64.contains (x.val + n) with
  | true =>
      have sum : Fixed.ofInt? .i64 (x.val + d.val) = some ⟨x.val + n, fits⟩ := dif_pos fits
      obtain ⟨after, ended, showing⟩ := serve_add_of_fits holds free stack sum tag
      rw [Use.turn_eq stack ended]
      refine ⟨shows, ⟨?_, fun other => absurd other accepted⟩, nofun, _, rfl, count ▸ showing⟩
      rintro m s ⟨⟩ _
      exact ⟨iff_of_true rfl fits, iff_of_false nofun fun large => absurd (fits.symm.trans large) (by decide)⟩
  | false =>
      have sum : Fixed.ofInt? .i64 (x.val + d.val) = none :=
        dif_neg fun small => absurd (fits.symm.trans small) (by decide)
      rw [Use.turn_eq stack (serve_add_of_not holds free stack sum tag)]
      refine Turn.sound_of_failed shows ⟨?_, fun other => absurd other accepted⟩ rfl rfl rfl
      rintro m s ⟨⟩ _
      exact ⟨iff_of_false nofun fun small => absurd (fits.symm.trans small) (by decide), iff_of_true rfl fits⟩

/-- One use of a number. -/
theorem Use.turn_sound (shows : Shows config handle x references w)
    (several : use = .release → 1 < references) :
    (use.turn config.naming handle stack w).Sound config handle x references := by
  have ⟨cell, holds, free, count⟩ := shows
  subst count
  cases use with
  | add args =>
      by_cases other : ∀ n tag, args = [.int n tag] → IntType.i64.contains n = false
      · obtain ⟨e, kind, ended⟩ := serve_add_refused holds free stack other
        rw [Use.turn_eq stack ended]
        refine Turn.sound_of_failed shows ⟨fun n tag given inRange => ?_, fun _ => ⟨e, rfl, kind⟩⟩ rfl rfl rfl
        exact absurd ((other n tag given).symm.trans inRange) (by decide)
      · push Not at other
        obtain ⟨n, tag, rfl, inRange⟩ := other
        exact Use.turn_add_sound stack shows (by simpa using inRange) tag
  | getValue =>
      rw [Use.turn_eq stack (serve_getValue holds free stack)]
      exact ⟨shows, rfl, nofun, x, (Int.add_zero _).symm, shows.noted _⟩
  | readValue =>
      rw [Use.turn_eq stack (serve_readValue holds free stack)]
      exact ⟨shows, rfl, nofun, x, (Int.add_zero _).symm, shows⟩
  | retain =>
      obtain ⟨after, ended, showing⟩ := serve_retain holds free stack
      rw [Use.turn_eq stack ended]
      exact ⟨shows, rfl, nofun, x, (Int.add_zero _).symm, showing⟩
  | release =>
      obtain ⟨after, ended, showing⟩ := serve_release holds free stack (several rfl)
      rw [Use.turn_eq stack ended]
      exact ⟨shows, rfl, nofun, x, (Int.add_zero _).symm, showing⟩

/-- Uses of one number, one after the other: before each of them, it is the first one and what was added
since. -/
theorem turns_sound {uses : List Use} (shows : Shows config handle x references w)
    (spares : Spares references uses) {earlier later : List Turn} {turn : Turn}
    (split : turns config.naming handle stack uses w = earlier ++ turn :: later) :
    ∃ (y : Long) (left : Nat), y.val = x.val + (earlier.map Turn.added).sum ∧
      turn.Sound config handle y left := by
  induction uses generalizing x references w earlier with
  | nil => simp [turns] at split
  | cons use rest ih =>
      obtain ⟨several, spares⟩ := spares
      have sound := use.turn_sound stack shows several
      rw [turns] at split
      cases earlier with
      | nil =>
          obtain ⟨rfl, _⟩ := List.cons.inj split
          exact ⟨x, references, (Int.add_zero _).symm, sound⟩
      | cons first earlier =>
          obtain ⟨rfl, further⟩ := List.cons.inj split
          obtain ⟨y, sum, showing⟩ := sound.next
          obtain ⟨z, left, total, onward⟩ := ih showing spares further
          refine ⟨z, left, ?_, onward⟩
          rw [total, sum, List.map_cons, List.sum_cons, Int.add_assoc]

end Runs

section Making

variable {config : Config} {classId : Nat} {w : World State}

theorem create_shows (known : w.class? classId = some (exportedClass.configure config)) (x : Long) :
    ∃ handle made, Handle.create classId (.exported x) w = (.returned handle, made) ∧
      Shows config handle x 1 made := by
  refine ⟨_, _, rfl, _, ⟨List.getElem?_concat_length, Nat.one_pos, rfl, known⟩, rfl, rfl⟩

/-- The constructor makes an instance of the number that it is given. -/
theorem invoke_making {f : FunctionBinding (Program State)} (wraps : f.Wraps (making.program classId))
    (known : w.class? classId = some (exportedClass.configure config)) (x : Long) (tag : IntTag)
    (stack : Nat) :
    ∃ handle made, f.invoke (Program.run (stack + 1)) [.int x.val tag] [] w =
      (.returned (.object handle), made) ∧ Shows config handle x 1 made := by
  obtain ⟨handle, made, created, shows⟩ :=
    create_shows (w := w.noted (f.invoking [.int x.val tag] [])) known x
  refine ⟨handle, made, ?_, shows⟩
  rw [invoke_of_contains wraps, FunctionBinding.entering]
  have served : (Request.create classId (State.exported x)).serve (Program.run stack)
      (w.noted (f.invoking [.int x.val tag] [])) = (.returned (.object handle), made) :=
    bind_of_returned created
  have ran : Program.run (stack + 1) [] (making.program classId (x, ()))
      (w.noted (f.invoking [.int x.val tag] [])) =
    Program.run (stack + 1) [] (.done (.ok (.object handle))) made :=
    bind_of_returned (attempt_of_returned served)
  exact Conclusion.called_of_returned _ _ _ ran

end Making

/-- A number that the module made is the one it was made from and what was added to it since, whatever is done
with it as long as its last reference is not released.  It is given as it is, and something is added just when
it is one integer that can be added; a use that fails changes nothing but the journal. -/
theorem accumulation_exact (config : Config) (w : World State) (stack : Nat) :
    ∃ m built, buildBasicModule config w = (.returned m, built) ∧
      ∀ (first : Int) (tag : IntTag) (now : World State), IntType.i64.contains first = true →
        now.class? w.classes.length = built.class? w.classes.length →
        ∃ handle made,
          m.invoke (Program.run (stack + 1)) (config.naming.apply "NewExportedType") [.int first tag] [] now =
            (.returned (.object handle), made) ∧
          ∀ uses : List Use, Spares 1 uses →
            ∀ (earlier : List Turn) (turn : Turn) (later : List Turn),
              turns config.naming handle stack uses made = earlier ++ turn :: later →
              ∃ total : Long, total.val = first + (earlier.map Turn.added).sum ∧
                (turn.before.cell? handle).bind Cell.state? = some (.exported total) ∧
                turn.Correct config.naming handle total ∧ turn.Harmless := by
  obtain ⟨m, built, builds, functions, known⟩ := buildBasicModule_returned config w
  refine ⟨m, built, builds, fun first tag now inRange same => ?_⟩
  have found := functions (newExported w.classes.length) (List.mem_append_right _ (.head _))
  have named := FunctionBinding.Wraps.constructor "NewExportedType" w.classes.length exportedClass.name
    making rfl
  have wraps := (named.rename config.naming).settings none config.catchPanics config.maxDepth
  let called := now.noted (m.calling (config.naming.apply "NewExportedType"))
  have declared : called.class? w.classes.length = some (exportedClass.configure config) := same.trans known
  obtain ⟨handle, made, returned, shows⟩ := invoke_making wraps declared ⟨first, inRange⟩ tag stack
  refine ⟨handle, made, (NativeModule.invoke_of_found found _ _ _ now).trans returned, ?_⟩
  intro uses spares earlier turn later split
  obtain ⟨total, _, sum, sound⟩ := turns_sound stack shows spares split
  obtain ⟨cell, holds, _⟩ := sound.shows
  exact ⟨total, sum, by rw [holds.found]; exact holds.present, sound.correct, sound.harmless⟩

theorem accumulation_exact_largest : ∃ m built handle made, buildBasicModule {} {} = (.returned m, built) ∧
    m.invoke (Program.run 1) "NewExportedType" [.int (2 ^ 63 - 4) none] [] built =
      (.returned (.object handle), made) ∧
    (turns .asDeclared handle 0 [.retain, .add [.int 3 none], .release, .add [.int 1 none]] made).map
        Turn.outcome =
      [.returned .none, .returned .none, .returned (.bool false),
        .failed (.native (handle.qualified "Add") "integer overflow")] := by
  obtain ⟨m, built, builds, making⟩ := accumulation_exact {} {} 0
  obtain ⟨handle, made, returned, accumulates⟩ := making (2 ^ 63 - 4) none built (by decide) rfl
  refine ⟨m, built, handle, made, builds, returned, ?_⟩
  have each := accumulates [.retain, .add [.int 3 none], .release, .add [.int 1 none]]
    ⟨nofun, nofun, fun _ => by decide, nofun, trivial⟩
  let first := Use.retain.turn .asDeclared handle 0 made
  let second := (Use.add [.int 3 none]).turn .asDeclared handle 0 first.after
  let third := Use.release.turn .asDeclared handle 0 second.after
  let last := (Use.add [.int 1 none]).turn .asDeclared handle 0 third.after
  obtain ⟨_, _, _, retained, _⟩ := each [] first [second, third, last] rfl
  obtain ⟨x, sum, _, ⟨adds, _⟩, _⟩ := each [first] second [third, last] rfl
  obtain ⟨_, _, _, released, _⟩ := each [first, second] third [last] rfl
  obtain ⟨y, total, _, ⟨addsToo, _⟩, _⟩ := each [first, second, third] last [] rfl
  have added : second.outcome = .returned .none := by
    refine (adds 3 none rfl rfl).1.mpr ?_
    rw [show x.val = 2 ^ 63 - 4 from sum]
    decide
  have three : second.added = 3 := by
    rw [Turn.added, added]
    rfl
  have refused : last.outcome = .failed (.native (handle.qualified "Add") "integer overflow") := by
    refine (addsToo 1 none rfl rfl).2.mpr ?_
    have largest : y.val = 2 ^ 63 - 4 + (0 + (3 + (0 + 0))) := by
      rw [total, List.map_cons, List.map_cons, three]
      rfl
    rw [largest]
    decide
  change [first.outcome, second.outcome, third.outcome, last.outcome] = _
  rw [show first.outcome = _ from retained, added, show third.outcome = _ from released, refused]

end Sample

end Marshal
