import Mathlib
import Marshal.Host.Convert
import Marshal.Proofs.World.Act

namespace Marshal

namespace Value

mutual

/-- The value with other views in the place of its own. -/
def mapViews (f : ArrayView → ArrayView) : Value → Value
  | .seq items => .seq (mapItemViews f items)
  | .map entries => .map (mapEntryViews f entries)
  | .array view => .array (f view)
  | v => v

def mapItemViews (f : ArrayView → ArrayView) : List Value → List Value
  | [] => []
  | item :: rest => mapViews f item :: mapItemViews f rest

def mapEntryViews (f : ArrayView → ArrayView) : List (Key × Value) → List (Key × Value)
  | [] => []
  | (key, value) :: rest => (key, mapViews f value) :: mapEntryViews f rest

end

mutual

theorem mapViews_of_id {f : ArrayView → ArrayView} (same : ∀ view, f view = view) :
    (v : Value) → mapViews f v = v
  | .seq items => congrArg Value.seq (mapItemViews_of_id same items)
  | .map entries => congrArg Value.map (mapEntryViews_of_id same entries)
  | .array view => congrArg Value.array (same view)
  | .none => rfl
  | .bool _ => rfl
  | .int _ _ => rfl
  | .float _ _ => rfl
  | .complex _ _ _ => rfl
  | .str _ => rfl
  | .bytes _ => rfl
  | .object _ => rfl

theorem mapItemViews_of_id {f : ArrayView → ArrayView} (same : ∀ view, f view = view) :
    (items : List Value) → mapItemViews f items = items
  | [] => rfl
  | item :: rest => by
      rw [mapItemViews, mapViews_of_id same item, mapItemViews_of_id same rest]

theorem mapEntryViews_of_id {f : ArrayView → ArrayView} (same : ∀ view, f view = view) :
    (entries : List (Key × Value)) → mapEntryViews f entries = entries
  | [] => rfl
  | (key, value) :: rest => by
      rw [mapEntryViews, mapViews_of_id same value, mapEntryViews_of_id same rest]

end

theorem mapEntryViews_keys (f : ArrayView → ArrayView) (entries : List (Key × Value)) :
    (mapEntryViews f entries).map Prod.fst = entries.map Prod.fst := by
  induction entries with
  | nil => rfl
  | cons entry rest ih => exact congrArg (entry.1 :: ·) ih

/-- Whether a value neither holds others nor is an array. -/
def isAtom : Value → Bool
  | .seq _ | .map _ | .array _ => false
  | _ => true

variable {v : Value}

theorem nesting_of_isAtom (atom : v.isAtom = true) : v.nesting = 0 := by
  cases v <;> first | rfl | cases atom

theorem mapViews_of_isAtom (atom : v.isAtom = true) (f : ArrayView → ArrayView) : v.mapViews f = v := by
  cases v <;> first | rfl | cases atom

end Value

variable {σ : Type}

/-- The array that is made in one world where this one is made in another: arrays and their memory are
numbered as they are made. -/
def ArrayView.moved (origin target : World σ) (view : ArrayView) : ArrayView :=
  { view with
    id := view.id + target.arrayCount - origin.arrayCount
    buffer := view.buffer + target.buffers.length - origin.buffers.length }

/-- The value that is made in one world where this one is made in another. -/
def Value.moved (origin target : World σ) : Value → Value := Value.mapViews (ArrayView.moved origin target)

theorem ArrayView.moved_self (w : World σ) (view : ArrayView) : view.moved w w = view := by
  simp only [moved, Nat.add_sub_cancel]

theorem Value.moved_self (w : World σ) (v : Value) : v.moved w w = v :=
  mapViews_of_id (ArrayView.moved_self w) v

namespace World

/-- A change of the world that makes new arrays over this memory, in whatever world it happens. -/
structure Grows (grow : World σ → World σ) (fresh : List Buffer) : Prop where
  buffers : ∀ w, (grow w).buffers = w.buffers ++ fresh
  arrays : ∀ w, (grow w).arrayCount = w.arrayCount + fresh.length

variable {grow next : World σ → World σ} {fresh later : List Buffer}

theorem Grows.refl : Grows (σ := σ) id [] := ⟨fun w => by simp, fun w => by simp⟩

theorem Grows.comp (first : Grows grow fresh) (second : Grows next later) :
    Grows (next ∘ grow) (fresh ++ later) where
  buffers w := by rw [Function.comp_apply, second.buffers, first.buffers, List.append_assoc]
  arrays w := by
    rw [Function.comp_apply, second.arrays, first.arrays, List.length_append, Nat.add_assoc]

theorem Grows.moved (grows : Grows grow fresh) (origin target : World σ) :
    ArrayView.moved (grow origin) (grow target) = ArrayView.moved origin target := by
  funext view
  have id : view.id + (grow target).arrayCount - (grow origin).arrayCount =
      view.id + target.arrayCount - origin.arrayCount := by
    rw [grows.arrays, grows.arrays]
    omega
  have buffer : view.buffer + (grow target).buffers.length - (grow origin).buffers.length =
      view.buffer + target.buffers.length - origin.buffers.length := by
    rw [grows.buffers, grows.buffers, List.length_append, List.length_append]
    omega
  simp only [ArrayView.moved, id, buffer]

end World

namespace Host

variable {α β ε ε' : Type} {h after : Host σ}

namespace Action

section Steps

variable {action : Action σ ε α} {next : α → Action σ ε β}

theorem bind_of_ok {a : α} (ended : action.run h = (.ok a, after)) :
    (action >>= next).run h = (next a).run after := by
  change ExceptT.bindCont next (action.run h).1 (action.run h).2 = _
  rw [ended]
  rfl

theorem bind_of_error {e : ε} (ended : action.run h = (.error e, after)) :
    (action >>= next).run h = (.error e, after) := by
  change ExceptT.bindCont next (action.run h).1 (action.run h).2 = _
  rw [ended]
  rfl

theorem ok_of_bind {b : β} (ended : (action >>= next).run h = (.ok b, after)) :
    ∃ a middle, action.run h = (.ok a, middle) ∧ (next a).run middle = (.ok b, after) := by
  rcases first : action.run h with ⟨_ | a, middle⟩
  · rw [bind_of_error first] at ended
    cases ended
  · exact ⟨a, middle, rfl, by rwa [bind_of_ok first] at ended⟩

theorem describe_of_ok {f : ε → ε'} {a : α} (ended : action.run h = (.ok a, after)) :
    (action.describe f).run h = (.ok a, after) := by
  change ((action.run h).1.mapError f, (action.run h).2) = _
  rw [ended]
  rfl

theorem describe_of_error {f : ε → ε'} {e : ε} (ended : action.run h = (.error e, after)) :
    (action.describe f).run h = (.error (f e), after) := by
  change ((action.run h).1.mapError f, (action.run h).2) = _
  rw [ended]
  rfl

theorem ok_of_describe {f : ε → ε'} {a : α} (ended : (action.describe f).run h = (.ok a, after)) :
    action.run h = (.ok a, after) := by
  rcases first : action.run h with ⟨e | b, middle⟩
  · rw [describe_of_error first] at ended
    cases ended
  · rw [describe_of_ok first] at ended
    cases ended
    rfl

theorem run_object (id : ObjectId) : (object id : Action σ ε Object).run h = (.ok (h.object id), h) := rfl

end Steps

end Action

theorem Reading.isAtom_of_toValue {reading? : Option Reading} {v : Value}
    (read : reading?.bind Reading.toValue? = some v) : v.isAtom = true := by
  obtain ⟨reading, _, found⟩ := Option.bind_eq_some_iff.mp read
  cases reading with
  | integral n =>
      simp only [toValue?] at found
      split at found <;> cases found
      rfl
  | real x =>
      cases found
      rfl
  | complex re im =>
      cases found
      rfl

namespace Object

/-- Whether an object neither holds others nor exports memory. -/
def isPlain (o : Object) : Bool :=
  match o.builtIn with
  | .list _ | .tuple _ | .dict _ | .exporter _ => false
  | _ => true

/-- The value of an object that neither holds others nor exports memory. -/
def plainValue (o : Object) : Except Error Value :=
  match o.builtIn with
  | .none => .ok .none
  | .bool b => .ok (.bool b)
  | .int n => if IntTag.contains Option.none n then .ok (.ofInt n) else .error (.overflow n "i128")
  | .float x => .ok (.ofFloat x)
  | .complex re im => .ok (.complex re im .f64)
  | .text codePoints => (decodeText codePoints).map .str
  | .bytes b => .ok (.bytes b)
  | .native handle => .ok (.object handle)
  | .number className reading? =>
    match reading?.bind Reading.toValue? with
    | some value => .ok value
    | Option.none => .error (.mismatch "a number" className)
  | o => .error (.mismatch "a convertible value" o.className)

/-- What the object becomes as the key of a mapping, if it can be one. -/
def key? (o : Object) : Option Key := (o.plainValue.bind Value.toKey).toOption

theorem isAtom_of_plainValue {o : Object} {v : Value} (plain : o.plainValue = .ok v) : v.isAtom = true := by
  simp only [plainValue] at plain
  cases held : o.builtIn with
  | int n =>
      simp only [held] at plain
      split at plain
      · cases plain
        rfl
      · cases plain
  | text codePoints =>
      simp only [held] at plain
      cases decoded : decodeText codePoints with
      | error e =>
          rw [decoded] at plain
          cases plain
      | ok text =>
          rw [decoded] at plain
          cases plain
          rfl
  | number className reading? =>
      simp only [held] at plain
      cases read : reading?.bind Reading.toValue? with
      | none =>
          rw [read] at plain
          cases plain
      | some value =>
          rw [read] at plain
          cases plain
          exact Reading.isAtom_of_toValue read
  | _ =>
      simp only [held] at plain
      cases plain <;> rfl

theorem isPlain_of_plainValue {o : Object} {v : Value} (plain : o.plainValue = .ok v) :
    o.isPlain = true := by
  simp only [plainValue] at plain
  simp only [isPlain]
  cases held : o.builtIn with
  | list | tuple | dict | exporter =>
      rw [held] at plain
      cases plain
  | _ => rfl

theorem plainValue_of_key? {o : Object} {key : Key} (known : o.key? = some key) :
    ∃ v, o.plainValue = .ok v ∧ v.toKey = .ok key := by
  simp only [key?] at known
  cases plain : o.plainValue with
  | error e =>
      rw [plain] at known
      cases known
  | ok v =>
      refine ⟨v, rfl, ?_⟩
      rw [plain] at known
      cases keyed : v.toKey with
      | error e => simp [Except.bind, keyed, Except.toOption] at known
      | ok other => simpa [Except.bind, keyed, Except.toOption] using known

end Object

namespace Action

theorem convertWithin_plain {id : ObjectId} (plain : (h.object id).isPlain = true) (limit room : Nat) :
    (convertWithin limit (room + 1) id : Action σ Error Value).run h = ((h.object id).plainValue, h) := by
  rw [convertWithin, bind_of_ok (run_object id)]
  simp only [Object.isPlain] at plain
  simp only [Object.plainValue]
  cases held : (h.object id).builtIn with
  | list | tuple | dict | exporter =>
      rw [held] at plain
      cases plain
  | int n =>
      dsimp only
      split <;> rfl
  | text codePoints =>
      dsimp only
      cases decodeText codePoints <;> rfl
  | number className reading? =>
      dsimp only
      cases reading?.bind Reading.toValue? <;> rfl
  | _ => rfl

theorem run_lift (result : Except ε α) : (liftM result : Action σ ε α).run h = (result, h) := by
  cases result <;> rfl

theorem ok_of_lift {result : Except ε α} {next : α → Action σ ε β} {b : β}
    (ended : (liftM result >>= next : Action σ ε β).run h = (.ok b, after)) :
    ∃ a, result = .ok a ∧ (next a).run h = (.ok b, after) := by
  obtain ⟨a, middle, lifted, rest⟩ := ok_of_bind ended
  rw [run_lift] at lifted
  cases lifted
  exact ⟨a, rfl, rest⟩

theorem bind_of_lift (a : α) (next : α → Action σ ε β) :
    ((liftM (.ok a : Except ε α) : Action σ ε α) >>= next).run h = (next a).run h := bind_of_ok rfl

theorem run_perform {act : Act σ α} {a : α} {w : World σ} (ended : act h.world = (.returned a, w)) :
    (perform act).run h = (.ok a, { h with world := w }) := by
  simp only [perform, ExceptT.run, ended]

theorem ok_of_perform {act : Act σ α} {a : α} (ended : (perform act).run h = (.ok a, after)) :
    ∃ w, act h.world = (.returned a, w) := by
  simp only [perform, ExceptT.run] at ended
  rcases ran : act h.world with ⟨outcome, w⟩
  rw [ran] at ended
  cases outcome with
  | returned b =>
      cases ended
      exact ⟨w, rfl⟩
  | _ => cases ended

/-- Borrowing depends on the world only for the numbers of what is made. -/
theorem lends {event : Event} {data : List UInt8} {layout : Layout} {readonly : Bool} {keeper : Keeper}
    {v : Value} {w last : World σ}
    (lent : (do
      Act.log event
      return .array (← ArrayView.borrow data layout readonly keeper) : Act σ Value) w = (.returned v, last)) :
    ∃ grow buffer, World.Grows grow [buffer] ∧ v.nesting = 0 ∧ ∀ other,
      (do
        Act.log event
        return .array (← ArrayView.borrow data layout readonly keeper) : Act σ Value) other =
          (.returned (v.moved w other), grow other) := by
  let buffer : Buffer := { bytes := data, isReadonly := readonly, keeper? := some keeper, access := .idle }
  obtain ⟨_, _, noted, ended⟩ := Act.returned_of_bind lent
  cases noted
  obtain ⟨view, _, borrowed, ended⟩ := Act.returned_of_bind ended
  obtain ⟨_, _, checked, validated⟩ := Act.returned_of_bind borrowed
  obtain ⟨typed, _⟩ := Act.returned_of_ofExcept checked
  obtain ⟨_, _, accepted, _⟩ := Act.returned_of_bind validated
  obtain ⟨valid, _⟩ := Act.returned_of_ofExcept accepted
  have made (other : World σ) : (ArrayView.borrow data layout readonly keeper : Act σ ArrayView) other =
      ArrayView.make layout buffer .borrowed other := by
    simp only [ArrayView.borrow, typed, valid]
    rfl
  rw [made] at borrowed
  cases borrowed
  cases ended
  refine ⟨fun other =>
    (ArrayView.make layout buffer .borrowed { other with journal := event :: other.journal }).2,
    buffer, ⟨fun _ => rfl, fun _ => rfl⟩, rfl, fun other => ?_⟩
  have logged : Act.log event other = (.returned (), { other with journal := event :: other.journal }) := rfl
  have number : w.arrayCount + 1 + other.arrayCount - w.arrayCount = other.arrayCount + 1 := by omega
  have place : w.buffers.length + other.buffers.length - w.buffers.length = other.buffers.length := by omega
  rw [Act.bind_of_returned logged, Act.bind_of_returned ((made _).trans rfl)]
  simp only [Value.moved, Value.mapViews, ArrayView.moved, number, place]
  rfl

/-- Borrowing memory does the same in every world, up to the numbers of what is made. -/
theorem borrow_anywhere {e : Exporter} {id : ObjectId} {v : Value}
    (borrowed : (e.borrow id : Action σ Error Value).run h = (.ok v, after)) :
    ∃ grow fresh, World.Grows grow fresh ∧ v.nesting = 0 ∧ ∀ other : Host σ,
      (e.borrow id : Action σ Error Value).run other =
        (.ok (v.moved h.world other.world), { other with world := grow other.world }) := by
  simp only [Exporter.borrow] at borrowed ⊢
  split at borrowed
  · cases borrowed
  · rename_i live
    cases known : DType.ofBufferFormat e.format with
    | none =>
        rw [known] at borrowed
        cases borrowed
    | some dtype =>
        rw [known] at borrowed
        obtain ⟨_, fitting, borrowed⟩ := ok_of_lift borrowed
        obtain ⟨layout, laid, borrowed⟩ := ok_of_lift borrowed
        obtain ⟨extent, reached, borrowed⟩ := ok_of_lift borrowed
        obtain ⟨w, lent⟩ := ok_of_perform borrowed
        obtain ⟨grow, buffer, grows, flat, made⟩ := lends lent
        refine ⟨grow, [buffer], grows, flat, fun other => ?_⟩
        rw [if_neg live]
        dsimp only
        rw [fitting, bind_of_lift, laid, bind_of_lift, reached, bind_of_lift]
        exact run_perform (made other.world)

end Action

end Host

end Marshal
