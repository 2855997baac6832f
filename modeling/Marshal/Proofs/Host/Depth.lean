import Mathlib
import Marshal.Proofs.Call.Limit
import Marshal.Proofs.Host.Conversion
import Marshal.Proofs.Value.Entries

namespace Marshal

namespace Host

open Marshal.Host.Action

variable {σ α β : Type} {h after : Host σ} {object : ObjectId → Object} {id : ObjectId}

/-- An object and what it holds, without end in none of its parts.  The keys of a mapping differ. -/
inductive Tree (object : ObjectId → Object) : ObjectId → Prop
  | plain {id : ObjectId} (plain : (object id).isPlain = true) : Tree object id
  | exporter {id : ObjectId} {e : Exporter} (exports : (object id).builtIn = .exporter e) : Tree object id
  | sequence {id : ObjectId} {items : List ObjectId}
      (holds : (object id).builtIn = .list items ∨ (object id).builtIn = .tuple items)
      (each : ∀ item ∈ items, Tree object item) : Tree object id
  | mapping {id : ObjectId} {entries : List (ObjectId × ObjectId)} {keys : List Key}
      (holds : (object id).builtIn = .dict entries)
      (keyed : List.Forall₂ (fun entry key => (object entry.1).key? = some key) entries keys)
      (distinct : keys.Nodup) (each : ∀ entry ∈ entries, Tree object entry.2) : Tree object id

/-- What an action under a limit does in every host with these objects: with room for `depth` levels it has
this result, and with less it finds something nested too deep. -/
structure Anywhere (object : ObjectId → Object) (depth : Nat) (action : Nat → Nat → Action σ Error α)
    (result : World σ → α) (grow : World σ → World σ) (fresh : List Buffer) : Prop where
  grows : World.Grows grow fresh
  roomy : ∀ (limit room : Nat) (h : Host σ), h.object = object → depth ≤ room →
    (action limit room).run h = (.ok (result h.world), { h with world := grow h.world })
  cramped : ∀ (limit room : Nat) (h : Host σ), h.object = object → room < depth →
    ∃ place last, (action limit room).run h = (.error (.tooDeepAt limit place), last)

namespace Anywhere

variable {depth later : Nat} {action : Nat → Nat → Action σ Error α} {result : World σ → α}
  {grow grown : World σ → World σ} {fresh made : List Buffer}

theorem pure (a : α) :
    Anywhere object 0 (fun _ _ => (Pure.pure a : Action σ Error α)) (fun _ => a) (fun w => w) [] where
  grows := World.Grows.refl
  roomy _ _ _ _ _ := rfl
  cramped _ _ _ _ short := absurd short (Nat.not_lt_zero _)

/-- One action after another, whatever the first one gives. -/
theorem bind {next : α → Nat → Nat → Action σ Error β} {last : World σ → World σ → β}
    (first : Anywhere object depth action result grow fresh)
    (second : ∀ w, Anywhere object later (next (result w)) (last w) grown made) :
    Anywhere object (max depth later) (fun limit room => action limit room >>= fun a => next a limit room)
      (fun w => last w (grow w)) (grown ∘ grow) (fresh ++ made) where
  grows := first.grows.comp (second {}).grows
  roomy limit room h same enough := by
    rw [bind_of_ok (first.roomy limit room h same (by omega))]
    exact (second h.world).roomy limit room { h with world := grow h.world } same (by omega)
  cramped limit room h same short := by
    rcases Nat.lt_or_ge room depth with before | enough
    · obtain ⟨place, last, refused⟩ := first.cramped limit room h same before
      exact ⟨place, last, bind_of_error refused⟩
    · rw [bind_of_ok (first.roomy limit room h same enough)]
      exact (second h.world).cramped limit room { h with world := grow h.world } same (by omega)

theorem within (anywhere : Anywhere object depth action result grow fresh) (segment : String) :
    Anywhere object depth (fun limit room => (action limit room).describe (Error.within segment)) result
      grow fresh where
  grows := anywhere.grows
  roomy limit room h same enough := describe_of_ok (anywhere.roomy limit room h same enough)
  cramped limit room h same short := by
    obtain ⟨place, last, refused⟩ := anywhere.cramped limit room h same short
    exact ⟨_, last, describe_of_error refused⟩

/-- What has a result in one host has room enough. -/
theorem depth_le {limit room : Nat} {a : α} (anywhere : Anywhere object depth action result grow fresh)
    (same : h.object = object) (ended : (action limit room).run h = (.ok a, after)) :
    depth ≤ room ∧ a = result h.world ∧ after = { h with world := grow h.world } := by
  rcases Nat.lt_or_ge room depth with short | enough
  · obtain ⟨place, last, refused⟩ := anywhere.cramped limit room h same short
    cases refused.symm.trans ended
  · cases (anywhere.roomy limit room h same enough).symm.trans ended
    exact ⟨enough, rfl, rfl⟩

theorem congr {other : Nat → Nat → Action σ Error α} {same : World σ → α} {deep : Nat}
    (anywhere : Anywhere object depth action result grow fresh) (depths : depth = deep)
    (actions : ∀ limit room, action limit room = other limit room) (results : ∀ w, result w = same w) :
    Anywhere object deep other same grow fresh := by
  obtain rfl : action = other := funext fun limit => funext (actions limit)
  obtain rfl : result = same := funext results
  exact depths ▸ anywhere

/-- Conversion enters a container and has one level less for what is in it. -/
theorem enter {f : α → Value} (inside : Anywhere object depth action result grow fresh)
    (enters : ∀ (limit room : Nat) (h : Host σ), h.object = object →
      (convertWithin limit (room + 1) id).run h = (action limit room >>= fun a => Pure.pure (f a)).run h) :
    Anywhere object (depth + 1) (fun limit room => (convertWithin limit room id : Action σ Error Value))
      (fun w => f (result w)) grow fresh where
  grows := inside.grows
  roomy limit room h same enough := by
    obtain ⟨room, rfl⟩ : ∃ less, room = less + 1 := ⟨room - 1, by omega⟩
    rw [enters limit room h same, bind_of_ok (inside.roomy limit room h same (by omega))]
    rfl
  cramped limit room h same short := by
    cases room with
    | zero => exact ⟨"", h, rfl⟩
    | succ room =>
        obtain ⟨place, last, refused⟩ := inside.cramped limit room h same (by omega)
        exact ⟨place, last, (enters limit room h same).trans (bind_of_error refused)⟩

end Anywhere

section Containers

/-- Once an object was converted somewhere, it is known how it is converted everywhere. -/
def Foreseen (σ : Type) (object : ObjectId → Object) (id : ObjectId) : Prop :=
  ∀ {limit room : Nat} {h after : Host σ} {v : Value}, h.object = object →
    (convertWithin limit room id).run h = (.ok v, after) →
    ∃ grow fresh, Anywhere (σ := σ) object (v.nesting + 1) (fun limit room => convertWithin limit room id)
      (fun w => v.moved h.world w) grow fresh

theorem anywhere_items {items : List ObjectId} (each : ∀ item ∈ items, Foreseen σ object item)
    {limit room index : Nat} {values : List Value} (same : h.object = object)
    (converted : (convertItems (convertWithin limit room) index items).run h = (.ok values, after)) :
    ∃ grow fresh, Anywhere object (Value.itemsNesting values)
      (fun limit room => convertItems (convertWithin limit room) index items)
      (fun w => Value.mapItemViews (ArrayView.moved h.world w) values) grow fresh := by
  induction items generalizing h after values index with
  | nil =>
      cases converted
      exact ⟨_, _, .pure _⟩
  | cons item rest ih =>
      simp only [List.forall_mem_cons] at each
      obtain ⟨value, middle, first, others⟩ := ok_of_bind converted
      obtain ⟨grow, fresh, here⟩ := each.1 same (ok_of_describe first)
      obtain ⟨_, _, rfl⟩ := here.depth_le same (ok_of_describe first)
      obtain ⟨values, _, rests, ended⟩ := ok_of_bind others
      cases ended
      obtain ⟨_, _, there⟩ := ih each.2 (h := { h with world := grow h.world }) same rests
      refine ⟨_, _, ((here.within (Value.itemPlace index)).bind fun _ =>
        there.bind fun w => .pure (_ :: _)).congr ?_ (fun _ _ => rfl) fun w => ?_⟩
      · simp only [Value.itemsNesting]
        omega
      · dsimp only
        rw [here.grows.moved]
        rfl

theorem anywhere_plain {v : Value} (plain : (object id).plainValue = .ok v) :
    Anywhere (σ := σ) object 1 (fun limit room => convertWithin limit room id) (fun _ => v)
      (fun w => w) [] := by
  have isPlain := Object.isPlain_of_plainValue plain
  refine (Anywhere.pure v).enter (f := fun v => v) fun limit room h same => ?_
  subst same
  rw [convertWithin_plain isPlain, plain]
  rfl

theorem anywhere_key {key : Key} (known : (object id).key? = some key) :
    Anywhere (σ := σ) object 1
      (fun limit room => describe (Error.within "[key]") do
        ((← convertWithin limit room id).toKey : Except Error Key)) (fun _ => key) (fun w => w) [] := by
  obtain ⟨v, plain, keyed⟩ := Object.plainValue_of_key? known
  refine ⟨World.Grows.refl, fun limit room h same enough => describe_of_ok ?_,
    fun limit room h same short => ?_⟩
  · rw [bind_of_ok ((anywhere_plain plain).roomy limit room h same enough), keyed]
    rfl
  · obtain ⟨place, last, refused⟩ := (anywhere_plain plain).cramped limit room h same short
    exact ⟨_, last, describe_of_error (bind_of_error refused)⟩

/-- The entries of a mapping as they are converted, before those with one key are told apart. -/
def convertPairs (convert : ObjectId → Action σ Error Value) :
    List (ObjectId × ObjectId) → Action σ Error (List (Key × Value))
  | [] => return []
  | (key, value) :: rest => do
    let key ← describe (Error.within "[key]") do ((← convert key).toKey : Except Error Key)
    let value ← (convert value).describe (Error.within (Value.entryPlace key))
    return (key, value) :: (← convertPairs convert rest)

theorem convertEntries_eq (convert : ObjectId → Action σ Error Value) (pairs : List (ObjectId × ObjectId))
    (entries : Entries Key Value) :
    convertEntries convert pairs entries = (do
      return (← convertPairs convert pairs).foldl
        (fun entries entry => Entries.insert entries entry.1 entry.2) entries) := by
  induction pairs generalizing entries with
  | nil => rfl
  | cons pair rest ih => simp only [convertEntries, convertPairs, ih, bind_assoc, pure_bind, List.foldl_cons]

theorem anywhere_pairs {pairs : List (ObjectId × ObjectId)} {keys : List Key}
    (keyed : List.Forall₂ (fun pair key => (object pair.1).key? = some key) pairs keys)
    (each : ∀ pair ∈ pairs, Foreseen σ object pair.2) {limit room : Nat} {entries : List (Key × Value)}
    (same : h.object = object)
    (converted : (convertPairs (convertWithin limit room) pairs).run h = (.ok entries, after)) :
    entries.map Prod.fst = keys ∧ ∃ grow fresh, Anywhere object (Value.entriesNesting entries)
      (fun limit room => convertPairs (convertWithin limit room) pairs)
      (fun w => Value.mapEntryViews (ArrayView.moved h.world w) entries) grow fresh := by
  induction keyed generalizing h after entries with
  | nil =>
      cases converted
      exact ⟨rfl, _, _, .pure _⟩
  | @cons pair key pairs keys known _ ih =>
      simp only [List.forall_mem_cons] at each
      have naming := anywhere_key (σ := σ) known
      obtain ⟨found, middle, first, second⟩ := ok_of_bind converted
      obtain ⟨_, rfl, rfl⟩ := naming.depth_le same first
      obtain ⟨value, last, valued, others⟩ := ok_of_bind second
      obtain ⟨grow, fresh, here⟩ := each.1 same (ok_of_describe valued)
      obtain ⟨_, _, rfl⟩ := here.depth_le same (ok_of_describe valued)
      obtain ⟨entries, _, rests, ended⟩ := ok_of_bind others
      cases ended
      obtain ⟨names, _, _, there⟩ := ih each.2 (h := { h with world := grow h.world }) same rests
      refine ⟨congrArg (found :: ·) names, _, _, (naming.bind fun _ =>
        (here.within (Value.entryPlace found)).bind fun _ =>
          there.bind fun w => .pure (_ :: _)).congr ?_ (fun _ _ => rfl) fun w => ?_⟩
      · simp only [Value.entriesNesting]
        omega
      · dsimp only
        rw [here.grows.moved]
        rfl

theorem convertWithin_exporter {e : Exporter} (exports : (object id).builtIn = .exporter e) (limit room : Nat)
    (h : Host σ) (same : h.object = object) :
    (convertWithin limit (room + 1) id).run h = (e.borrow id : Action σ Error Value).run h := by
  subst same
  rw [convertWithin, bind_of_ok (run_object id), exports]

theorem convertWithin_sequence {items : List ObjectId}
    (holds : (object id).builtIn = .list items ∨ (object id).builtIn = .tuple items) (limit room : Nat)
    (h : Host σ) (same : h.object = object) :
    (convertWithin limit (room + 1) id).run h =
      (convertItems (convertWithin limit room) 0 items >>= fun values => pure (.seq values)).run h := by
  subst same
  rw [convertWithin, bind_of_ok (run_object id)]
  rcases holds with list | tuple
  · rw [list]
  · rw [tuple]

theorem convertWithin_mapping {entries : List (ObjectId × ObjectId)}
    (holds : (object id).builtIn = .dict entries) (limit room : Nat) (h : Host σ) (same : h.object = object) :
    (convertWithin limit (room + 1) id).run h =
      (convertPairs (convertWithin limit room) entries >>= fun pairs =>
        pure (.map (Entries.ofList pairs))).run h := by
  subst same
  rw [convertWithin, bind_of_ok (run_object id), holds]
  dsimp only
  rw [convertEntries_eq, bind_assoc]
  simp only [pure_bind]
  rfl

/-- A tree that was converted somewhere becomes the same value everywhere, as far as there is room. -/
theorem Tree.foreseen (tree : Tree object id) : Foreseen σ object id := by
  induction tree with
  | @plain id plain =>
      intro limit room h after v same converted
      cases room with
      | zero => cases converted
      | succ room =>
          subst same
          rw [convertWithin_plain plain] at converted
          cases value : (h.object id).plainValue with
          | error e =>
              rw [value] at converted
              cases converted
          | ok found =>
              rw [value] at converted
              cases converted
              have atom := Object.isAtom_of_plainValue value
              refine ⟨_, _, (anywhere_plain value).congr ?_ (fun _ _ => rfl) fun w => ?_⟩
              · rw [Value.nesting_of_isAtom atom]
              · exact (Value.mapViews_of_isAtom atom _).symm
  | @exporter id e exports =>
      intro limit room h after v same converted
      cases room with
      | zero => cases converted
      | succ room =>
          have enters := fun limit room => convertWithin_exporter (σ := σ) exports limit room
          rw [enters limit room h same] at converted
          obtain ⟨grow, fresh, grows, flat, lends⟩ := borrow_anywhere converted
          have borrowing : Anywhere (σ := σ) object 0 (fun _ _ => e.borrow id)
              (fun w => v.moved h.world w) grow fresh :=
            ⟨grows, fun _ _ other _ _ => lends other, fun _ _ _ _ short => absurd short (Nat.not_lt_zero _)⟩
          rw [flat]
          refine ⟨grow, fresh, borrowing.enter (f := fun v => v) fun limit room other same => ?_⟩
          rw [enters limit room other same, bind_pure]
  | @sequence id items holds each ih =>
      intro limit room h after v same converted
      cases room with
      | zero => cases converted
      | succ room =>
          have enters := fun limit room => convertWithin_sequence (σ := σ) holds limit room
          rw [enters limit room h same] at converted
          obtain ⟨values, _, inside, ended⟩ := ok_of_bind converted
          cases ended
          obtain ⟨grow, fresh, within⟩ := anywhere_items ih same inside
          exact ⟨grow, fresh, within.enter (f := .seq) enters⟩
  | @mapping id entries keys holds keyed distinct each ih =>
      intro limit room h after v same converted
      cases room with
      | zero => cases converted
      | succ room =>
          have enters := fun limit room => convertWithin_mapping (σ := σ) holds limit room
          rw [enters limit room h same] at converted
          obtain ⟨pairs, _, inside, ended⟩ := ok_of_bind converted
          cases ended
          obtain ⟨names, grow, fresh, within⟩ := anywhere_pairs keyed ih same inside
          have all : Entries.ofList pairs = pairs := Entries.ofList_of_distinct (names ▸ distinct)
          refine ⟨grow, fresh, (within.enter (f := fun pairs => .map (Entries.ofList pairs)) enters).congr ?_
            (fun _ _ => rfl) fun w => ?_⟩
          · rw [all]
            rfl
          · have moved := Value.mapEntryViews_keys (ArrayView.moved h.world w) pairs
            rw [Entries.ofList_of_distinct (by rw [moved, names]; exact distinct), all]
            rfl

end Containers

/-- A call under a limit goes by the depth of a given value as conversion did.  A value that was accepted is
not refused for its depth; with one that was not, the call fails before native code runs. -/
structure Heeds (accepted : Prop) (limit : Nat) (v : Value) (args : List Value)
    (call : Runner σ → Act σ Value)
    (enter : Runner σ → List Value → Act σ Value) (w noted : World σ) : Prop where
  spared (accepts : accepted) (others : ∀ u ∈ args, u = v ∨ u.nesting ≤ limit) :
    ∀ run, call run w = enter run args noted
  refused (refuses : ¬ accepted) :
    ∃ name path, ∀ run, call run w = (.failed (.tooDeep limit name path), noted)

theorem Heeds.of_limited {accepted : Prop} {limit : Nat} {v : Value} {function : String} {params : List Param}
    {positional args : List Value} {keywords : Keywords} {call : Runner σ → Act σ Value}
    {enter : Runner σ → List Value → Act σ Value} {w noted : World σ}
    (limited : Limited limit function params positional keywords call enter w noted)
    (bound : bindArguments function params positional keywords = .ok args)
    (given : v ∈ positional ++ keywords.map Prod.snd) (exact : accepted ↔ v.nesting ≤ limit) :
    Heeds accepted limit v args call enter w noted where
  spared accepts others := limited.entered bound fun u member =>
    (others u member).elim (fun same => same ▸ exact.mp accepts) fun shallow => shallow
  refused refuses := limited.refused bound given (Nat.lt_of_not_le fun shallow => refuses (exact.mpr shallow))

/-- The host and the bridge agree about depth.  Take a tree of objects that becomes a value when no limit
counts.  Under any limit, in any host with these objects, the tree is converted just when the value passes the
check of that limit; it becomes the same value, up to the numbers of arrays, and otherwise something in it is
too deep.  Calls under the same limit refuse such a value for its depth just when conversion did. -/
theorem depth_limits_agree [NativeState σ] (tree : Tree h.object id) {unlimited : Nat} {v : Value}
    (converted : (Action.convert unlimited id).run h = (.ok v, after)) (limit : Nat) :
    ((Action.convert limit id).run h = (.ok v, after) ↔ v.checkDepth limit = .ok ()) ∧
    (∀ other : Host σ, other.object = h.object →
      ((∃ u last, (Action.convert limit id).run other = (.ok u, last)) ↔ v.checkDepth limit = .ok ()) ∧
      (∀ u last, (Action.convert limit id).run other = (.ok u, last) → u = v.moved h.world other.world ∧
        ∃ fresh, after.world.buffers = h.world.buffers ++ fresh ∧
          last.world.buffers = other.world.buffers ++ fresh) ∧
      (v.checkDepth limit ≠ .ok () →
        ∃ place last, (Action.convert limit id).run other = (.error (.tooDeepAt limit place), last))) ∧
    (∀ (f : FunctionBinding (Program σ)) (positional args : List Value) (keywords : Keywords) (w : World σ),
      f.maxDepth = limit → bindArguments f.name f.params positional keywords = .ok args →
      v ∈ positional ++ keywords.map Prod.snd →
      Heeds (∃ u last, (Action.convert limit id).run h = (.ok u, last)) limit v args
        (fun run => f.invoke run positional keywords) f.enter w (w.noted (f.invoking positional keywords))) ∧
    ∀ (handle : Handle) (cell : Cell σ) (state : σ) (c : ClassDef (Program σ)) (m : MethodBinding (Program σ))
      (name : String) (positional args : List Value) (keywords : Keywords) (w : World σ),
      handle.Holds w cell state c → c.method? name = some m → c.maxDepth = limit →
      bindArguments (handle.qualified m.name) m.params positional keywords = .ok args →
      v ∈ positional ++ keywords.map Prod.snd →
      Heeds (∃ u last, (Action.convert limit id).run h = (.ok u, last)) limit v args
        (fun run => handle.invoke run name positional keywords) (handle.enter c m) w
        (w.noted (handle.invoking m.name positional keywords)) := by
  obtain ⟨grow, fresh, anywhere⟩ := tree.foreseen rfl converted
  obtain ⟨_, _, rfl⟩ := anywhere.depth_le rfl converted
  have accepted (other : Host σ) (same : other.object = h.object) :
      (∃ u last, (Action.convert limit id).run other = (.ok u, last)) ↔ v.nesting ≤ limit := by
    constructor
    · rintro ⟨u, last, ended⟩
      exact Nat.le_of_succ_le_succ (anywhere.depth_le same ended).1
    · intro shallow
      exact ⟨_, _, anywhere.roomy limit (limit + 1) other same (Nat.succ_le_succ shallow)⟩
  refine ⟨?_, fun other same =>
    ⟨(accepted other same).trans Value.checkDepth_iff.symm, fun u last ended => ?_, ?_⟩,
    fun f positional args keywords w limits bound given => ?_,
    fun handle cell state c m name positional args keywords w holds found limits bound given => ?_⟩
  · rw [Value.checkDepth_iff, ← accepted h rfl]
    constructor
    · exact fun ended => ⟨_, _, ended⟩
    · rintro ⟨u, last, ended⟩
      obtain ⟨_, rfl, rfl⟩ := anywhere.depth_le rfl ended
      rw [ended, Value.moved_self]
  · obtain ⟨_, rfl, rfl⟩ := anywhere.depth_le same ended
    exact ⟨rfl, fresh, anywhere.grows.buffers _, anywhere.grows.buffers _⟩
  · intro refused
    have deep := Nat.lt_of_not_le fun shallow => refused (Value.checkDepth_iff.mpr shallow)
    exact anywhere.cramped limit (limit + 1) other same (Nat.succ_lt_succ deep)
  · subst limits
    exact .of_limited (f.invoke_limited positional keywords w) bound given (accepted h rfl)
  · subst limits
    exact .of_limited (handle.invoke_limited holds found positional keywords) bound given (accepted h rfl)

/-- A tuple of a list with a number and of a mapping with some memory. -/
def shelf : Host Sample.State where
  objects :=
    #[.int 1, .list [0], .ofString "a", .exporter (.byteArray [1, 2]), .dict [(2, 3)], .tuple [1, 4]]

theorem shelf_tree : Tree shelf.object 5 := by
  have number : Tree shelf.object 0 := .plain rfl
  have list : Tree shelf.object 1 := .sequence (.inl rfl) (by simpa using number)
  have memory : Tree shelf.object 3 := .exporter rfl
  have keyed : List.Forall₂ (fun entry key => (shelf.object entry.1).key? = some key) [(2, 3)] [.str "a"] :=
    .cons rfl .nil
  have dict : Tree shelf.object 4 := .mapping rfl keyed (List.nodup_singleton _) (by simpa using memory)
  exact .sequence (.inr rfl) (by simpa using ⟨list, dict⟩)

theorem depth_limits_agree_shelf :
    Tree shelf.object 5 ∧ ∃ v after, (Action.convert 9 5).run shelf = (.ok v, after) ∧
      (Action.convert 2 5).run shelf = (.ok v, after) ∧
      ∃ place last, (Action.convert 1 5).run shelf = (.error (.tooDeepAt 1 place), last) := by
  have converted : (Action.convert 9 5).run shelf = (.ok _, _) := rfl
  have two := (depth_limits_agree shelf_tree converted 2).1.mpr rfl
  have one := ((depth_limits_agree shelf_tree converted 1).2.1 shelf rfl).2.2 nofun
  exact ⟨shelf_tree, _, _, converted, two, one⟩

end Host

end Marshal
