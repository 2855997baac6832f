import Mathlib
import Marshal.Proofs.Binary.Exact
import Marshal.Proofs.Ty.Matching
import Marshal.Proofs.Value.Entries

namespace Marshal

open Binary (isNaN_convert convert_single_double)

/-- The same number, bit for bit unless both are NaNs. -/
def Binary.Same {f : Format} (x y : Binary f) : Prop := x = y ∨ x.isNaN = true ∧ y.isNaN = true

namespace Ty

/-- The values of a type as its own operations make them: all mappings inside hold their entries as
mappings of their kind do. -/
def Proper : (t : Ty) → t.Carrier → Prop
  | .option item, x => ∀ y ∈ x, item.Proper y
  | .list item, xs => ∀ x ∈ xs, item.Proper x
  | .pair first second, (x, y) => first.Proper x ∧ second.Proper y
  | .map kind key value, entries => kind.Ordered key (entries.map Prod.fst) ∧
    ∀ entry ∈ entries, value.Proper entry.2
  | _, _ => True

/-- A value with every optional part that is written as none made absent. -/
def collapse : (t : Ty) → t.Carrier → t.Carrier
  | .option item, x => x.bind fun y => if (item.encode y).isNone then none else some (item.collapse y)
  | .list item, xs => xs.map item.collapse
  | .pair first second, (x, y) => (first.collapse x, second.collapse y)
  | .map _ _ value, entries => entries.map fun entry => (entry.1, value.collapse entry.2)
  | .unit, x | .bool, x | .int _, x | .float _, x | .complex _, x | .text, x | .bytes, x | .any, x
  | .object, x | .array, x => x

/-- The same value up to NaNs. -/
def Agrees : (t : Ty) → t.Carrier → t.Carrier → Prop
  | .float _, x, y => x.Same y
  | .complex _, x, y => x.1.Same y.1 ∧ x.2.Same y.2
  | .option item, x, y => Option.Rel item.Agrees x y
  | .list item, xs, ys => List.Forall₂ item.Agrees xs ys
  | .pair first second, x, y => first.Agrees x.1 y.1 ∧ second.Agrees x.2 y.2
  | .map _ _ value, xs, ys => List.Forall₂ (fun a b => a.1 = b.1 ∧ value.Agrees a.2 b.2) xs ys
  | .unit, x, y | .bool, x, y | .int _, x, y | .text, x, y | .bytes, x, y | .any, x, y
  | .object, x, y | .array, x, y => x = y

/-- Whether some value of the type is written as none. -/
def isNullable : Ty → Bool
  | .unit | .option _ | .any => true
  | _ => false

/-- No optional type wraps a type with a value that is written as none. -/
def Plain : Ty → Prop
  | .option item => item.isNullable = false ∧ item.Plain
  | .list item => item.Plain
  | .pair first second => first.Plain ∧ second.Plain
  | .map _ _ value => value.Plain
  | _ => True

end Ty

/-- Narrowing a number that was widened to the double format gives it back. -/
theorem FloatType.narrow_widen (t : FloatType) (x : Binary t.format) :
    (Binary.convert t.format (Binary.convert Format.double x)).Same x := by
  cases t with
  | f64 => exact .inl rfl
  | f32 =>
      cases number : x.isNaN with
      | false => exact .inl (convert_single_double number)
      | true => exact .inr ⟨isNaN_convert (by decide) (isNaN_convert (by decide) number), number⟩

namespace KeyTy

variable {k : KeyTy}

theorem decode_encode (key : k.Carrier) : k.decode (k.encode key) = .ok key := by
  cases k with
  | bool => rfl
  | int t => exact NativeInt.decode_of_contains key.inRange
  | text => rfl

theorem encode_injective : Function.Injective k.encode := by
  intro a b same
  have decoded := congrArg k.decode same
  rw [decode_encode, decode_encode] at decoded
  exact Except.ok.inj decoded

end KeyTy

section Parts

variable {α β : Type} {R : β → α → Prop} {encode : α → Value} {decode : Value → Except Error β}
  {collapse : α → α}

theorem decodeItems_encoded {xs : List α}
    (each : ∀ x ∈ xs, ∃ y, decode (encode x) = .ok y ∧ R y (collapse x)) (index : Nat) :
    ∃ ys, decodeItems decode index (xs.map encode) = .ok ys ∧ List.Forall₂ R ys (xs.map collapse) := by
  induction xs generalizing index with
  | nil => exact ⟨[], rfl, .nil⟩
  | cons x xs ih =>
      simp only [List.forall_mem_cons] at each
      obtain ⟨⟨y, decoded, agrees⟩, each⟩ := each
      obtain ⟨ys, rest, agree⟩ := ih each (index + 1)
      exact ⟨y :: ys, by simp only [List.map_cons, decodeItems, decoded, rest], .cons agrees agree⟩

theorem decodeEntries_encoded {k : KeyTy} {entries : Entries k.Carrier α}
    (each : ∀ entry ∈ entries, ∃ y, decode (encode entry.2) = .ok y ∧ R y (collapse entry.2)) :
    ∃ given, decodeEntries k decode (entries.map fun entry => (k.encode entry.1, encode entry.2)) =
        .ok given ∧
      List.Forall₂ (fun a b => a.1 = b.1 ∧ R a.2 b.2) given
        (entries.map fun entry => (entry.1, collapse entry.2)) := by
  induction entries with
  | nil => exact ⟨[], rfl, .nil⟩
  | cons entry rest ih =>
      simp only [List.forall_mem_cons] at each
      obtain ⟨⟨y, decoded, agrees⟩, each⟩ := each
      obtain ⟨given, others, agree⟩ := ih each
      refine ⟨(entry.1, y) :: given, ?_, .cons ⟨rfl, agrees⟩ agree⟩
      simp only [List.map_cons, decodeEntries, KeyTy.decode_encode, decoded, others]

theorem keys_of_agreeing {κ : Type} {given : List (κ × β)} {entries : List (κ × α)}
    (agree : List.Forall₂ (fun a b => a.1 = b.1 ∧ R a.2 b.2) given entries) :
    given.map Prod.fst = entries.map Prod.fst := by
  induction agree with
  | nil => rfl
  | cons same _ ih => rw [List.map_cons, List.map_cons, same.1, ih]

end Parts

namespace Ty

theorem isNone_iff {v : Value} : v.isNone = true ↔ v = .none := by
  cases v <;> simp [Value.isNone]

theorem decode_option {item : Ty} {v : Value} (there : v.isNone = false) :
    (option item).decode v = (item.decode v).map some := by
  cases v with
  | none => cases there
  | _ => rfl

theorem encode_map {kind : MapKind} {key : KeyTy} {value : Ty} {entries : Entries key.Carrier value.Carrier}
    (distinct : (entries.map Prod.fst).Nodup) :
    (map kind key value).encode entries =
      .map (entries.map fun entry => (key.encode entry.1, value.encode entry.2)) := by
  have keys : ((entries.map fun entry => (key.encode entry.1, value.encode entry.2)).map Prod.fst).Nodup := by
    have injective : Function.Injective key.encode := KeyTy.encode_injective
    have encoded := distinct.map injective
    rw [List.map_map] at encoded ⊢
    exact encoded
  rw [encode, Entries.ofList_of_distinct keys]

/-- What comes back from a dynamic value that a native one was written as. -/
theorem decode_encode_agrees : (t : Ty) → (x : t.Carrier) → t.Proper x →
    ∃ y, t.decode (t.encode x) = .ok y ∧ t.Agrees y (t.collapse x)
  | .unit, _, _ => ⟨(), rfl, rfl⟩
  | .bool, b, _ => ⟨b, rfl, rfl⟩
  | .int t, n, _ => ⟨n, NativeInt.decode_of_contains n.inRange, rfl⟩
  | .float t, x, _ => ⟨_, rfl, t.narrow_widen x⟩
  | .complex part, (re, im), _ => ⟨_, rfl, part.narrow_widen re, part.narrow_widen im⟩
  | .text, s, _ => ⟨s, rfl, rfl⟩
  | .bytes, b, _ => ⟨b, rfl, rfl⟩
  | .any, v, _ => ⟨v, rfl, rfl⟩
  | .object, handle, _ => ⟨handle, rfl, rfl⟩
  | .array, view, _ => ⟨view, rfl, rfl⟩
  | .option item, none, _ => ⟨none, rfl, .none⟩
  | .option item, some x, proper => by
      cases absent : (item.encode x).isNone with
      | true =>
          refine ⟨none, ?_, ?_⟩
          · rw [encode, isNone_iff.mp absent]
            rfl
          · simp only [collapse, Option.bind_some, absent, ↓reduceIte]
            exact .none
      | false =>
          obtain ⟨y, decoded, agrees⟩ := decode_encode_agrees item x (proper x rfl)
          have there : (option item).decode (item.encode x) = .ok (some y) := by
            rw [decode_option absent, decoded]
            rfl
          refine ⟨some y, there, ?_⟩
          simp only [collapse, Option.bind_some, absent, Bool.false_eq_true, ↓reduceIte]
          exact .some agrees
  | .list item, xs, proper =>
      decodeItems_encoded (fun x member => decode_encode_agrees item x (proper x member)) 0
  | .pair first second, (x, y), proper => by
      obtain ⟨a, decodedFirst, agreesFirst⟩ := decode_encode_agrees first x proper.1
      obtain ⟨b, decodedSecond, agreesSecond⟩ := decode_encode_agrees second y proper.2
      exact ⟨(a, b), by simp only [encode, decode, decodedFirst, decodedSecond], agreesFirst, agreesSecond⟩
  | .map kind key value, entries, proper => by
      obtain ⟨given, decoded, agrees⟩ := decodeEntries_encoded
        (fun entry member => decode_encode_agrees value entry.2 (proper.2 entry member))
      have keys : given.map Prod.fst = entries.map Prod.fst := by
        rw [keys_of_agreeing agrees, List.map_map]
        rfl
      refine ⟨given, ?_, agrees⟩
      rw [encode_map proper.1.nodup]
      simp only [decode, decoded, MapKind.collect_of_ordered (keys ▸ proper.1)]

theorem isNone_encode : {t : Ty} → t.isNullable = false → (x : t.Carrier) → (t.encode x).isNone = false
  | .bool, _, _ | .int _, _, _ | .float _, _, _ | .complex _, _, _ | .text, _, _ | .bytes, _, _
  | .object, _, _ | .array, _, _ | .list _, _, _ | .pair _ _, _, _ | .map _ _ _, _, _ => rfl

theorem collapse_of_plain : (t : Ty) → t.Plain → (x : t.Carrier) → t.collapse x = x
  | .unit, _, _ | .bool, _, _ | .int _, _, _ | .float _, _, _ | .complex _, _, _ | .text, _, _
  | .bytes, _, _ | .any, _, _ | .object, _, _ | .array, _, _ | .option _, _, none => rfl
  | .option item, plain, some x => by
      simp only [collapse, Option.bind_some, isNone_encode plain.1 x, Bool.false_eq_true, ↓reduceIte,
        collapse_of_plain item plain.2 x]
  | .list item, plain, xs => by
      have same : item.collapse = id := funext (collapse_of_plain item plain)
      rw [collapse, same, List.map_id]
  | .pair first second, plain, (x, y) => by
      rw [collapse, collapse_of_plain first plain.1 x, collapse_of_plain second plain.2 y]
  | .map _ _ value, plain, entries => by
      have same : value.collapse = id := funext (collapse_of_plain value plain)
      rw [collapse, same]
      exact List.map_id entries

/-- A value that is written as a dynamic one and read back is what it was, up to NaNs, save for optional
parts that are written as none. -/
theorem decode_encode_exact (t : Ty) (x : t.Carrier) (proper : t.Proper x) :
    (∃ y, t.decode (t.encode x) = .ok y ∧ t.Agrees y (t.collapse x)) ∧
      (t.Plain → t.collapse x = x) :=
  ⟨decode_encode_agrees t x proper, fun plain => collapse_of_plain t plain x⟩

/-- A mapping with an optional value that is there and is written as none. -/
def doubtful : Entries (Fixed .u8) (Option (Option String)) :=
  [(Fixed.wrap .u8 2, some none), (Fixed.wrap .u8 1, some (some "one"))]

theorem decode_encode_exact_doubtful :
    ∃ y, (map .byInsertion (.int (.fixed .u8)) (.option (.option .text))).decode
        (.map [(.int 2, .none), (.int 1, .str "one")]) = .ok y ∧
      Agrees (.map .byInsertion (.int (.fixed .u8)) (.option (.option .text))) y
        [(Fixed.wrap .u8 2, none), (Fixed.wrap .u8 1, some (some "one"))] := by
  have distinct : (doubtful.map Prod.fst).Nodup := by decide
  have proper : (map .byInsertion (.int (.fixed .u8)) (.option (.option .text))).Proper doubtful :=
    ⟨distinct, fun _ _ _ _ _ _ => trivial⟩
  exact (decode_encode_exact
    (map .byInsertion (.int (.fixed .u8)) (.option (.option .text))) doubtful proper).1

end Ty

end Marshal
