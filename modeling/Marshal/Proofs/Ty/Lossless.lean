import Mathlib
import Marshal.Proofs.Ty.RoundTrip

namespace Marshal

open Value (ItemsDistinct EntriesDistinct)

namespace Ty

/-- Nothing inside the type rounds numbers or takes one kind of number for another. -/
def Exact : Ty → Prop
  | .float .f32 | .complex _ => False
  | .option item | .list item => item.Exact
  | .pair first second => first.Exact ∧ second.Exact
  | .map _ _ value => value.Exact
  | _ => True

/-- The same value once more, up to the widths of numbers and to the order of entries where a mapping of
the type does not keep it. -/
def Restates : Ty → Value → Value → Prop
  | .int _, .int n _, .int m _ => n = m
  | .float _, .float x _, .float y _ => x = y
  | .option item, v, u => item.Restates v u
  | .list item, .seq vs, .seq us => List.Forall₂ item.Restates vs us
  | .pair first second, .seq [a, b], .seq [c, d] => first.Restates a c ∧ second.Restates b d
  | .map kind _ value, .map given, .map shown => ∃ same,
      List.Forall₂ (fun a b => a.1 = b.1 ∧ value.Restates a.2 b.2) given same ∧ kind.Reorders same shown
  | _, v, u => v = u

theorem restates_none (t : Ty) : t.Restates .none .none := by
  induction t with
  | option item ih => exact ih
  | _ => rfl

end Ty

theorem NativeInt.val_of_decode {t : NativeInt} {n : Int} {x : Fixed t.type} (decoded : t.decode n = .ok x) :
    x.val = n := by
  cases inRange : t.type.contains n with
  | true =>
      rw [decode_of_contains inRange] at decoded
      cases decoded
      rfl
  | false =>
      rw [decode_of_not inRange] at decoded
      cases decoded

theorem KeyTy.encode_of_decode {k : KeyTy} {key : Key} {x : k.Carrier} (decoded : k.decode key = .ok x) :
    k.encode x = key := by
  cases k with
  | int t =>
      cases key with
      | int n => exact congrArg Key.int (NativeInt.val_of_decode decoded)
      | _ => cases decoded
  | bool | text =>
      cases key <;> cases decoded
      rfl

section Parts

variable {α : Type} {decode : Value → Except Error α} {index : Nat} {item : Value} {rest : List Value}

theorem decodeItems_cons_eq_ok {xs : List α} (decoded : decodeItems decode index (item :: rest) = .ok xs) :
    ∃ x ys, decode item = .ok x ∧ decodeItems decode (index + 1) rest = .ok ys ∧ xs = x :: ys := by
  cases first : decode item with
  | error e =>
      simp only [decodeItems, first] at decoded
      cases decoded
  | ok x =>
      cases others : decodeItems decode (index + 1) rest with
      | error e =>
          simp only [decodeItems, first, others] at decoded
          cases decoded
      | ok ys =>
          simp only [decodeItems, first, others] at decoded
          cases decoded
          exact ⟨x, ys, rfl, rfl, rfl⟩

theorem decodeEntries_cons_eq_ok {k : KeyTy} {key : Key} {v : Value} {others : List (Key × Value)}
    {given : List (k.Carrier × α)} (decoded : decodeEntries k decode ((key, v) :: others) = .ok given) :
    ∃ nativeKey x later, k.decode key = .ok nativeKey ∧ decode v = .ok x ∧
      decodeEntries k decode others = .ok later ∧ given = (nativeKey, x) :: later := by
  cases named : k.decode key with
  | error e =>
      simp only [decodeEntries, named] at decoded
      cases decoded
  | ok nativeKey =>
      cases first : decode v with
      | error e =>
          simp only [decodeEntries, named, first] at decoded
          cases decoded
      | ok x =>
          cases found : decodeEntries k decode others with
          | error e =>
              simp only [decodeEntries, named, first, found] at decoded
              cases decoded
          | ok later =>
              simp only [decodeEntries, named, first, found] at decoded
              cases decoded
              exact ⟨nativeKey, x, later, rfl, rfl, rfl, rfl⟩

variable {R : Value → Value → Prop} {encode : α → Value}
  (each : ∀ v x, v.Distinct → decode v = .ok x → R v (encode x))

include each

theorem decodeItems_restated {items : List Value} {xs : List α} (distinct : ItemsDistinct items)
    (decoded : decodeItems decode index items = .ok xs) : List.Forall₂ R items (xs.map encode) := by
  induction items generalizing index xs with
  | nil =>
      cases decoded
      exact .nil
  | cons item rest ih =>
      obtain ⟨x, ys, first, others, same⟩ := decodeItems_cons_eq_ok decoded
      rw [same, List.map_cons]
      exact .cons (each item x distinct.1 first) (ih distinct.2 others)

theorem decodeEntries_restated {k : KeyTy} {entries : List (Key × Value)} {given : List (k.Carrier × α)}
    (distinct : EntriesDistinct entries) (decoded : decodeEntries k decode entries = .ok given) :
    List.Forall₂ (fun a b => a.1 = b.1 ∧ R a.2 b.2) entries
      (given.map fun entry => (k.encode entry.1, encode entry.2)) := by
  induction entries generalizing given with
  | nil =>
      cases decoded
      exact .nil
  | cons entry rest ih =>
      obtain ⟨nativeKey, x, later, named, first, others, same⟩ := decodeEntries_cons_eq_ok decoded
      rw [same, List.map_cons]
      exact .cons ⟨(KeyTy.encode_of_decode named).symm, each entry.2 x distinct.1 first⟩
        (ih distinct.2 others)

end Parts

namespace Ty

section Accepted

variable {item first second value : Ty} {kind : MapKind} {key : KeyTy} {v : Value}

theorem decode_option_eq_ok {x : Option item.Carrier} (decoded : (option item).decode v = .ok x) :
    v = .none ∧ x = none ∨ ∃ y, item.decode v = .ok y ∧ x = some y := by
  cases there : v.isNone with
  | true =>
      rw [isNone_iff.mp there] at decoded ⊢
      cases decoded
      exact .inl ⟨rfl, rfl⟩
  | false =>
      rw [decode_option there] at decoded
      cases inner : item.decode v with
      | error e =>
          rw [inner] at decoded
          cases decoded
      | ok y =>
          rw [inner] at decoded
          cases decoded
          exact .inr ⟨y, rfl, rfl⟩

theorem decode_pair_eq_ok {x : first.Carrier × second.Carrier}
    (decoded : (pair first second).decode v = .ok x) :
    ∃ a b, v = .seq [a, b] ∧ first.decode a = .ok x.1 ∧ second.decode b = .ok x.2 := by
  cases v with
  | seq items =>
      rcases items with _ | ⟨a, _ | ⟨b, _ | ⟨c, rest⟩⟩⟩
      · cases decoded
      · cases decoded
      · cases left : first.decode a with
        | error e =>
            simp only [decode, left] at decoded
            cases decoded
        | ok y =>
            cases right : second.decode b with
            | error e =>
                simp only [decode, left, right] at decoded
                cases decoded
            | ok z =>
                simp only [decode, left, right] at decoded
                cases decoded
                exact ⟨a, b, rfl, left, right⟩
      · cases decoded
  | _ => cases decoded

theorem decode_map_eq_ok {x : Entries key.Carrier value.Carrier}
    (decoded : (map kind key value).decode v = .ok x) :
    ∃ entries given, v = .map entries ∧ decodeEntries key value.decode entries = .ok given ∧
      x = kind.collect key given := by
  cases v with
  | map entries =>
      cases found : decodeEntries key value.decode entries with
      | error e =>
          simp only [decode, found] at decoded
          cases decoded
      | ok given =>
          simp only [decode, found] at decoded
          cases decoded
          exact ⟨entries, given, rfl, found, rfl⟩
  | _ => cases decoded

end Accepted

/-- Different keys stay different, so that no entry takes the place of another one. -/
theorem restates_collected (kind : MapKind) {key : KeyTy} {value : Ty} {entries : List (Key × Value)}
    {given : List (key.Carrier × value.Carrier)} (distinct : (entries.map Prod.fst).Nodup)
    (restated : List.Forall₂ (fun a b => a.1 = b.1 ∧ value.Restates a.2 b.2) entries
      (given.map fun entry => (key.encode entry.1, value.encode entry.2))) :
    (map kind key value).Restates (.map entries) ((map kind key value).encode (kind.collect key given)) := by
  have keys : (given.map Prod.fst).map key.encode = entries.map Prod.fst := by
    rw [keys_of_agreeing restated, List.map_map, List.map_map]
    rfl
  have differ : (given.map Prod.fst).Nodup := .of_map key.encode (keys ▸ distinct)
  have reorders : kind.Reorders given (kind.collect key given) := MapKind.collect_reorders differ
  have collected : ((kind.collect key given).map Prod.fst).Nodup :=
    (reorders.perm.map Prod.fst).nodup_iff.mpr differ
  rw [encode_map collected]
  exact ⟨_, restated, reorders.map _⟩

/-- Decoding loses nothing.  A native value is written as the dynamic value that it was decoded from, up to
the widths of numbers and the order of entries in mappings that do not keep it: nothing is dropped, no two
things become one, and no number, text or key becomes another one. -/
theorem encode_decode_exact (t : Ty) (exact : t.Exact) (v : Value) (distinct : v.Distinct) (x : t.Carrier)
    (decoded : t.decode v = .ok x) : t.Restates v (t.encode x) := by
  induction t generalizing v with
  | unit | bool | text | bytes | object | array =>
      cases v <;> cases decoded
      rfl
  | any =>
      cases decoded
      rfl
  | int t =>
      cases v with
      | int n tag => exact (NativeInt.val_of_decode decoded).symm
      | _ => cases decoded
  | float t =>
      cases t with
      | f32 => exact exact.elim
      | f64 =>
          cases v <;> cases decoded
          rfl
  | complex part => exact exact.elim
  | option item ih =>
      rcases decode_option_eq_ok decoded with ⟨absent, same⟩ | ⟨y, inner, same⟩
      · rw [absent, same]
        exact restates_none item
      · rw [same]
        exact ih exact v distinct y inner
  | list item ih =>
      cases v with
      | seq items => exact decodeItems_restated (fun v x inside => ih exact v inside x) distinct decoded
      | _ => cases decoded
  | pair first second firstIH secondIH =>
      obtain ⟨a, b, same, left, right⟩ := decode_pair_eq_ok decoded
      subst same
      exact ⟨firstIH exact.1 a distinct.1 x.1 left, secondIH exact.2 b distinct.2.1 x.2 right⟩
  | map kind key value ih =>
      obtain ⟨entries, given, same, found, collected⟩ := decode_map_eq_ok decoded
      subst same
      rw [collected]
      exact restates_collected kind distinct.1
        (decodeEntries_restated (fun v x inside => ih exact v inside x) distinct.2 found)

/-- Entries in another order than that of their keys, and a number wider than its type. -/
def unsorted : Value :=
  .map [(.str "b", .seq [.int 300 (some .i64), .none]), (.str "a", .seq [])]

theorem encode_decode_exact_unsorted :
    (map .byKey .text (list (option (fixed .u16)))).Exact ∧ unsorted.Distinct ∧
      ∃ x, (map .byKey .text (list (option (fixed .u16)))).decode unsorted = .ok x ∧
        (map .byKey .text (list (option (fixed .u16)))).encode x =
          .map [(.str "a", .seq []), (.str "b", .seq [.int 300 (some .u16), .none])] ∧
        (map .byKey .text (list (option (fixed .u16)))).Restates unsorted
          (.map [(.str "a", .seq []), (.str "b", .seq [.int 300 (some .u16), .none])]) := by
  have exact : (map .byKey .text (list (option (fixed .u16)))).Exact := trivial
  have distinct : unsorted.Distinct := ⟨by decide, ⟨trivial, trivial, trivial⟩, trivial, trivial⟩
  have decoded : (map .byKey .text (list (option (fixed .u16)))).decode unsorted =
      .ok [("a", []), ("b", [some (Fixed.wrap .u16 300), none])] := by cbv
  have encoded : (map .byKey .text (list (option (fixed .u16)))).encode
      [("a", []), ("b", [some (Fixed.wrap .u16 300), none])] =
        .map [(.str "a", .seq []), (.str "b", .seq [.int 300 (some .u16), .none])] := by cbv
  have restated := encode_decode_exact _ exact unsorted distinct _ decoded
  rw [encoded] at restated
  exact ⟨exact, distinct, _, decoded, encoded, restated⟩

end Ty

end Marshal
