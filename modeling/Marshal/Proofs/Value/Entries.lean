import Mathlib
import Marshal.Ty.Convert

namespace Marshal

section Lookup

variable {κ α : Type} [DecidableEq κ] {entries : Entries κ α} {key : κ} {value : α}

theorem Entries.get?_cons (entry : κ × α) (rest : Entries κ α) (key : κ) :
    get? (entry :: rest) key = if entry.1 = key then some entry.2 else get? rest key := by
  by_cases here : entry.1 = key <;> simp [get?, here]

theorem Entries.get?_append (entries others : Entries κ α) (key : κ) :
    get? (entries ++ others) key = (get? entries key).or (get? others key) := by
  induction entries with
  | nil => rfl
  | cons entry rest ih =>
      simp only [List.cons_append, get?_cons, ih]
      split <;> rfl

theorem Entries.get?_eq_none : get? entries key = none ↔ key ∉ entries.map Prod.fst := by
  simp only [get?, Option.map_eq_none_iff, List.find?_eq_none, decide_eq_true_eq, List.mem_map, not_exists,
    not_and]

theorem Entries.mem_of_get? (found : get? entries key = some value) : (key, value) ∈ entries := by
  obtain ⟨entry, there, rfl⟩ := Option.map_eq_some_iff.mp found
  have same := List.find?_some there
  simp only [decide_eq_true_eq] at same
  exact same ▸ List.mem_of_find?_eq_some there

theorem Entries.get?_insert (entries : Entries κ α) (key other : κ) (value : α) :
    get? (insert entries key value) other = if key = other then some value else get? entries other := by
  induction entries with
  | nil => rw [insert, get?_cons]
  | cons entry rest ih =>
      rw [insert]
      by_cases here : entry.1 = key
      · rw [if_pos here, get?_cons, get?_cons, here]
        split <;> rfl
      · rw [if_neg here, get?_cons, get?_cons, ih]
        grind

/-- Of entries with the same key the last one is found. -/
theorem Entries.get?_ofList (given : List (κ × α)) (key : κ) :
    get? (ofList given) key = get? given.reverse key := by
  suffices collected : ∀ entries : Entries κ α,
      get? (given.foldl (fun entries entry => insert entries entry.1 entry.2) entries) key =
        (get? given.reverse key).or (get? entries key) from (collected []).trans Option.or_none
  induction given with
  | nil => exact fun entries => rfl
  | cons entry rest ih =>
      intro entries
      rw [List.foldl_cons, ih, List.reverse_cons, get?_append, Option.or_assoc, get?_insert, get?_cons]
      split <;> rfl

theorem Entries.get?_of_mem (distinct : (entries.map Prod.fst).Nodup) (member : (key, value) ∈ entries) :
    get? entries key = some value := by
  induction entries with
  | nil => cases member
  | cons entry rest ih =>
      rw [List.map_cons, List.nodup_cons] at distinct
      rw [get?_cons]
      rcases List.mem_cons.mp member with rfl | later
      · rw [if_pos rfl]
      · have other : entry.1 ≠ key := fun same => distinct.1 (same ▸ List.mem_map_of_mem later)
        rw [if_neg other, ih distinct.2 later]

end Lookup

section Insertion

variable {κ α : Type} [DecidableEq κ] {entries given : Entries κ α} {key : κ}

theorem Entries.insert_of_new (new : ∀ entry ∈ entries, entry.1 ≠ key) (value : α) :
    Entries.insert entries key value = entries ++ [(key, value)] := by
  induction entries with
  | nil => rfl
  | cons entry rest ih =>
      simp only [List.forall_mem_cons] at new
      simp only [Entries.insert, new.1, ↓reduceIte, ih new.2, List.cons_append]

/-- An entry takes the place of the one with its key, or comes last. -/
theorem Entries.keys_insert (entries : Entries κ α) (key : κ) (value : α) :
    (Entries.insert entries key value).map Prod.fst =
      if key ∈ entries.map Prod.fst then entries.map Prod.fst else entries.map Prod.fst ++ [key] := by
  induction entries with
  | nil => rfl
  | cons entry rest ih =>
      rw [Entries.insert]
      by_cases here : entry.1 = key
      · simp [here]
      · have other : ¬ key = entry.1 := fun same => here same.symm
        rw [if_neg here, List.map_cons, ih, List.map_cons]
        simp only [List.mem_cons, other, false_or]
        split <;> rfl

theorem Entries.ofList_of_distinct (distinct : (given.map Prod.fst).Nodup) :
    Entries.ofList given = given := by
  suffices collected : ∀ entries : Entries κ α,
      (entries.map Prod.fst ++ given.map Prod.fst).Nodup →
      given.foldl (fun entries entry => Entries.insert entries entry.1 entry.2) entries =
        entries ++ given from collected [] distinct
  clear distinct
  induction given with
  | nil => simp
  | cons entry rest ih =>
      intro entries distinct
      have new : ∀ earlier ∈ entries, earlier.1 ≠ entry.1 := fun earlier member =>
        (List.pairwise_append.mp distinct).2.2 _ (List.mem_map_of_mem member) _ (by simp)
      rw [List.foldl_cons, Entries.insert_of_new new, ih _ (by simpa using distinct), List.append_assoc]
      rfl

end Insertion

section Collected

variable {ι κ α : Type}

/-- How names lead to the items of a list that were entered under them one after the other: an item is found
as long as no later one takes its name. -/
structure LastFound (name : ι → κ) (value : ι → α) (items : List ι) (found : κ → Option α) : Prop where
  last {before later : List ι} {item : ι} (here : items = before ++ item :: later)
    (free : ∀ other ∈ later, name other ≠ name item) : found (name item) = some (value item)
  hidden {before later : List ι} {item : ι} (here : items = before ++ item :: later)
    (taken : ∃ other ∈ later, name other = name item) :
    ∃ other ∈ later, name other = name item ∧ found (name item) = some (value other)
  missing {key : κ} (none : ∀ item ∈ items, name item ≠ key) : found key = Option.none

variable {name : ι → κ} {value : ι → α} {items : List ι}

theorem Entries.lastFound [DecidableEq κ] (name : ι → κ) (value : ι → α) (items : List ι) :
    LastFound name value items (get? (ofList (items.map fun item => (name item, value item)))) := by
  have lookup : ∀ before item later key,
      get? (ofList ((before ++ item :: later).map fun item => (name item, value item))) key =
        (get? (later.map fun item => (name item, value item)).reverse key).or
          (if name item = key then some (value item)
            else get? (before.map fun item => (name item, value item)).reverse key) := by
    intro before item later key
    rw [get?_ofList, List.map_append, List.map_cons, List.reverse_append, List.reverse_cons,
      List.append_assoc, get?_append, List.singleton_append, get?_cons]
  constructor
  · rintro before later item rfl free
    have skipped : get? (later.map fun item => (name item, value item)).reverse (name item) = none := by
      rw [get?_eq_none]
      simpa using free
    rw [lookup, skipped, if_pos rfl, Option.none_or]
  · rintro before later item rfl ⟨other, member, same⟩
    cases taken : get? (later.map fun item => (name item, value item)).reverse (name item) with
    | none =>
        rw [get?_eq_none] at taken
        simp only [List.map_reverse, List.map_map, List.mem_reverse, List.mem_map, not_exists,
          not_and] at taken
        exact absurd same (taken other member)
    | some found =>
        obtain ⟨last, there, given⟩ := List.mem_map.mp (List.mem_reverse.mp (mem_of_get? taken))
        obtain ⟨shared, rfl⟩ := Prod.mk.inj given
        exact ⟨last, there, shared, by rw [lookup, taken, Option.some_or]⟩
  · intro key none
    rw [get?_ofList, get?_eq_none]
    simpa using none

/-- Where no two items have one name, all of them are found. -/
theorem LastFound.of_distinct {found : κ → Option α} (finds : LastFound name value items found)
    (distinct : (items.map name).Nodup) {item : ι} (member : item ∈ items) :
    found (name item) = some (value item) := by
  obtain ⟨before, later, rfl⟩ := List.append_of_mem member
  refine finds.last rfl fun other there same => ?_
  rw [List.map_append, List.map_cons] at distinct
  have apart := (List.nodup_cons.mp (List.nodup_append.mp distinct).2.1).1
  exact apart (same ▸ List.mem_map_of_mem there)

end Collected

section Renaming

variable {κ α β : Type} [DecidableEq κ] {rename : κ → κ} {known : Set κ} {R : κ → α → β → Prop}
  {entries : Entries κ α} {twins : Entries κ β} {key : κ} {value : α} {twin : β}

/-- The same entries under other keys, with related values.  All keys are known. -/
def Entries.Renamed (rename : κ → κ) (known : Set κ) (R : κ → α → β → Prop) :
    Entries κ α → Entries κ β → Prop :=
  List.Forall₂ fun entry twin => entry.1 ∈ known ∧ twin.1 = rename entry.1 ∧ R entry.1 entry.2 twin.2

namespace Entries.Renamed

theorem get? (renamed : Renamed rename known R entries twins) (injective : Set.InjOn rename known)
    (member : key ∈ known) :
    Option.Rel (R key) (Entries.get? entries key) (Entries.get? twins (rename key)) := by
  induction renamed with
  | nil => exact .none
  | @cons entry twin rest others alike _ ih =>
      obtain ⟨there, named, related⟩ := alike
      have meets : twin.1 = rename key ↔ entry.1 = key := by rw [named, injective.eq_iff there member]
      rw [get?_cons, get?_cons]
      by_cases here : entry.1 = key
      · rw [if_pos here, if_pos (meets.mpr here)]
        exact .some (here ▸ related)
      · rw [if_neg here, if_neg (mt meets.mp here)]
        exact ih

theorem insert (renamed : Renamed rename known R entries twins) (injective : Set.InjOn rename known)
    (member : key ∈ known) (alike : R key value twin) :
    Renamed rename known R (Entries.insert entries key value) (Entries.insert twins (rename key) twin) := by
  induction renamed with
  | nil => exact .cons ⟨member, rfl, alike⟩ .nil
  | @cons entry other rest others same renamed ih =>
      have ⟨there, named, _⟩ := same
      have meets : other.1 = rename key ↔ entry.1 = key := by rw [named, injective.eq_iff there member]
      rw [Entries.insert, Entries.insert]
      by_cases here : entry.1 = key
      · rw [if_pos here, if_pos (meets.mpr here)]
        exact .cons ⟨member, rfl, alike⟩ renamed
      · rw [if_neg here, if_neg (mt meets.mp here)]
        exact .cons same ih

/-- Entries that are collected one after the other meet under other keys where they met before. -/
theorem ofList (renamed : Renamed rename known R entries twins) (injective : Set.InjOn rename known) :
    Renamed rename known R (Entries.ofList entries) (Entries.ofList twins) := by
  suffices collected : ∀ (before : Entries κ α) (others : Entries κ β), Renamed rename known R before others →
      Renamed rename known R
        (entries.foldl (fun entries entry => Entries.insert entries entry.1 entry.2) before)
        (twins.foldl (fun entries entry => Entries.insert entries entry.1 entry.2) others) from
    collected [] [] .nil
  induction renamed with
  | nil => exact fun before others same => same
  | cons alike _ ih =>
      intro before others same
      obtain ⟨there, named, related⟩ := alike
      rw [List.foldl_cons, List.foldl_cons, named]
      exact ih _ _ (same.insert injective there related)

omit [DecidableEq κ] in
theorem flatMap {γ : Type} {f : α → List γ} {g : β → List γ} (renamed : Renamed rename known R entries twins)
    (same : ∀ key value twin, R key value twin → g twin = f value) :
    (twins.flatMap fun entry => g entry.2) = entries.flatMap fun entry => f entry.2 := by
  induction renamed with
  | nil => rfl
  | cons alike _ ih => rw [List.flatMap_cons, List.flatMap_cons, ih, same _ _ _ alike.2.2]

end Entries.Renamed

end Renaming

namespace KeyTy

variable {α : Type} {k : KeyTy}

theorem not_precedes {a b : k.Carrier} (before : k.precedes a b = true) : k.precedes b a = false := by
  cases k with
  | bool => cases a <;> cases b <;> simp_all [precedes]
  | int t =>
      simp only [precedes, decide_eq_true_eq, decide_eq_false_iff_not] at before ⊢
      omega
  | text =>
      simp only [precedes, decide_eq_true_eq, decide_eq_false_iff_not] at before ⊢
      exact String.lt_asymm before

theorem ne_of_precedes {a b : k.Carrier} (before : k.precedes a b = true) : a ≠ b := by
  rintro rfl
  have after := not_precedes before
  rw [before] at after
  cases after

theorem insertSorted_of_last {entries : Entries k.Carrier α} {key : k.Carrier}
    (last : ∀ entry ∈ entries, k.precedes entry.1 key = true) (value : α) :
    k.insertSorted key value entries = entries ++ [(key, value)] := by
  induction entries with
  | nil => rfl
  | cons entry rest ih =>
      simp only [List.forall_mem_cons] at last
      simp only [insertSorted, not_precedes last.1, last.1, Bool.false_eq_true, ↓reduceIte, ih last.2,
        List.cons_append]

theorem foldl_insertSorted {entries given : Entries k.Carrier α}
    (sorted : (entries.map Prod.fst ++ given.map Prod.fst).Pairwise fun a b => k.precedes a b = true) :
    given.foldl (fun entries entry => k.insertSorted entry.1 entry.2 entries) entries =
      entries ++ given := by
  induction given generalizing entries with
  | nil => simp
  | cons entry rest ih =>
      have last : ∀ earlier ∈ entries, k.precedes earlier.1 entry.1 = true := fun earlier member =>
        (List.pairwise_append.mp sorted).2.2 _ (List.mem_map_of_mem member) _ (by simp)
      rw [List.foldl_cons, insertSorted_of_last last, ih (by simpa using sorted), List.append_assoc]
      rfl

theorem eq_of_not_precedes {a b : k.Carrier} (notBefore : k.precedes a b = false)
    (notAfter : k.precedes b a = false) : a = b := by
  cases k with
  | bool => cases a <;> cases b <;> simp_all [precedes]
  | int t =>
      simp only [precedes, decide_eq_false_iff_not] at notBefore notAfter
      have same : a.val = b.val := by omega
      cases a
      cases b
      simpa using same
  | text =>
      simp only [precedes, decide_eq_false_iff_not] at notBefore notAfter
      exact String.le_antisymm notAfter notBefore

/-- Where its key is new, an entry is put among the others and none is lost. -/
theorem insertSorted_perm {entries : Entries k.Carrier α} {key : k.Carrier}
    (new : ∀ entry ∈ entries, entry.1 ≠ key) (value : α) :
    (k.insertSorted key value entries).Perm ((key, value) :: entries) := by
  induction entries with
  | nil => exact .refl _
  | cons entry rest ih =>
      simp only [List.forall_mem_cons] at new
      rw [insertSorted]
      cases before : k.precedes key entry.1 with
      | true => exact .refl _
      | false =>
          cases after : k.precedes entry.1 key with
          | true => exact ((ih new.2).cons entry).trans (.swap _ _ rest)
          | false => exact absurd (eq_of_not_precedes after before) new.1

theorem foldl_insertSorted_perm {entries given : Entries k.Carrier α}
    (distinct : (entries.map Prod.fst ++ given.map Prod.fst).Nodup) :
    (given.foldl (fun entries entry => k.insertSorted entry.1 entry.2 entries) entries).Perm
      (entries ++ given) := by
  induction given generalizing entries with
  | nil => simp
  | cons entry rest ih =>
      have new : ∀ earlier ∈ entries, earlier.1 ≠ entry.1 := fun earlier member =>
        (List.pairwise_append.mp distinct).2.2 _ (List.mem_map_of_mem member) _ (by simp)
      have put := insertSorted_perm new entry.2
      have keys := (put.map Prod.fst).append_right (rest.map Prod.fst)
      rw [List.map_cons] at distinct keys
      have later := keys.nodup_iff.mpr (List.perm_middle.nodup_iff.mp distinct)
      exact (ih later).trans ((put.append_right rest).trans List.perm_middle.symm)

end KeyTy

namespace MapKind

/-- What the keys of a native mapping are like: none comes twice, and those of a sorted mapping are in
their order. -/
def Ordered (kind : MapKind) (k : KeyTy) (keys : List k.Carrier) : Prop :=
  match kind with
  | .unordered | .byInsertion => keys.Nodup
  | .byKey => keys.Pairwise fun a b => k.precedes a b = true

variable {α : Type} {kind : MapKind} {k : KeyTy} {keys : List k.Carrier} {entries : Entries k.Carrier α}

theorem Ordered.nodup (ordered : kind.Ordered k keys) : keys.Nodup := by
  cases kind with
  | unordered | byInsertion => exact ordered
  | byKey => exact List.Pairwise.imp KeyTy.ne_of_precedes ordered

theorem collect_of_ordered (ordered : kind.Ordered k (entries.map Prod.fst)) :
    kind.collect k entries = entries := by
  cases kind with
  | unordered | byInsertion => exact Entries.ofList_of_distinct ordered
  | byKey => exact KeyTy.foldl_insertSorted (List.nil_append (entries.map Prod.fst) ▸ ordered)

/-- How a native mapping may show entries that it was given: as they were, where it keeps their order. -/
def Reorders {κ : Type} (kind : MapKind) (given shown : List (κ × α)) : Prop :=
  match kind with
  | .byInsertion => shown = given
  | .unordered | .byKey => shown.Perm given

theorem Reorders.perm {κ : Type} {given shown : List (κ × α)} (reorders : kind.Reorders given shown) :
    shown.Perm given := by
  cases kind with
  | byInsertion => exact .of_eq reorders
  | unordered | byKey => exact reorders

theorem Reorders.map {κ κ' β : Type} {given shown : List (κ × α)} (reorders : kind.Reorders given shown)
    (f : κ × α → κ' × β) : kind.Reorders (given.map f) (shown.map f) := by
  cases kind with
  | byInsertion => exact congrArg (List.map f) reorders
  | unordered | byKey => exact List.Perm.map f reorders

theorem collect_reorders (distinct : (entries.map Prod.fst).Nodup) :
    kind.Reorders entries (kind.collect k entries) := by
  cases kind with
  | byInsertion => exact Entries.ofList_of_distinct distinct
  | unordered => exact .of_eq (Entries.ofList_of_distinct distinct)
  | byKey => exact KeyTy.foldl_insertSorted_perm distinct

end MapKind

namespace Value

mutual

/-- No mapping inside the value has a key twice. -/
def Distinct : Value → Prop
  | .seq items => ItemsDistinct items
  | .map entries => (entries.map Prod.fst).Nodup ∧ EntriesDistinct entries
  | _ => True

def ItemsDistinct : List Value → Prop
  | [] => True
  | item :: rest => item.Distinct ∧ ItemsDistinct rest

def EntriesDistinct : List (Key × Value) → Prop
  | [] => True
  | (_, value) :: rest => value.Distinct ∧ EntriesDistinct rest

end

theorem itemsDistinct_iff {items : List Value} : ItemsDistinct items ↔ ∀ item ∈ items, item.Distinct := by
  induction items with
  | nil => simp [ItemsDistinct]
  | cons item rest ih => rw [ItemsDistinct, ih, List.forall_mem_cons]

theorem entriesDistinct_iff {entries : List (Key × Value)} :
    EntriesDistinct entries ↔ ∀ entry ∈ entries, entry.2.Distinct := by
  induction entries with
  | nil => simp [EntriesDistinct]
  | cons entry rest ih => rw [EntriesDistinct, ih, List.forall_mem_cons]

end Value

end Marshal
