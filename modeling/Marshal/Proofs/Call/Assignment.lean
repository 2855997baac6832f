import Mathlib
import Marshal.Proofs.Call.Blame

namespace Marshal

namespace Param

/-- The place of the first parameter of a name. -/
def place? (params : List Param) (name : String) : Option Nat :=
  params.findIdx? fun param => param.name == name

theorem place?_eq_some {params : List Param} {name : String} {place : Nat}
    (first : place? params name = some place) : ∃ param, params[place]? = some param ∧ param.name = name := by
  obtain ⟨inside, named, _⟩ := List.findIdx?_eq_some_iff_getElem.mp first
  exact ⟨params[place], List.getElem?_eq_getElem inside, by simpa using named⟩

theorem place?_lt {params : List Param} {name : String} {place : Nat}
    (first : place? params name = some place) : place < params.length :=
  (List.findIdx?_eq_some_iff_getElem.mp first).1

theorem eq_of_place? {params : List Param} {name other : String} {place : Nat}
    (first : place? params name = some place) (second : place? params other = some place) : name = other := by
  obtain ⟨param, there, rfl⟩ := place?_eq_some first
  obtain ⟨param', there', rfl⟩ := place?_eq_some second
  rw [Option.some.inj (there.symm.trans there')]

end Param

variable {function : String} {params : List Param} {positional args : List Value} {keywords other : Keywords}
  {places placed : List (Option Value)}

/-- Every keyword lies in the place of its parameter, which was free, and all other places are as they
were. -/
structure Filled (params : List Param) (keywords : Keywords) (places placed : List (Option Value)) :
    Prop where
  length : placed.length = places.length
  named {keyword : String × Value} (given : keyword ∈ keywords) : ∃ place,
    Param.place? params keyword.1 = some place ∧ places[place]? = some none ∧
      placed[place]? = some (some keyword.2)
  other {place : Nat} (unnamed : ∀ keyword ∈ keywords, Param.place? params keyword.1 ≠ some place) :
    placed[place]? = places[place]?

namespace Filled

theorem perm (filled : Filled params keywords places placed) (same : other.Perm keywords) :
    Filled params other places placed where
  length := filled.length
  named given := filled.named (same.mem_iff.mp given)
  other unnamed := filled.other fun keyword given => unnamed keyword (same.mem_iff.mpr given)

theorem unique {placed' : List (Option Value)} (filled : Filled params keywords places placed)
    (filled' : Filled params keywords places placed') : placed = placed' := by
  refine List.ext_getElem? fun place => ?_
  by_cases unnamed : ∀ keyword ∈ keywords, Param.place? params keyword.1 ≠ some place
  · rw [filled.other unnamed, filled'.other unnamed]
  · simp only [not_forall, not_not] at unnamed
    obtain ⟨keyword, given, here⟩ := unnamed
    obtain ⟨found, first, _, put⟩ := filled.named given
    obtain ⟨found', first', _, put'⟩ := filled'.named given
    obtain rfl : found = place := Option.some.inj (first.symm.trans here)
    obtain rfl : found' = found := Option.some.inj (first'.symm.trans here)
    rw [put, put']

end Filled

theorem placeKeyword_eq_ok {keyword : String × Value} :
    placeKeyword function params places keyword = .ok placed ↔
      ∃ place, Param.place? params keyword.1 = some place ∧ places[place]? = some none ∧
        placed = places.set place (some keyword.2) := by
  obtain ⟨name, value⟩ := keyword
  simp only [placeKeyword, Param.place?]
  cases found : params.findIdx? fun param => param.name == name with
  | none => simp
  | some place =>
      simp only [Option.some.injEq]
      cases there : places[place]? with
      | none => simp [there]
      | some content =>
          cases content with
          | none =>
              simp only [Except.ok.injEq]
              constructor
              · exact fun put => ⟨place, rfl, there, put.symm⟩
              · rintro ⟨_, rfl, _, rfl⟩
                rfl
          | some v => simp [there]

/-- Placing the first keyword and then the others fills the places of all of them: the others do not have its
name, and so not its place. -/
theorem Filled.cons {keyword : String × Value} {place : Nat} (fresh : ∀ later ∈ keywords, later.1 ≠ keyword.1)
    (first : Param.place? params keyword.1 = some place) (free : places[place]? = some none)
    (rest : Filled params keywords (places.set place (some keyword.2)) placed) :
    Filled params (keyword :: keywords) places placed := by
  have elsewhere : ∀ later ∈ keywords, Param.place? params later.1 ≠ some place :=
    fun later given same => fresh later given (Param.eq_of_place? same first)
  have inside : place < places.length := (List.getElem?_eq_some_iff.mp free).1
  constructor
  · rw [rest.length, List.length_set]
  · intro later given
    rcases List.mem_cons.mp given with rfl | given
    · refine ⟨place, first, free, ?_⟩
      rw [rest.other elsewhere, List.getElem?_set_self inside]
    · obtain ⟨found, there, unused, put⟩ := rest.named given
      have apart : place ≠ found := by
        rintro rfl
        exact elsewhere later given there
      exact ⟨found, there, by rwa [List.getElem?_set_ne apart] at unused, put⟩
  · intro found unnamed
    have apart : place ≠ found := by
      rintro rfl
      exact unnamed keyword (by simp) first
    rw [rest.other fun later given => unnamed later (by simp [given]), List.getElem?_set_ne apart]

theorem filled_of_placeKeywords (distinct : (keywords.map Prod.fst).Nodup)
    (put : keywords.foldlM (placeKeyword function params) places = .ok placed) :
    Filled params keywords places placed := by
  induction keywords generalizing places with
  | nil =>
      cases put
      exact ⟨rfl, by simp, fun _ => rfl⟩
  | cons keyword rest ih =>
      rw [List.map_cons, List.nodup_cons] at distinct
      rw [List.foldlM_cons] at put
      cases step : placeKeyword function params places keyword with
      | error e =>
          rw [step] at put
          cases put
      | ok next =>
          rw [step] at put
          obtain ⟨place, first, free, rfl⟩ := placeKeyword_eq_ok.mp step
          have fresh : ∀ later ∈ rest, later.1 ≠ keyword.1 := fun later given same =>
            distinct.1 (same ▸ List.mem_map_of_mem given)
          exact .cons fresh first free (ih distinct.2 put)

variable (function) in
theorem placeKeywords_of_free (distinct : (keywords.map Prod.fst).Nodup)
    (free : ∀ keyword ∈ keywords, ∃ place, Param.place? params keyword.1 = some place ∧
      places[place]? = some none) :
    ∃ placed, keywords.foldlM (placeKeyword function params) places = .ok placed := by
  induction keywords generalizing places with
  | nil => exact ⟨places, rfl⟩
  | cons keyword rest ih =>
      rw [List.map_cons, List.nodup_cons] at distinct
      simp only [List.forall_mem_cons] at free
      obtain ⟨⟨place, first, unused⟩, later⟩ := free
      have step : placeKeyword function params places keyword = .ok (places.set place (some keyword.2)) :=
        placeKeyword_eq_ok.mpr ⟨place, first, unused, rfl⟩
      rw [List.foldlM_cons, step]
      refine ih distinct.2 fun other given => ?_
      obtain ⟨found, there, empty⟩ := later other given
      have apart : place ≠ found := by
        rintro rfl
        exact distinct.1 (Param.eq_of_place? there first ▸ List.mem_map_of_mem given)
      exact ⟨found, there, by rwa [List.getElem?_set_ne apart]⟩

theorem placeKeywords_eq_ok (distinct : (keywords.map Prod.fst).Nodup) :
    keywords.foldlM (placeKeyword function params) places = .ok placed ↔
      Filled params keywords places placed := by
  refine ⟨filled_of_placeKeywords distinct, fun filled => ?_⟩
  obtain ⟨found, put⟩ := placeKeywords_of_free function distinct fun keyword given =>
    (filled.named given).imp fun _ place => ⟨place.1, place.2.1⟩
  rw [put, (filled_of_placeKeywords distinct put).unique filled]

section Starting

variable {place : Nat}

theorem getElem?_startingPlaces_of_lt (given : place < positional.length) :
    (startingPlaces params positional)[place]? = some positional[place]? := by
  rw [startingPlaces, List.getElem?_append_left (by simpa using given), List.getElem?_map,
    List.getElem?_eq_getElem given, Option.map_some]

theorem getElem?_startingPlaces_of_le (uncovered : positional.length ≤ place)
    (inside : place < params.length) :
    (startingPlaces params positional)[place]? = some none := by
  rw [startingPlaces, List.getElem?_append_right (by simpa using uncovered), List.length_map,
    List.getElem?_replicate_of_lt (by omega)]

theorem startingPlaces_free : (startingPlaces params positional)[place]? = some none ↔
    positional.length ≤ place ∧ place < params.length := by
  constructor
  · intro free
    have inside := (List.getElem?_eq_some_iff.mp free).1
    rcases Nat.lt_or_ge place positional.length with given | uncovered
    · rw [getElem?_startingPlaces_of_lt given, List.getElem?_eq_getElem given] at free
      cases free
    · rw [startingPlaces, List.length_append, List.length_map, List.length_replicate] at inside
      exact ⟨uncovered, by omega⟩
  · rintro ⟨uncovered, inside⟩
    exact getElem?_startingPlaces_of_le uncovered inside

end Starting

/-- Arguments are bound when the keywords can be placed beside the positional arguments and each place that
is left has a default. -/
theorem bindArguments_eq_ok (distinct : (keywords.map Prod.fst).Nodup) :
    bindArguments function params positional keywords = .ok args ↔
      positional.length ≤ params.length ∧
      ∃ placed, Filled params keywords (startingPlaces params positional) placed ∧ Complete params placed ∧
        args = placed.zipWith settle params := by
  constructor
  · intro bound
    obtain ⟨few, placed, put, complete, same⟩ := placed_of_bindArguments bound
    exact ⟨few, placed, filled_of_placeKeywords distinct put, complete, same⟩
  · rintro ⟨few, placed, filled, complete, rfl⟩
    exact bindArguments_of_placed few ((placeKeywords_eq_ok distinct).mpr filled) complete

/-- Where the value of a parameter comes from. -/
inductive Source
  | positional (index : Nat)
  | keyword (name : String)
  | default

/-- The parameter at a place takes this value from this source: the positional argument at the place, else
the keyword that leads to the place, else its default. -/
inductive Supplies (params : List Param) (positional : List Value) (keywords : Keywords) (place : Nat) :
    Source → Value → Prop
  | positional {v : Value} (given : positional[place]? = some v) :
      Supplies params positional keywords place (.positional place) v
  | keyword {name : String} {v : Value} (uncovered : positional.length ≤ place) (given : (name, v) ∈ keywords)
      (first : Param.place? params name = some place) :
      Supplies params positional keywords place (.keyword name) v
  | default {param : Param} {v : Value} (uncovered : positional.length ≤ place)
      (unnamed : ∀ keyword ∈ keywords, Param.place? params keyword.1 ≠ some place)
      (declared : params[place]? = some param) (default : param.default? = some v) :
      Supplies params positional keywords place .default v

section Supplies

variable {place : Nat} {source : Source} {v : Value}

theorem Supplies.source_unique {source' : Source} {v' : Value}
    (supplies : Supplies params positional keywords place source v)
    (supplies' : Supplies params positional keywords place source' v') : source = source' := by
  cases supplies with
  | positional given =>
      have covered := (List.getElem?_eq_some_iff.mp given).1
      cases supplies' with
      | positional => rfl
      | keyword uncovered => omega
      | default uncovered => omega
  | keyword uncovered given first =>
      cases supplies' with
      | positional given => exact absurd (List.getElem?_eq_some_iff.mp given).1 (by omega)
      | keyword _ _ second => rw [Param.eq_of_place? first second]
      | default _ unnamed => exact absurd first (unnamed _ given)
  | default uncovered unnamed =>
      cases supplies' with
      | positional given => exact absurd (List.getElem?_eq_some_iff.mp given).1 (by omega)
      | keyword _ given first => exact absurd first (unnamed _ given)
      | default => rfl

theorem Filled.supplies (filled : Filled params keywords (startingPlaces params positional) placed)
    (inside : place < params.length) (complete : Complete params placed) :
    ∃ source v, (placed.zipWith settle params)[place]? = some v ∧
      Supplies params positional keywords place source v := by
  have declared := List.getElem?_eq_getElem inside
  by_cases unnamed : ∀ keyword ∈ keywords, Param.place? params keyword.1 ≠ some place
  · have kept := filled.other unnamed
    rcases Nat.lt_or_ge place positional.length with covered | uncovered
    · have given := List.getElem?_eq_getElem covered
      rw [getElem?_startingPlaces_of_lt covered, given] at kept
      exact ⟨_, positional[place], by simp [List.getElem?_zipWith, kept, declared, settle], .positional given⟩
    · rw [getElem?_startingPlaces_of_le uncovered inside] at kept
      obtain ⟨v, default⟩ := Option.isSome_iff_exists.mp (complete place _ declared kept)
      exact ⟨_, v, by simp [List.getElem?_zipWith, kept, declared, settle, default],
        .default uncovered unnamed declared default⟩
  · simp only [not_forall, not_not] at unnamed
    obtain ⟨⟨name, v⟩, given, here⟩ := unnamed
    obtain ⟨found, first, free, put⟩ := filled.named given
    obtain rfl : found = place := Option.some.inj (first.symm.trans here)
    exact ⟨_, v, by simp [List.getElem?_zipWith, put, declared, settle],
      .keyword (startingPlaces_free.mp free).1 given here⟩

end Supplies

section Bound

variable (distinct : (keywords.map Prod.fst).Nodup)

include distinct

theorem bindArguments_succeeds_iff :
    (∃ args, bindArguments function params positional keywords = .ok args) ↔
      positional.length ≤ params.length ∧
      (∀ keyword ∈ keywords, ∃ place, Param.place? params keyword.1 = some place ∧
        positional.length ≤ place) ∧
      ∀ (place : Nat) (param : Param), params[place]? = some param → positional.length ≤ place →
        (∀ keyword ∈ keywords, Param.place? params keyword.1 ≠ some place) → param.default?.isSome := by
  constructor
  · rintro ⟨args, bound⟩
    obtain ⟨few, placed, filled, complete, _⟩ := (bindArguments_eq_ok distinct).mp bound
    refine ⟨few, fun keyword given => ?_, fun place param declared uncovered unnamed => ?_⟩
    · obtain ⟨place, first, free, _⟩ := filled.named given
      exact ⟨place, first, (startingPlaces_free.mp free).1⟩
    · refine complete place param declared ?_
      rw [filled.other unnamed]
      exact getElem?_startingPlaces_of_le uncovered (List.getElem?_eq_some_iff.mp declared).1
  · rintro ⟨few, led, defaulted⟩
    obtain ⟨placed, put⟩ := placeKeywords_of_free function distinct fun keyword given =>
      (led keyword given).imp fun place ⟨first, uncovered⟩ =>
        ⟨first, getElem?_startingPlaces_of_le uncovered (Param.place?_lt first)⟩
    have filled := filled_of_placeKeywords distinct put
    refine ⟨_, (bindArguments_eq_ok distinct).mpr
      ⟨few, placed, filled, fun place param declared empty => ?_, rfl⟩⟩
    have unnamed : ∀ keyword ∈ keywords, Param.place? params keyword.1 ≠ some place := by
      intro keyword given here
      obtain ⟨found, first, _, used⟩ := filled.named given
      obtain rfl : found = place := Option.some.inj (first.symm.trans here)
      cases empty.symm.trans used
    rw [filled.other unnamed, startingPlaces_free] at empty
    exact defaulted place param declared empty.1 unnamed

theorem bindArguments_perm (same : other.Perm keywords) :
    bindArguments function params positional other = .ok args ↔
      bindArguments function params positional keywords = .ok args := by
  have distinctToo : (other.map Prod.fst).Nodup := (same.map Prod.fst).nodup_iff.mpr distinct
  rw [bindArguments_eq_ok distinct, bindArguments_eq_ok distinctToo]
  refine and_congr_right fun _ => exists_congr fun placed => and_congr_left fun _ => ?_
  exact ⟨fun filled => filled.perm same.symm, fun filled => filled.perm same⟩

variable (bound : bindArguments function params positional keywords = .ok args)

include bound

theorem supplies_of_bound {place : Nat} (inside : place < params.length) :
    ∃ source v, args[place]? = some v ∧ Supplies params positional keywords place source v := by
  obtain ⟨_, placed, filled, complete, rfl⟩ := (bindArguments_eq_ok distinct).mp bound
  exact filled.supplies inside complete

theorem positional_used {index : Nat} (given : index < positional.length) :
    ∃! place, ∃ v, args[place]? = some v ∧
      Supplies params positional keywords place (.positional index) v := by
  have few := ((bindArguments_eq_ok distinct).mp bound).1
  obtain ⟨source, v, here, supplies⟩ := supplies_of_bound distinct bound (Nat.lt_of_lt_of_le given few)
  have meant : Supplies params positional keywords index (.positional index) positional[index] :=
    .positional (List.getElem?_eq_getElem given)
  obtain rfl := supplies.source_unique meant
  refine ⟨index, ⟨v, here, supplies⟩, fun place ⟨_, _, supplies'⟩ => ?_⟩
  cases supplies'
  rfl

theorem keyword_used {keyword : String × Value} (given : keyword ∈ keywords) :
    ∃! place, args[place]? = some keyword.2 ∧
      Supplies params positional keywords place (.keyword keyword.1) keyword.2 := by
  obtain ⟨_, placed, filled, _, rfl⟩ := (bindArguments_eq_ok distinct).mp bound
  obtain ⟨place, first, free, put⟩ := filled.named given
  obtain ⟨uncovered, inside⟩ := startingPlaces_free.mp free
  have declared := List.getElem?_eq_getElem inside
  refine ⟨place, ⟨?_, .keyword uncovered given first⟩, fun other ⟨_, supplies⟩ => ?_⟩
  · simp [List.getElem?_zipWith, put, declared, settle]
  · cases supplies with
    | keyword _ _ second => exact Option.some.inj (second.symm.trans first)

end Bound

/-- Binding arguments is a matching.  It succeeds just when there are no more positional arguments than
parameters, each keyword leads to a parameter that no positional argument covers, and each parameter that
neither covers has a default.  Then every parameter has a value from exactly one source, and every positional
argument and every keyword is the source for exactly one parameter.  Otherwise the error is about the number
of arguments.  The order of the keywords makes no difference. -/
theorem bindArguments_exact (function : String) (params : List Param) (positional : List Value)
    (keywords : Keywords) (distinct : (keywords.map Prod.fst).Nodup) :
    ((∃ args, bindArguments function params positional keywords = .ok args) ↔
      positional.length ≤ params.length ∧
      (∀ keyword ∈ keywords, ∃ place, Param.place? params keyword.1 = some place ∧
        positional.length ≤ place) ∧
      ∀ (place : Nat) (param : Param), params[place]? = some param → positional.length ≤ place →
        (∀ keyword ∈ keywords, Param.place? params keyword.1 ≠ some place) → param.default?.isSome) ∧
    (∀ args, bindArguments function params positional keywords = .ok args →
      args.length = params.length ∧
      (∀ place < params.length, ∃! source, ∃ v, args[place]? = some v ∧
        Supplies params positional keywords place source v) ∧
      (∀ index < positional.length, ∃! place, ∃ v, args[place]? = some v ∧
        Supplies params positional keywords place (.positional index) v) ∧
      ∀ keyword ∈ keywords, ∃! place, args[place]? = some keyword.2 ∧
        Supplies params positional keywords place (.keyword keyword.1) keyword.2) ∧
    (∀ e, bindArguments function params positional keywords = .error e →
      ∃ detail, e = .arity function detail) ∧
    ∀ other, other.Perm keywords → ∀ args,
      bindArguments function params positional other = .ok args ↔
        bindArguments function params positional keywords = .ok args := by
  refine ⟨bindArguments_succeeds_iff distinct, fun args bound => ⟨bindArguments_length bound, ?_, ?_, ?_⟩,
    fun e refused => arity_of_bindArguments refused, fun other same args => bindArguments_perm distinct same⟩
  · intro place inside
    obtain ⟨source, v, here, supplies⟩ := supplies_of_bound distinct bound inside
    exact ⟨source, ⟨v, here, supplies⟩, fun _ ⟨_, _, supplies'⟩ => supplies'.source_unique supplies⟩
  · exact fun index given => positional_used distinct bound given
  · exact fun keyword given => keyword_used distinct bound given

/-- A box: two sides and a third that is seven unless it is given. -/
def boxParams : List Param :=
  [{ name := "width", type := .int (some .i64) }, { name := "height", type := .int (some .i64) },
    { name := "depth", type := .int (some .i64), default? := some (.ofInt 7) }]

theorem bindArguments_exact_box :
    ([("depth", Value.ofInt 3), ("height", Value.ofInt 2)].map Prod.fst).Nodup ∧
      bindArguments "box" boxParams [.ofInt 1] [("height", .ofInt 2), ("depth", .ofInt 3)] =
        .ok [.ofInt 1, .ofInt 2, .ofInt 3] ∧
      (∃! place, ([.ofInt 1, .ofInt 2, .ofInt 3] : List Value)[place]? = some (.ofInt 3) ∧
        Supplies boxParams [.ofInt 1] [("depth", .ofInt 3), ("height", .ofInt 2)] place (.keyword "depth")
          (.ofInt 3)) ∧
      ∃ detail, bindArguments "box" boxParams [] [("depth", .ofInt 3), ("height", .ofInt 2)] =
        .error (.arity "box" detail) := by
  have distinct : ([("depth", Value.ofInt 3), ("height", Value.ofInt 2)].map Prod.fst).Nodup := by decide
  have bound : bindArguments "box" boxParams [.ofInt 1] [("depth", .ofInt 3), ("height", .ofInt 2)] =
      .ok [.ofInt 1, .ofInt 2, .ofInt 3] := rfl
  obtain ⟨_, matched, _, permuted⟩ := bindArguments_exact "box" boxParams [.ofInt 1] _ distinct
  obtain ⟨_, _, arity, _⟩ := bindArguments_exact "box" boxParams [] _ distinct
  obtain ⟨detail, same⟩ := arity _ rfl
  have led := (matched _ bound).2.2.2 ("depth", .ofInt 3) (by simp)
  exact ⟨distinct, (permuted _ (.swap _ _ _) _).mpr bound, led, detail, congrArg Except.error same⟩

end Marshal
