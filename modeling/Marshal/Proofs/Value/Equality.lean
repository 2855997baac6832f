import Mathlib
import Marshal.Proofs.Value.Entries

namespace Marshal

namespace Binary

variable {f : Format} {x y z : Binary f}

theorem equals_iff : x.equals y = true ↔
    x.isNaN = false ∧ y.isNaN = false ∧ (x = y ∨ x.isZero = true ∧ y.isZero = true) := by
  have same : x.bits = y.bits ↔ x = y := ⟨fun bits => by cases x; cases y; exact congrArg _ bits, congrArg _⟩
  simp only [equals, Bool.and_eq_true, Bool.or_eq_true, Bool.not_eq_true', beq_iff_eq, same, and_assoc]

theorem equals_symm (same : x.equals y = true) : y.equals x = true := by
  obtain ⟨left, right, rfl | ⟨zero, other⟩⟩ := equals_iff.mp same
  · exact same
  · exact equals_iff.mpr ⟨right, left, .inr ⟨other, zero⟩⟩

theorem equals_trans (first : x.equals y = true) (rest : y.equals z = true) : x.equals z = true := by
  obtain ⟨left, _, rfl | ⟨zero, _⟩⟩ := equals_iff.mp first
  · exact rest
  · obtain ⟨_, right, rfl | ⟨_, other⟩⟩ := equals_iff.mp rest
    · exact first
    · exact equals_iff.mpr ⟨left, right, .inr ⟨zero, other⟩⟩

theorem equals_self : x.equals x = true ↔ x.isNaN = false := by
  rw [equals_iff]
  exact ⟨fun same => same.1, fun number => ⟨number, number, .inl rfl⟩⟩

end Binary

section Pairs

variable {α β γ : Type} {R : α → β → Prop} {S : β → γ → Prop} {T : α → γ → Prop}
  {as : List α} {bs : List β} {cs : List γ}

theorem forall₂_of_mem {P : α → β → Prop} (related : List.Forall₂ R as bs)
    (implies : ∀ a ∈ as, ∀ b ∈ bs, R a b → P a b) : List.Forall₂ P as bs := by
  induction related with
  | nil => exact .nil
  | cons here _ ih =>
      simp only [List.forall_mem_cons] at implies
      exact .cons (implies.1.1 here) (ih fun a member b there => (implies.2 a member).2 b there)

theorem exists_of_forall₂ {b : β} (related : List.Forall₂ R as bs) (member : b ∈ bs) : ∃ a ∈ as, R a b := by
  induction related with
  | nil => cases member
  | cons here _ ih =>
      obtain rfl | later := List.mem_cons.mp member
      · exact ⟨_, .head _, here⟩
      · obtain ⟨a, there, related⟩ := ih later
        exact ⟨a, .tail _ there, related⟩

theorem forall₂_comp (first : List.Forall₂ R as bs) (rest : List.Forall₂ S bs cs)
    (comp : ∀ a ∈ as, ∀ b ∈ bs, ∀ c ∈ cs, R a b → S b c → T a c) : List.Forall₂ T as cs := by
  induction first generalizing cs with
  | nil =>
      cases rest
      exact .nil
  | cons here _ ih =>
      cases rest with
      | cons there others =>
          refine .cons (comp _ (by simp) _ (by simp) _ (by simp) here there) (ih others ?_)
          exact fun a inA b inB c inC => comp a (by simp [inA]) b (by simp [inB]) c (by simp [inC])

end Pairs

namespace Entries

variable {κ α β γ : Type} {R : α → β → Prop} {S : β → γ → Prop} {T : α → γ → Prop} {entries : Entries κ α}
  {others : Entries κ β} {further : Entries κ γ}

/-- Entries that agree one by one, under the same keys. -/
abbrev Agree (R : α → β → Prop) : Entries κ α → Entries κ β → Prop :=
  List.Forall₂ fun entry other => entry.1 = other.1 ∧ R entry.2 other.2

theorem agree_iff : Agree R entries others ↔
    entries.map Prod.fst = others.map Prod.fst ∧
    List.Forall₂ R (entries.map Prod.snd) (others.map Prod.snd) := by
  induction entries generalizing others with
  | nil => cases others <;> simp
  | cons entry rest ih =>
      cases others with
      | nil => simp
      | cons other further =>
          simp only [List.forall₂_cons, ih, List.map_cons, List.cons.injEq]
          exact and_and_and_comm

theorem Agree.keys (agree : Agree R entries others) : entries.map Prod.fst = others.map Prod.fst :=
  (agree_iff.mp agree).1

/-- The entries agree one by one with the others, once these are put into some order. -/
def Matches (R : α → β → Prop) (entries : Entries κ α) (others : Entries κ β) : Prop :=
  ∃ same : Entries κ β, Agree R entries same ∧ same.Perm others

namespace Matches

theorem keys (agree : Matches R entries others) : (entries.map Prod.fst).Perm (others.map Prod.fst) := by
  obtain ⟨same, agree, order⟩ := agree
  rw [agree.keys]
  exact order.map Prod.fst

theorem comp (first : Matches R entries others) (rest : Matches S others further)
    (comp : ∀ entry ∈ entries, ∀ other ∈ others, ∀ last ∈ further,
      R entry.2 other.2 → S other.2 last.2 → T entry.2 last.2) : Matches T entries further := by
  obtain ⟨same, agree, order⟩ := first
  obtain ⟨next, agreeNext, orderNext⟩ := rest
  obtain ⟨last, agreeLast, orderLast⟩ := List.perm_comp_forall₂ order agreeNext
  refine ⟨last, forall₂_comp agree agreeLast ?_, orderLast.trans orderNext⟩
  rintro entry inEntries other inSame last inLast ⟨key, here⟩ ⟨keyNext, there⟩
  refine ⟨key.trans keyNext, ?_⟩
  exact comp _ inEntries _ (order.mem_iff.mp inSame) _
    ((orderLast.trans orderNext).mem_iff.mp inLast) here there

theorem swap {P : β → α → Prop} (agree : Matches R entries others)
    (swap : ∀ entry ∈ entries, ∀ other ∈ others, R entry.2 other.2 → P other.2 entry.2) :
    Matches P others entries := by
  obtain ⟨same, agree, order⟩ := agree
  have flipped : List.Forall₂ (fun other entry => other.1 = entry.1 ∧ P other.2 entry.2) same entries := by
    refine (forall₂_of_mem agree ?_).flip
    rintro entry inEntries other inSame ⟨key, here⟩
    exact ⟨key.symm, swap _ inEntries _ (order.mem_iff.mp inSame) here⟩
  exact List.perm_comp_forall₂ order.symm flipped

end Matches

variable [DecidableEq κ]

theorem exists_agree
    (found : ∀ entry ∈ entries, ∃ other, get? others entry.1 = some other ∧ R entry.2 other) :
    ∃ same, Agree R entries same ∧ same ⊆ others := by
  induction entries with
  | nil => exact ⟨[], .nil, List.nil_subset _⟩
  | cons entry rest ih =>
      simp only [List.forall_mem_cons] at found
      obtain ⟨other, there, related⟩ := found.1
      obtain ⟨same, agree, within⟩ := ih found.2
      exact ⟨(entry.1, other) :: same, .cons ⟨rfl, related⟩ agree,
        List.cons_subset.mpr ⟨mem_of_get? there, within⟩⟩

/-- Where no key comes twice, entries match as many others if each of them is found among these. -/
theorem matches_iff (distinct : (entries.map Prod.fst).Nodup) (distinctOthers : (others.map Prod.fst).Nodup) :
    Matches R entries others ↔
      entries.length = others.length ∧
        ∀ entry ∈ entries, ∃ other, get? others entry.1 = some other ∧ R entry.2 other := by
  constructor
  · rintro ⟨same, agree, order⟩
    refine ⟨agree.length_eq.trans order.length_eq, fun entry member => ?_⟩
    obtain ⟨place, bound, rfl⟩ := List.mem_iff_getElem.mp member
    have boundSame : place < same.length := agree.length_eq ▸ bound
    obtain ⟨key, related⟩ : entries[place].1 = same[place].1 ∧ R entries[place].2 same[place].2 :=
      agree.get bound boundSame
    have there : same[place] ∈ others := order.mem_iff.mp (List.getElem_mem boundSame)
    exact ⟨same[place].2, key ▸ get?_of_mem distinctOthers there, related⟩
  · rintro ⟨lengths, found⟩
    obtain ⟨same, agree, within⟩ := exists_agree found
    have nodup : same.Nodup := .of_map Prod.fst (agree.keys ▸ distinct)
    have enough : others.length ≤ same.length := by rw [← lengths, agree.length_eq]
    exact ⟨same, agree, (List.subperm_of_subset nodup within).perm_of_length_le enough⟩

end Entries

namespace Value

variable {a b c v : Value}

/-- One value is an item or an entry of another. -/
inductive Part : Value → Value → Prop
  | item {items : List Value} {v : Value} (member : v ∈ items) : Part v (.seq items)
  | entry {entries : List (Key × Value)} {entry : Key × Value} (member : entry ∈ entries) :
      Part entry.2 (.map entries)

theorem part_wellFounded : WellFounded Part := by
  refine Subrelation.wf (r := (measure fun v : Value => sizeOf v).rel) ?_ (measure _).wf
  intro part whole isPart
  change sizeOf part < sizeOf whole
  cases isPart with
  | item member =>
      have smaller := List.sizeOf_lt_of_mem member
      rw [Value.seq.sizeOf_spec]
      omega
  | @entry entries entry member =>
      have smaller := List.sizeOf_lt_of_mem member
      obtain ⟨key, v⟩ := entry
      rw [Prod.mk.sizeOf_spec] at smaller
      rw [Value.map.sizeOf_spec]
      dsimp only
      omega

/-- One value is another or somewhere inside it. -/
abbrev Inside : Value → Value → Prop := Relation.ReflTransGen Part

theorem Distinct.part (distinct : b.Distinct) (isPart : Part a b) : a.Distinct := by
  cases isPart with
  | item member => exact itemsDistinct_iff.mp distinct _ member
  | entry member => exact entriesDistinct_iff.mp distinct.2 _ member

/-- A number that is not one, or has a part that is not. -/
def isNaN : Value → Bool
  | .float x _ => x.isNaN
  | .complex re im _ => re.isNaN || im.isNaN
  | _ => false

/-- How two values are equal, given which of their parts are. -/
inductive Compares (R : Value → Value → Prop) : Value → Value → Prop
  | none : Compares R .none .none
  | bool (b : Bool) : Compares R (.bool b) (.bool b)
  | int (n : Int) (s t : IntTag) : Compares R (.int n s) (.int n t)
  | float {x y : Binary64} (same : x.equals y = true) (s t : FloatType) : Compares R (.float x s) (.float y t)
  | complex {re im re' im' : Binary64} (real : re.equals re' = true) (imaginary : im.equals im' = true)
      (s t : FloatType) : Compares R (.complex re im s) (.complex re' im' t)
  | str (s : String) : Compares R (.str s) (.str s)
  | bytes (b : List UInt8) : Compares R (.bytes b) (.bytes b)
  | seq {items others : List Value} (agree : List.Forall₂ R items others) :
      Compares R (.seq items) (.seq others)
  | map {entries others : List (Key × Value)} (agree : Entries.Matches R entries others) :
      Compares R (.map entries) (.map others)
  | object {handle other : Handle} (same : handle.slot = other.slot) :
    Compares R (.object handle) (.object other)
  | array {view other : ArrayView} (same : view.buffer = other.buffer) :
    Compares R (.array view) (.array other)

theorem itemsEqual_iff {items others : List Value} :
    itemsEqual items others = true ↔ List.Forall₂ (fun v u => v.equals u = true) items others := by
  induction items generalizing others with
  | nil => cases others <;> simp [itemsEqual]
  | cons item rest ih =>
      cases others with
      | nil => simp [itemsEqual]
      | cons other further => rw [itemsEqual, Bool.and_eq_true, ih, List.forall₂_cons]

theorem entriesFound_iff {entries others : List (Key × Value)} :
    entriesFound entries others = true ↔
      ∀ entry ∈ entries, ∃ other, Entries.get? others entry.1 = some other ∧ entry.2.equals other = true := by
  induction entries with
  | nil => simp [entriesFound]
  | cons entry rest ih =>
      rw [entriesFound, Bool.and_eq_true, ih, List.forall_mem_cons]
      cases Entries.get? others entry.1 <;> simp

theorem equals_map_iff {entries others : List (Key × Value)} (distinct : (entries.map Prod.fst).Nodup)
    (distinctOthers : (others.map Prod.fst).Nodup) :
    (map entries).equals (map others) = true ↔
      Entries.Matches (fun v u => v.equals u = true) entries others := by
  rw [Entries.matches_iff distinct distinctOthers, ← entriesFound_iff, equals, Bool.and_eq_true, beq_iff_eq]

theorem equals_iff (distinct : a.Distinct) (other : b.Distinct) :
    a.equals b = true ↔ Compares (fun v u => v.equals u = true) a b := by
  constructor
  · intro same
    fun_cases equals a b with
    | case1 => exact .none
    | case2 b c => exact (beq_iff_eq.mp same : b = c) ▸ .bool b
    | case3 n s m t => exact (beq_iff_eq.mp same : n = m) ▸ .int n s t
    | case4 x s y t => exact .float same s t
    | case5 re im s re' im' t =>
        obtain ⟨real, imaginary⟩ := Bool.and_eq_true_iff.mp same
        exact .complex real imaginary s t
    | case6 s t => exact (beq_iff_eq.mp same : s = t) ▸ .str s
    | case7 b c => exact (beq_iff_eq.mp same : b = c) ▸ .bytes b
    | case8 items others => exact .seq (itemsEqual_iff.mp same)
    | case9 entries others => exact .map ((equals_map_iff distinct.1 other.1).mp same)
    | case10 handle k => exact .object (beq_iff_eq.mp same)
    | case11 view u => exact .array (beq_iff_eq.mp same)
    | case12 =>
        simp only [equals, *] at same
        cases same
  · intro compares
    cases compares with
    | none => rfl
    | bool b => exact beq_self_eq_true b
    | int n s t => exact beq_self_eq_true n
    | float same s t => exact same
    | complex real imaginary s t => exact Bool.and_eq_true_iff.mpr ⟨real, imaginary⟩
    | str s => exact beq_self_eq_true s
    | bytes b => exact beq_self_eq_true b
    | seq agree => exact itemsEqual_iff.mpr agree
    | map agree => exact (equals_map_iff distinct.1 other.1).mpr agree
    | object same => exact beq_iff_eq.mpr same
    | array same => exact beq_iff_eq.mpr same

theorem equals_symm (distinct : a.Distinct) (other : b.Distinct) (same : a.equals b = true) :
    b.equals a = true := by
  induction a using part_wellFounded.induction generalizing b with
  | _ a ih =>
  rw [equals_iff distinct other] at same
  rw [equals_iff other distinct]
  have swap : ∀ v, Part v a → ∀ u, Part u b → v.equals u = true → u.equals v = true :=
    fun v inA u inB => ih v inA (distinct.part inA) (other.part inB)
  cases same with
  | none => exact .none
  | bool b => exact .bool b
  | int n s t => exact .int n t s
  | float same s t => exact .float (Binary.equals_symm same) t s
  | complex real imaginary s t =>
      exact .complex (Binary.equals_symm real) (Binary.equals_symm imaginary) t s
  | str s => exact .str s
  | bytes b => exact .bytes b
  | seq agree =>
      exact .seq (forall₂_of_mem agree fun v inA u inB => swap v (.item inA) u (.item inB)).flip
  | map agree => exact .map (agree.swap fun entry inA other inB => swap _ (.entry inA) _ (.entry inB))
  | object same => exact .object same.symm
  | array same => exact .array same.symm

theorem equals_trans (distinctA : a.Distinct) (distinctB : b.Distinct) (distinctC : c.Distinct)
    (first : a.equals b = true) (rest : b.equals c = true) : a.equals c = true := by
  induction a using part_wellFounded.induction generalizing b c with
  | _ a ih =>
  rw [equals_iff distinctA distinctB] at first
  rw [equals_iff distinctB distinctC] at rest
  rw [equals_iff distinctA distinctC]
  have trans : ∀ v, Part v a → ∀ u, Part u b → ∀ t, Part t c → v.equals u = true → u.equals t = true →
      v.equals t = true :=
    fun v inA u inB t inC => ih v inA (distinctA.part inA) (distinctB.part inB) (distinctC.part inC)
  cases first with
  | none => exact rest
  | bool b => exact rest
  | int n s t =>
      cases rest with
      | int _ _ r => exact .int n s r
  | float same s t =>
      cases rest with
      | float next _ r => exact .float (Binary.equals_trans same next) s r
  | complex real imaginary s t =>
      cases rest with
      | complex nextReal nextImaginary _ r =>
          exact .complex (Binary.equals_trans real nextReal) (Binary.equals_trans imaginary nextImaginary) s r
  | str s => exact rest
  | bytes b => exact rest
  | seq agree =>
      cases rest with
      | seq next =>
          exact .seq (forall₂_comp agree next fun v inA u inB t inC =>
            trans v (.item inA) u (.item inB) t (.item inC))
  | map agree =>
      cases rest with
      | map next =>
          exact .map (agree.comp next fun entry inA other inB last inC =>
            trans _ (.entry inA) _ (.entry inB) _ (.entry inC))
  | object same =>
      cases rest with
      | object next => exact .object (same.trans next)
  | array same =>
      cases rest with
      | array next => exact .array (same.trans next)

/-- A value is equal to itself unless it is a NaN or one of its parts is not equal to itself. -/
theorem equals_self_step (distinct : a.Distinct) :
    a.equals a = true ↔ a.isNaN = false ∧ ∀ part, Part part a → part.equals part = true := by
  have plain : (∀ part, ¬ Part part a) →
      ((a.isNaN = false ∧ ∀ part, Part part a → part.equals part = true) ↔ a.isNaN = false) :=
    fun none => ⟨And.left, fun number => ⟨number, fun part isPart => absurd isPart (none part)⟩⟩
  cases a with
  | float x s =>
      rw [plain (by rintro part ⟨⟩)]
      exact Binary.equals_self
  | complex re im s =>
      rw [plain (by rintro part ⟨⟩), equals, Bool.and_eq_true, Binary.equals_self, Binary.equals_self, isNaN,
        Bool.or_eq_false_iff]
  | seq items =>
      rw [equals, itemsEqual_iff, List.forall₂_same]
      refine ⟨fun each => ⟨rfl, ?_⟩, fun parts item member => parts.2 item (.item member)⟩
      rintro part (member | _)
      exact each part member
  | map entries =>
      rw [equals, Bool.and_eq_true, entriesFound_iff]
      constructor
      · rintro ⟨_, found⟩
        refine ⟨rfl, ?_⟩
        rintro part (_ | ⟨member⟩)
        obtain ⟨other, there, same⟩ := found _ member
        cases there.symm.trans (Entries.get?_of_mem distinct.1 member)
        exact same
      · rintro ⟨_, parts⟩
        refine ⟨beq_self_eq_true _, fun entry member => ?_⟩
        exact ⟨entry.2, Entries.get?_of_mem distinct.1 member, parts _ (.entry member)⟩
  | _ =>
      rw [plain (by rintro part ⟨⟩)]
      exact iff_of_true (by simp [equals, ArrayView.sharesStorage]) rfl

theorem equals_self_iff (distinct : a.Distinct) :
    a.equals a = true ↔ ∀ part, Inside part a → part.isNaN = false := by
  induction a using part_wellFounded.induction with
  | _ a ih =>
  rw [equals_self_step distinct]
  constructor
  · rintro ⟨number, parts⟩ part inside
    obtain rfl | ⟨whole, within, isPart⟩ := inside.cases_tail
    · exact number
    · exact (ih whole isPart (distinct.part isPart)).mp (parts whole isPart) part within
  · intro numbers
    refine ⟨numbers a .refl, fun part isPart => (ih part isPart (distinct.part isPart)).mpr ?_⟩
    exact fun inner inside => numbers inner (inside.tail isPart)

/-- One value is another but for the widths of numbers and the order of entries, anywhere inside it. -/
inductive Restyled : Value → Value → Prop
  | same (v : Value) : Restyled v v
  | int (n : Int) (s t : IntTag) : Restyled (.int n s) (.int n t)
  | float (x : Binary64) (s t : FloatType) : Restyled (.float x s) (.float x t)
  | complex (re im : Binary64) (s t : FloatType) : Restyled (.complex re im s) (.complex re im t)
  | seq {items others : List Value} (agree : List.Forall₂ Restyled items others) :
      Restyled (.seq items) (.seq others)
  | map {entries same others : List (Key × Value)} (keys : entries.map Prod.fst = same.map Prod.fst)
      (values : List.Forall₂ Restyled (entries.map Prod.snd) (same.map Prod.snd)) (order : same.Perm others) :
      Restyled (.map entries) (.map others)

theorem Restyled.matches {entries same others : List (Key × Value)}
    (keys : entries.map Prod.fst = same.map Prod.fst)
    (values : List.Forall₂ Restyled (entries.map Prod.snd) (same.map Prod.snd)) (order : same.Perm others) :
    Entries.Matches Restyled entries others :=
  ⟨same, Entries.agree_iff.mpr ⟨keys, values⟩, order⟩

theorem Restyled.distinct (restyled : a.Restyled b) (distinct : a.Distinct) : b.Distinct := by
  induction a using part_wellFounded.induction generalizing b with
  | _ a ih =>
  cases restyled with
  | same => exact distinct
  | int | float | complex => trivial
  | seq agree =>
      refine itemsDistinct_iff.mpr fun other there => ?_
      obtain ⟨item, member, styled⟩ := exists_of_forall₂ agree there
      exact ih item (.item member) styled (distinct.part (.item member))
  | map keys values order =>
      have agree := Restyled.matches keys values order
      refine ⟨agree.keys.nodup_iff.mp distinct.1, entriesDistinct_iff.mpr fun other there => ?_⟩
      obtain ⟨entry, member, _, styled⟩ := exists_of_forall₂ (Entries.agree_iff.mpr ⟨keys, values⟩)
        (order.mem_iff.mpr there)
      exact ih entry.2 (.entry member) styled (distinct.part (.entry member))

/-- Neither the widths of numbers nor the order of entries inside a value change what it is equal to. -/
theorem Restyled.equals_iff (restyled : a.Restyled b) (distinct : a.Distinct) (other : c.Distinct) :
    b.equals c = true ↔ a.equals c = true := by
  induction a using part_wellFounded.induction generalizing b c with
  | _ a ih =>
  rw [Value.equals_iff distinct other, Value.equals_iff (restyled.distinct distinct) other]
  have parts : ∀ v, Part v a → ∀ u, v.Restyled u → ∀ t, Part t c →
      (u.equals t = true ↔ v.equals t = true) :=
    fun v inA u styled t inC => ih v inA styled (distinct.part inA) (other.part inC)
  cases restyled with
  | same => rfl
  | int n s t =>
      constructor
      · rintro ⟨⟩
        exact .int n s _
      · rintro ⟨⟩
        exact .int n t _
  | float x s t =>
      constructor
      · rintro (_ | _ | _ | ⟨same, _, r⟩)
        exact .float same s r
      · rintro (_ | _ | _ | ⟨same, _, r⟩)
        exact .float same t r
  | complex re im s t =>
      constructor
      · rintro (_ | _ | _ | _ | ⟨real, imaginary, _, r⟩)
        exact .complex real imaginary s r
      · rintro (_ | _ | _ | _ | ⟨real, imaginary, _, r⟩)
        exact .complex real imaginary t r
  | seq agree =>
      constructor
      · intro compares
        cases compares with
        | seq same =>
            exact .seq (forall₂_comp agree same fun v inA u _ t inC styled =>
              (parts v (.item inA) u styled t (.item inC)).mp)
      · intro compares
        cases compares with
        | seq same =>
            refine .seq (forall₂_comp (R := flip Restyled) agree.flip same ?_)
            exact fun u _ v inA t inC styled => (parts v (.item inA) u styled t (.item inC)).mpr
  | map keys values order =>
      have agree := Restyled.matches keys values order
      constructor
      · intro compares
        cases compares with
        | map same =>
            exact .map (agree.comp same fun entry inA other _ last inC styled =>
              (parts _ (.entry inA) _ styled _ (.entry inC)).mp)
      · intro compares
        cases compares with
        | map same =>
            have back : Entries.Matches (flip Restyled) _ _ := agree.swap fun _ _ _ _ styled => styled
            exact .map (back.comp same fun other _ entry inA last inC styled =>
              (parts _ (.entry inA) _ styled _ (.entry inC)).mpr)

/-- Equality of values is symmetric and transitive, and a value is equal to itself just when no number in it
is a NaN.  It sees neither the widths of numbers nor the order of entries. -/
theorem equals_laws (distinctA : a.Distinct) (distinctB : b.Distinct) (distinctC : c.Distinct) :
    (a.equals b = true → b.equals a = true) ∧
    (a.equals b = true → b.equals c = true → a.equals c = true) ∧
    (a.equals a = true ↔ ∀ part, Inside part a → part.isNaN = false) ∧
    (∀ restyledA restyledB, a.Restyled restyledA → b.Restyled restyledB →
      restyledA.equals restyledB = a.equals b) := by
  refine ⟨equals_symm distinctA distinctB, equals_trans distinctA distinctB distinctC,
    equals_self_iff distinctA, fun restyledA restyledB styledA styledB => ?_⟩
  have distinct := styledA.distinct distinctA
  have symm : ∀ {v u : Value}, v.Distinct → u.Distinct → (v.equals u = true ↔ u.equals v = true) :=
    fun left right => ⟨equals_symm left right, equals_symm right left⟩
  rw [Bool.eq_iff_iff]
  calc restyledA.equals restyledB = true
      ↔ restyledB.equals restyledA = true := symm distinct (styledB.distinct distinctB)
    _ ↔ b.equals restyledA = true := styledB.equals_iff distinctB distinct
    _ ↔ restyledA.equals b = true := symm distinctB distinct
    _ ↔ a.equals b = true := styledA.equals_iff distinctA distinctB

def reading : Value :=
  .map [(.str "count", .int 3 (some .u8)), (.str "drift", .seq [.float (.ofBits .double 0) .f64, .none])]

/-- The same reading in other widths, with its entries in another order. -/
def reordered : Value :=
  .map [(.str "drift", .seq [.float (.ofBits .double 0) .f32, .none]), (.str "count", .int 3 .none)]

/-- The same reading with a drift from the other side of zero. -/
def negated : Value :=
  .map [(.str "drift", .seq [.float (.ofBits .double (2 ^ 63)) .f64, .none]), (.str "count", .int 3 .none)]

theorem equals_laws_reading : reading.Distinct ∧ reordered.Distinct ∧ negated.Distinct ∧
    reordered.equals reading = true ∧ reading.equals negated = true ∧
    (∀ part, Inside part reading → part.isNaN = false) ∧
    reordered.equals reordered = reading.equals reordered := by
  have distinct : reading.Distinct := ⟨by decide, trivial, ⟨trivial, trivial, trivial⟩, trivial⟩
  have distinctReordered : reordered.Distinct := ⟨by decide, ⟨trivial, trivial, trivial⟩, trivial, trivial⟩
  have distinctNegated : negated.Distinct := ⟨by decide, ⟨trivial, trivial, trivial⟩, trivial, trivial⟩
  have drift : Restyled (.seq [.float (.ofBits .double 0) .f64, .none])
      (.seq [.float (.ofBits .double 0) .f32, .none]) :=
    .seq (.cons (.float _ _ _) (.cons (.same _) .nil))
  have restyled : reading.Restyled reordered := by
    refine .map ?_ ?_ (.swap (Key.str "drift", _) (Key.str "count", _) [])
    · rfl
    · exact .cons (.int 3 _ _) (.cons drift .nil)
  obtain ⟨symm, trans, self, styled⟩ := equals_laws distinct distinctReordered distinctNegated
  have first : reading.equals reordered = true := by cbv
  have rest : reordered.equals negated = true := by cbv
  have whole : reading.equals reading = true := by cbv
  exact ⟨distinct, distinctReordered, distinctNegated, symm first, trans first rest, self.mp whole,
    styled _ _ restyled (.same _)⟩

end Value

end Marshal
