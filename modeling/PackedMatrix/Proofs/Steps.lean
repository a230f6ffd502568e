import Mathlib.Data.List.Forall2
import PackedMatrix.Workers

namespace PackedMatrix

variable {α β γ ε : Type}

theorem bind_eq_ok {first : Except ε α} {next : α → Except ε β} {result : β}
    (h : (first >>= next) = .ok result) : ∃ value, first = .ok value ∧ next value = .ok result := by
  cases first with
  | error error => cases h
  | ok value => exact ⟨value, rfl, h⟩

/-- What follows a guard is reached exactly if the guard does not hold. -/
theorem guard_eq_ok_iff {condition : Prop} [Decidable condition] {failure : ε} {rest : Except ε α}
    {result : α} : (if condition then .error failure else rest) = .ok result ↔
      ¬ condition ∧ rest = .ok result := by
  by_cases holds : condition
  · rw [if_pos holds]
    exact iff_of_false (fun failed => nomatch failed) fun h => h.1 holds
  · rw [if_neg holds, and_iff_right holds]

theorem map_eq_ok {first : Except ε α} {change : α → β} {result : β}
    (h : first.map change = .ok result) : ∃ value, first = .ok value ∧ change value = result := by
  cases first with
  | error error => cases h
  | ok value => exact ⟨value, rfl, Except.ok.inj h⟩

@[simp] theorem mapError_ok (change : ε → γ) (value : α) :
    (Except.ok value : Except ε α).mapError change = .ok value :=
  rfl

theorem mapError_eq_ok {first : Except ε α} {change : ε → γ} {result : α}
    (h : first.mapError change = .ok result) : first = .ok result := by
  cases first with
  | error error => cases h
  | ok value => exact congrArg Except.ok (Except.ok.inj h)

/-- A list of steps that succeeds has a first step and a rest that do. -/
theorem mapM_cons_eq_ok {step : α → Except ε β} {item : α} {rest : List α} {made : List β}
    (h : (item :: rest).mapM step = .ok made) : ∃ value values,
      step item = .ok value ∧ rest.mapM step = .ok values ∧ made = value :: values := by
  rw [List.mapM_cons] at h
  obtain ⟨value, first, h⟩ := bind_eq_ok h
  obtain ⟨values, others, h⟩ := bind_eq_ok h
  cases h
  exact ⟨value, values, first, others, rfl⟩

/-- A list of steps that succeeds relates its items and results one by one. -/
theorem forall₂_of_mapM {related : α → β → Prop} {step : α → Except ε β} {list : List α}
    {made : List β} (h : list.mapM step = .ok made)
    (each : ∀ item ∈ list, ∀ value, step item = .ok value → related item value) :
    List.Forall₂ related list made := by
  induction list generalizing made with
  | nil =>
    cases h
    exact .nil
  | cons item rest ih =>
    obtain ⟨value, values, first, others, rfl⟩ := mapM_cons_eq_ok h
    obtain ⟨here, later⟩ := List.forall_mem_cons.mp each
    exact .cons (here value first) (ih others later)

theorem mapM_eq_ok_iff {step : α → Except ε β} {list : List α} {made : List β} :
    list.mapM step = .ok made ↔
      List.Forall₂ (fun item value => step item = .ok value) list made := by
  refine ⟨fun h => forall₂_of_mapM h fun _ _ _ found => found, fun each => ?_⟩
  induction each with
  | nil => rfl
  | cons here _ ih =>
    rw [List.mapM_cons, here, ih]
    rfl

theorem mapM_eq_ok {step : α → Except ε β} {made : α → β} {list : List α}
    (steps : ∀ item ∈ list, step item = .ok (made item)) :
    list.mapM step = .ok (list.map made) :=
  mapM_eq_ok_iff.mpr (List.forall₂_map_right_iff.mpr (List.forall₂_same.mpr steps))

theorem exists_of_forall₂ {related : α → β → Prop} {list : List α} {made : List β}
    (each : List.Forall₂ related list made) {item : α} (member : item ∈ list) :
    ∃ value ∈ made, related item value := by
  induction each with
  | nil => cases member
  | @cons first value rest values here _ ih =>
    rcases List.mem_cons.mp member with rfl | later
    · exact ⟨value, by simp, here⟩
    · obtain ⟨other, listed, found⟩ := ih later
      exact ⟨other, List.mem_cons_of_mem _ listed, found⟩

theorem exists_of_mapM {step : α → Except ε β} {list : List α} {made : List β}
    (h : list.mapM step = .ok made) {item : α} (member : item ∈ list) :
    ∃ value ∈ made, step item = .ok value :=
  exists_of_forall₂ (mapM_eq_ok_iff.mp h) member

theorem exists_of_mem_mapM {step : α → Except ε β} {list : List α} {made : List β}
    (h : list.mapM step = .ok made) {value : β} (member : value ∈ made) :
    ∃ item ∈ list, step item = .ok value :=
  exists_of_forall₂ (mapM_eq_ok_iff.mp h).flip member

/-- What is seen of the results of a list of steps is what is expected of its items. -/
theorem map_eq_of_mapM (seen : β → γ) (expected : α → γ) {step : α → Except ε β} {list : List α}
    {made : List β} (h : list.mapM step = .ok made)
    (same : ∀ item ∈ list, ∀ value, step item = .ok value → seen value = expected item) :
    made.map seen = list.map expected := by
  have each := (forall₂_of_mapM h same).flip
  rw [← List.forall₂_eq_eq_eq, List.forall₂_map_left_iff, List.forall₂_map_right_iff]
  exact each

/-- Neither what is made of a result nor how a failure is reported decides whether there is one. -/
theorem exists_bind_pure_iff {first : Except ε α} {change : α → β} :
    (∃ result, (first >>= fun value => pure (change value)) = .ok result) ↔
      ∃ value, first = .ok value := by
  cases first with
  | error error => exact iff_of_false (fun ⟨_, h⟩ => nomatch h) fun ⟨_, h⟩ => nomatch h
  | ok value => exact iff_of_true ⟨_, rfl⟩ ⟨_, rfl⟩

theorem eq_error_of_bind_pure {first : Except ε α} {change : α → β} {error : ε}
    (h : (first >>= fun value => pure (change value)) = .error error) : first = .error error := by
  cases first with
  | error cause => exact congrArg Except.error (Except.error.inj h)
  | ok value => cases h

theorem exists_mapError_iff {first : Except ε α} {change : ε → γ} :
    (∃ result, first.mapError change = .ok result) ↔ ∃ value, first = .ok value := by
  cases first with
  | error error => exact iff_of_false (fun ⟨_, h⟩ => nomatch h) fun ⟨_, h⟩ => nomatch h
  | ok value => exact iff_of_true ⟨_, rfl⟩ ⟨_, rfl⟩

theorem exists_mapM_iff {step : α → Except ε β} {list : List α} :
    (∃ made, list.mapM step = .ok made) ↔ ∀ item ∈ list, ∃ value, step item = .ok value := by
  induction list with
  | nil => exact iff_of_true ⟨[], rfl⟩ (by simp)
  | cons item rest ih =>
    constructor
    · rintro ⟨made, h⟩
      obtain ⟨value, values, first, others, _⟩ := mapM_cons_eq_ok h
      refine List.forall_mem_cons.mpr ⟨⟨value, first⟩, ih.mp ⟨values, others⟩⟩
    · intro each
      obtain ⟨⟨value, first⟩, later⟩ := List.forall_mem_cons.mp each
      obtain ⟨values, others⟩ := ih.mpr later
      exact ⟨value :: values, by rw [List.mapM_cons, first, others]; rfl⟩

theorem mapM_congr {step other : α → Except ε β} {list : List α}
    (same : ∀ item ∈ list, step item = other item) : list.mapM step = list.mapM other := by
  induction list with
  | nil => rfl
  | cons item rest ih =>
    rw [List.mapM_cons, List.mapM_cons, same item (by simp),
      ih fun later member => same later (List.mem_cons_of_mem _ member)]

/-- Steps that do the same with the items of a list do the same with the list. -/
theorem foldlM_congr {step other : β → α → Except ε β} {list : List α}
    (same : ∀ item ∈ list, ∀ state, step state item = other state item) (start : β) :
    list.foldlM step start = list.foldlM other start := by
  induction list generalizing start with
  | nil => rfl
  | cons item rest ih =>
    rw [List.foldlM_cons, List.foldlM_cons, same item (by simp)]
    cases other start item with
    | error fault => rfl
    | ok next => exact ih (fun later member => same later (List.mem_cons_of_mem _ member)) next

/-- Steps over the parts of a list, one part after the other, are steps over the parts' items. -/
theorem foldlM_flatMap (step : β → α → Except ε β) (parts : γ → List α) (list : List γ)
    (start : β) :
    (list.flatMap parts).foldlM step start =
      list.foldlM (fun state item => (parts item).foldlM step state) start := by
  induction list generalizing start with
  | nil => rfl
  | cons item rest ih =>
    rw [List.flatMap_cons, List.foldlM_append, List.foldlM_cons]
    simp only [ih]

/-- A check that tests so many numbers from the first one on passes exactly if each of them does. -/
theorem count_eq_ok_iff {check : Nat → Nat → Except ε Unit} {passes : Nat → Prop}
    (stop : ∀ first, check 0 first = .ok ())
    (step : ∀ count first, check (count + 1) first = .ok () ↔
      passes first ∧ check count (first + 1) = .ok ()) {count first : Nat} :
    check count first = .ok () ↔ ∀ i, first ≤ i → i < first + count → passes i := by
  induction count generalizing first with
  | zero => exact iff_of_true (stop first) fun i low high => absurd low (by omega)
  | succ count ih =>
    rw [step, ih]
    constructor
    · rintro ⟨here, later⟩ i low high
      rcases Nat.eq_or_lt_of_le low with rfl | behind
      · exact here
      · exact later i behind (by omega)
    · intro all
      exact ⟨all first (Nat.le_refl _) (by omega), fun i low high => all i (by omega) (by omega)⟩

/-- A search that looks at one number after the other finds the first one that is wanted. -/
theorem count_find_eq {search : Nat → Nat → Except ε (Option Nat)} {wanted : Nat → Bool}
    {bound : Nat} (stop : ∀ first, search 0 first = .ok none)
    (step : ∀ count first, first < bound → search (count + 1) first =
      if wanted first then .ok (some first) else search count (first + 1))
    {count first : Nat} (inside : first + count ≤ bound) :
    search count first = .ok ((List.range' first count).find? wanted) := by
  induction count generalizing first with
  | zero => exact stop first
  | succ count ih =>
    rw [step count first (by omega), List.range'_succ, List.find?_cons]
    cases wanted first with
    | true => rfl
    | false => exact ih (by omega)

/-- Every failure of the result is of a kind. -/
def FailsWith (kind : ε → Prop) (result : Except ε α) : Prop :=
  ∀ error, result = .error error → kind error

namespace FailsWith

variable {kind other : ε → Prop}

theorem ok (value : α) : FailsWith kind (.ok value) := by
  intro error h
  cases h

theorem error {failure : ε} (here : kind failure) :
    FailsWith kind (.error failure : Except ε α) := by
  intro error h
  cases h
  exact here

theorem mono {result : Except ε α} (fails : FailsWith kind result)
    (weaker : ∀ failure, kind failure → other failure) : FailsWith other result :=
  fun failure h => weaker failure (fails failure h)

theorem ite {condition : Prop} [Decidable condition] {yes no : Except ε α}
    (first : FailsWith kind yes) (second : FailsWith kind no) :
    FailsWith kind (if condition then yes else no) := by
  split
  next => exact first
  next => exact second

theorem bind {first : Except ε α} {next : α → Except ε β} (start : FailsWith kind first)
    (rest : ∀ value, FailsWith kind (next value)) : FailsWith kind (first >>= next) := by
  cases first with
  | error failure => exact error (start failure rfl)
  | ok value => exact rest value

theorem map {first : Except ε α} (change : α → β) (start : FailsWith kind first) :
    FailsWith kind (first.map change) := by
  cases first with
  | error failure => exact error (start failure rfl)
  | ok value => exact ok _

theorem mapError {first : Except γ α} {change : γ → ε}
    (start : FailsWith (fun failure => kind (change failure)) first) :
    FailsWith kind (first.mapError change) := by
  cases first with
  | error failure => exact error (start failure rfl)
  | ok value => exact ok _

theorem mapM {step : α → Except ε β} {list : List α}
    (steps : ∀ item ∈ list, FailsWith kind (step item)) : FailsWith kind (list.mapM step) := by
  intro failure h
  obtain ⟨before, item, after, rfl, _, failed⟩ := mapM_eq_error h
  exact steps item (by simp) failure failed

end FailsWith

end PackedMatrix
