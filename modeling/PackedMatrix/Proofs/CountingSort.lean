import PackedMatrix.CountingSort
import PackedMatrix.Proofs.Segments

namespace PackedMatrix

namespace CountingSort

/-- Every key below the next number is below this one or is this one. -/
theorem countP_lt_succ (keys : List Nat) (key : Nat) :
    keys.countP (· < key + 1) = keys.countP (· < key) + keys.countP (· == key) := by
  induction keys with
  | nil => rfl
  | cons first rest ih =>
    simp only [List.countP_cons, ih, decide_eq_true_eq, beq_iff_eq]
    split <;> split <;> split <;> omega

theorem countP_lt_mono (keys : List Nat) {a b : Nat} (order : a ≤ b) :
    keys.countP (· < a) ≤ keys.countP (· < b) := by
  refine List.countP_mono_left fun key _ less => ?_
  simp only [decide_eq_true_eq] at less ⊢
  omega

theorem countP_lt_of_inside {keys : List Nat} {bound : Nat} (inside : ∀ key ∈ keys, key < bound) :
    keys.countP (· < bound) = keys.length :=
  List.countP_eq_length.mpr fun key member => decide_eq_true (inside key member)

theorem getElem?_foldl_count (keys : List Nat) (counts : Array Nat) (place : Nat) :
    (keys.foldl (fun counts key => counts.modify (key + 1) (· + 1)) counts)[place]? =
      counts[place]?.map (· + keys.countP (· + 1 == place)) := by
  induction keys generalizing counts with
  | nil => cases found : counts[place]? <;> simp [found]
  | cons first rest ih =>
    rw [List.foldl_cons, ih, Array.getElem?_modify]
    by_cases here : first + 1 = place
    · cases counts[place]? with
      | none => simp [here]
      | some known =>
        simp only [here, ↓reduceIte, Option.map_some, List.countP_cons, beq_self_eq_true]
        congr 1
        omega
    · simp [here]

theorem getElem?_countBehind {bound place : Nat} (keys : List Nat) (inside : place ≤ bound) :
    (countBehind bound keys)[place]? = some (keys.countP (· + 1 == place)) := by
  rw [countBehind, getElem?_foldl_count, Array.getElem?_replicate, if_pos (by omega)]
  simp

/-- Each sum takes the one in front of it as it was left by the step before. -/
theorem getElem?_sumUp {bound place : Nat} (keys : List Nat) (inside : place ≤ bound) (done : Nat)
    (within : done ≤ bound) : (sumUp done (countBehind bound keys))[place]? =
      some (if place ≤ done then keys.countP (· < place) else keys.countP (· + 1 == place)) := by
  induction done generalizing place with
  | zero =>
    rw [sumUp, List.range_zero, List.foldl_nil, getElem?_countBehind keys inside]
    split
    next first =>
      obtain rfl := Nat.le_zero.mp first
      simp
    next => rfl
  | succ done ih =>
    have before := @ih done (by omega) (by omega)
    rw [if_pos (Nat.le_refl done)] at before
    rw [sumUp, List.range_succ, List.foldl_append, ← sumUp, List.foldl_cons, List.foldl_nil,
      Array.getElem?_modify, Array.getD_eq_getD_getElem?, before, ih inside (by omega)]
    by_cases here : done + 1 = place
    · subst here
      rw [if_pos rfl, if_neg (by omega), if_pos (Nat.le_refl _), countP_lt_succ]
      simp
    · rw [if_neg here]
      by_cases front : place ≤ done
      · rw [if_pos front, if_pos (by omega)]
      · rw [if_neg front, if_neg (by omega)]

theorem size_sumUp (bound : Nat) (counts : Array Nat) :
    (sumUp bound counts).size = counts.size := by
  induction bound with
  | zero => rfl
  | succ bound ih =>
    rw [sumUp, List.range_succ, List.foldl_append, ← sumUp, List.foldl_cons, List.foldl_nil,
      Array.size_modify, ih]

theorem size_countBehind (bound : Nat) (keys : List Nat) :
    (countBehind bound keys).size = bound + 1 := by
  have kept : ∀ counts : Array Nat,
      (keys.foldl (fun counts key => counts.modify (key + 1) (· + 1)) counts).size =
        counts.size := by
    induction keys with
    | nil => exact fun _ => rfl
    | cons key rest ih => simp [ih]
  rw [countBehind, kept, Array.size_replicate]

theorem getElem?_starts {bound place : Nat} (keys : List Nat) (inside : place ≤ bound) :
    (starts bound keys)[place]? = some (keys.countP (· < place)) := by
  rw [starts, getElem?_sumUp keys inside bound (Nat.le_refl _), if_pos inside]

/-- Lists with as many items as there are keys of their number lie where the keys start. -/
theorem starts_eq_pointers {α : Type} (keys : List Nat) (bound : Nat) {lists : Nat → List α}
    (lengths : ∀ key < bound, (lists key).length = keys.countP (· == key)) :
    starts bound keys = Segments.pointers ((List.range bound).map lists) := by
  have offsets : ∀ place ≤ bound, Segments.offset ((List.range bound).map lists) place =
      keys.countP (· < place) := by
    intro place inside
    induction place with
    | zero => simp
    | succ place ih =>
      have listed : place < ((List.range bound).map lists).length := by
        rwa [List.length_map, List.length_range]
      rw [Segments.offset_succ listed, ih (Nat.le_of_lt inside), countP_lt_succ]
      simp [lengths place inside]
  have size : (starts bound keys).size = bound + 1 := by
    rw [starts, size_sumUp, size_countBehind]
  refine Array.ext (by simp [size, Segments.size_pointers]) fun place first second => ?_
  have inside : place ≤ bound := by omega
  have found := getElem?_starts keys inside
  have listed : place ≤ ((List.range bound).map lists).length := by
    rwa [List.length_map, List.length_range]
  have stored := Segments.getElem?_pointers listed
  rw [Array.getElem?_eq_getElem first] at found
  rw [Array.getElem?_eq_getElem second, offsets place inside] at stored
  exact Option.some.inj (found.trans stored.symm)

section Items

variable {τ : Type} {key : τ → Nat}

theorem countP_map_key (key : τ → Nat) (items : List τ) (number : Nat) :
    (items.map key).countP (· == number) = (items.filter (key · == number)).length := by
  rw [List.countP_map, ← List.countP_eq_length_filter]
  rfl

/-- In order, the items up to a key are those below it and then those that have it. -/
theorem filter_lt_succ {items : List τ} (ordered : items.Pairwise (key · ≤ key ·))
    (number : Nat) : items.filter (key · < number + 1) =
      items.filter (key · < number) ++ items.filter (key · == number) := by
  induction items with
  | nil => rfl
  | cons first rest ih =>
    obtain ⟨least, order⟩ := List.pairwise_cons.mp ordered
    rcases Nat.lt_trichotomy (key first) number with less | same | more
    · have front : decide (key first < number + 1) = true := decide_eq_true (by omega)
      have other : (key first == number) = false := beq_false_of_ne (Nat.ne_of_lt less)
      simp only [List.filter_cons, front, decide_eq_true less, other, ih order,
        Bool.false_eq_true, ↓reduceIte, List.cons_append]
    · have none_ : rest.filter (key · < number) = [] := by
        simp only [List.filter_eq_nil_iff, decide_eq_true_eq]
        intro item member
        have := least item member
        omega
      have front : decide (key first < number + 1) = true := decide_eq_true (by omega)
      have behind : decide (key first < number) = false := decide_eq_false (by omega)
      simp only [List.filter_cons, front, behind, beq_iff_eq.mpr same, ih order, none_,
        Bool.false_eq_true, ↓reduceIte, List.nil_append]
    · have behind : decide (key first < number + 1) = false := decide_eq_false (by omega)
      have behind' : decide (key first < number) = false := decide_eq_false (by omega)
      have other : (key first == number) = false := beq_false_of_ne (Nat.ne_of_gt more)
      simp only [List.filter_cons, behind, behind', other, ih order, Bool.false_eq_true,
        ↓reduceIte]

/-- Items that are in order are those of each key, one key behind the other. -/
theorem flatMap_filter_of_ordered {items : List τ} (ordered : items.Pairwise (key · ≤ key ·))
    {bound : Nat} (inside : ∀ item ∈ items, key item < bound) :
    (List.range bound).flatMap (fun number => items.filter (key · == number)) = items := by
  have front : ∀ number,
      (List.range number).flatMap (fun number => items.filter (key · == number)) =
        items.filter (key · < number) := by
    intro number
    induction number with
    | zero => simp
    | succ number ih =>
      rw [List.range_succ, List.flatMap_append, ih, List.flatMap_singleton,
        filter_lt_succ ordered]
  rw [front]
  exact List.filter_eq_self.mpr fun item member => decide_eq_true (inside item member)

theorem extract_setIfInBounds_of_ne {α : Type} (stored : Array α) (item : α) {start stop slot : Nat}
    (outside : slot < start ∨ stop ≤ slot) :
    (stored.setIfInBounds slot item).extract start stop = stored.extract start stop := by
  unfold Array.setIfInBounds
  split
  next inside =>
    rw [Array.extract_set]
    split
    next => rfl
    next => rw [dif_neg (by omega)]
  next => rfl

theorem extract_setIfInBounds_last {α : Type} {stored : Array α} (item : α) {start slot : Nat}
    (order : start ≤ slot) (inside : slot < stored.size) :
    ((stored.setIfInBounds slot item).extract start (slot + 1)).toList =
      (stored.extract start slot).toList ++ [item] := by
  have held : slot < (stored.setIfInBounds slot item).size := by simpa using inside
  rw [Array.extract_succ_right (Nat.lt_succ_of_le order) held,
    extract_setIfInBounds_of_ne stored item (.inr (Nat.le_refl _))]
  simp

/-- Of the items of each key, those that were met lie in order from where the key starts. -/
def Filled {α : Type} (key : τ → Nat) (bound : Nat) (items done : List τ) (pick : τ → α)
    (stored : Array α) : Prop :=
  ∀ number < bound, (stored.extract ((items.map key).countP (· < number))
    ((items.map key).countP (· < number) + (done.filter (key · == number)).length)).toList =
      (done.filter (key · == number)).map pick

variable {α : Type} {pick : τ → α} {bound : Nat} {items done later : List τ} {item : τ}
  {stored : Array α}

theorem filled_nil : Filled key bound items [] pick stored := by
  intro number _
  simp

/-- The slot of an item that comes next lies behind the items of its key that were met, and in front
of those of the next key. -/
theorem slot_lt (key : τ → Nat) (split : items = done ++ item :: later) :
    (items.map key).countP (· < key item) + (done.filter (key · == key item)).length <
      (items.map key).countP (· < key item + 1) := by
  have met : (items.filter (key · == key item)).length = (done.filter (key · == key item)).length +
      ((later.filter (key · == key item)).length + 1) := by
    rw [split, List.filter_append, List.length_append, List.filter_cons_of_pos (by simp),
      List.length_cons]
  rw [countP_lt_succ, countP_map_key, met]
  omega

theorem met_le (key : τ → Nat) (split : items = done ++ item :: later) (number : Nat) :
    (items.map key).countP (· < number) + (done.filter (key · == number)).length ≤
      (items.map key).countP (· < number + 1) := by
  have met : (done.filter (key · == number)).length ≤ (items.filter (key · == number)).length := by
    rw [split, List.filter_append, List.length_append]
    exact Nat.le_add_right _ _
  rw [countP_lt_succ, countP_map_key]
  omega

/-- An item in the next slot of its key leaves all other items where they are. -/
theorem Filled.put (filled : Filled key bound items done pick stored)
    (size : stored.size = items.length) (split : items = done ++ item :: later) :
    Filled key bound items (done ++ [item]) pick (stored.setIfInBounds
      ((items.map key).countP (· < key item) + (done.filter (key · == key item)).length)
      (pick item)) := by
  have next := slot_lt key split
  intro number inside
  rw [List.filter_append, List.length_append, List.map_append]
  by_cases here : key item = number
  · subst here
    have bounded := List.countP_le_length (p := (· < key item + 1)) (l := items.map key)
    rw [List.length_map] at bounded
    rw [← filled _ inside]
    simp only [List.filter_cons, beq_self_eq_true, ↓reduceIte, List.filter_nil,
      List.length_singleton, List.map_cons, List.map_nil]
    rw [← Nat.add_assoc, extract_setIfInBounds_last _ (Nat.le_add_right _ _) (by omega)]
  · have differs : (key item == number) = false := beq_false_of_ne here
    simp only [List.filter_cons, differs, Bool.false_eq_true, ↓reduceIte, List.filter_nil,
      List.length_nil, Nat.add_zero, List.map_nil, List.append_nil]
    rw [extract_setIfInBounds_of_ne, filled number inside]
    have met := met_le key split number
    rcases Nat.lt_or_gt_of_ne here with less | more
    · have := countP_lt_mono (items.map key) (show key item + 1 ≤ number from less)
      omega
    · have := countP_lt_mono (items.map key) (show number + 1 ≤ key item from more)
      omega

/-- Once all items are met, they are sorted by key, and in order under each key. -/
theorem Filled.toList_eq (filled : Filled key bound items items pick stored)
    (size : stored.size = items.length) (inside : ∀ item ∈ items, key item < bound) :
    stored.toList = (List.range bound).flatMap fun number =>
      (items.filter (key · == number)).map pick := by
  have counts : ∀ number, (items.map key).countP (· < number) +
      (items.filter (key · == number)).length = (items.map key).countP (· < number + 1) := by
    intro number
    rw [countP_lt_succ, countP_map_key]
  have all : (items.map key).countP (· < bound) = items.length := by
    rw [countP_lt_of_inside (by simpa using inside), List.length_map]
  have first : (items.map key).countP (· < 0) = 0 := by simp
  have joined := @Segments.flatMap_extract α stored
    (fun number => (items.map key).countP (· < number)) first bound
    fun number _ => countP_lt_mono _ (Nat.le_succ number)
  rw [all, ← size, ← Array.length_toList, List.take_length] at joined
  rw [← joined]
  refine List.flatMap_congr fun number member => ?_
  rw [← counts number]
  exact filled number (List.mem_range.mp member)

end Items

end CountingSort

end PackedMatrix
