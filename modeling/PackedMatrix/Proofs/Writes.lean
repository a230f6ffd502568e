import PackedMatrix.Group.Read

namespace PackedMatrix

namespace Writes

variable {β : Type}

/-- The value of the last write to a place. -/
def last (place : Nat) (writes : List (Nat × β)) : Option β :=
  writes.foldl (fun found write => if write.1 = place then some write.2 else found) none

@[simp] theorem last_nil (place : Nat) : last place ([] : List (Nat × β)) = none := rfl

theorem foldl_last (place : Nat) (writes : List (Nat × β)) (before : Option β) :
    writes.foldl (fun found write => if write.1 = place then some write.2 else found) before =
      (last place writes).or before := by
  induction writes generalizing before with
  | nil => rfl
  | cons write rest ih =>
    rw [last, List.foldl_cons, List.foldl_cons, ih, ih]
    by_cases here : write.1 = place
    · simp [here]
    · simp [here]

theorem last_append (place : Nat) (front back : List (Nat × β)) :
    last place (front ++ back) = (last place back).or (last place front) := by
  rw [last, List.foldl_append, foldl_last]
  rfl

theorem last_cons (place : Nat) (write : Nat × β) (rest : List (Nat × β)) :
    last place (write :: rest) =
      (last place rest).or (if write.1 = place then some write.2 else none) := by
  rw [last, List.foldl_cons, foldl_last]

theorem last_eq_none {place : Nat} {writes : List (Nat × β)}
    (absent : ∀ write ∈ writes, write.1 ≠ place) : last place writes = none := by
  induction writes with
  | nil => rfl
  | cons write rest ih =>
    rw [last_cons, ih fun other member => absent other (List.mem_cons_of_mem _ member)]
    simp [absent write (by simp)]

theorem mem_of_last {place : Nat} {writes : List (Nat × β)} {value : β}
    (h : last place writes = some value) : (place, value) ∈ writes := by
  induction writes with
  | nil => cases h
  | cons write rest ih =>
    rw [last_cons] at h
    rcases Option.or_eq_some_iff.mp h with later | ⟨_, here⟩
    · exact List.mem_cons_of_mem _ (ih later)
    · split at here
      next same =>
        cases here
        rw [← same]
        exact List.mem_cons_self
      next => cases here

/-- If all writes to a place agree and there is one, it decides. -/
theorem last_eq_some {place : Nat} {writes : List (Nat × β)} (value : β)
    (agree : ∀ write ∈ writes, write.1 = place → write.2 = value)
    (present : ∃ write ∈ writes, write.1 = place) : last place writes = some value := by
  induction writes with
  | nil =>
    obtain ⟨_, member, _⟩ := present
    simp at member
  | cons write rest ih =>
    have others : ∀ other ∈ rest, other.1 = place → other.2 = value :=
      fun other member => agree other (List.mem_cons_of_mem _ member)
    rw [last_cons]
    by_cases later : ∃ other ∈ rest, other.1 = place
    · rw [ih others later]
      rfl
    · have absent : ∀ other ∈ rest, other.1 ≠ place :=
        fun other member same => later ⟨other, member, same⟩
      obtain ⟨found, member, same⟩ := present
      rcases List.mem_cons.mp member with rfl | member
      · rw [last_eq_none absent]
        simp [same, agree found (by simp) same]
      · exact absurd same (absent found member)

/-- A place holds a value if all writes to it agree on that value, and it did before or there is a
write. -/
theorem getD_last {place : Nat} {writes : List (Nat × β)} {value old : β}
    (agree : ∀ write ∈ writes, write.1 = place → write.2 = value)
    (present : (∃ write ∈ writes, write.1 = place) ∨ old = value) :
    (last place writes).getD old = value := by
  by_cases named : ∃ write ∈ writes, write.1 = place
  · rw [last_eq_some value agree named, Option.getD_some]
  · have absent : ∀ write ∈ writes, write.1 ≠ place :=
      fun write member same => named ⟨write, member, same⟩
    rw [last_eq_none absent, Option.getD_none]
    exact present.resolve_left named

theorem getElem?_foldl (writes : List (Nat × Cell)) (buffer : Array Cell) (place : Nat) :
    (writes.foldl (fun cells write => cells.setIfInBounds write.1 write.2) buffer)[place]? =
      buffer[place]?.map fun old => (last place writes).getD old := by
  induction writes generalizing buffer with
  | nil => cases found : buffer[place]? <;> simp [found]
  | cons write rest ih =>
    rw [List.foldl_cons, ih, Array.getElem?_setIfInBounds, last_cons]
    by_cases here : write.1 = place
    · by_cases inside : place < buffer.size
      · cases last place rest <;> simp [here, inside]
      · simp [here, inside]
    · simp [here]

theorem size_foldl (writes : List (Nat × Cell)) (buffer : Array Cell) :
    (writes.foldl (fun cells write => cells.setIfInBounds write.1 write.2) buffer).size =
      buffer.size := by
  induction writes generalizing buffer with
  | nil => rfl
  | cons write rest ih => rw [List.foldl_cons, ih, Array.size_setIfInBounds]

/-- Writes to different places can be carried out in either order. -/
theorem foldl_comm {first second : List (Nat × Cell)}
    (apart : ∀ a ∈ first, ∀ b ∈ second, a.1 ≠ b.1) (buffer : Array Cell) :
    second.foldl (fun cells write => cells.setIfInBounds write.1 write.2)
        (first.foldl (fun cells write => cells.setIfInBounds write.1 write.2) buffer) =
      first.foldl (fun cells write => cells.setIfInBounds write.1 write.2)
        (second.foldl (fun cells write => cells.setIfInBounds write.1 write.2) buffer) := by
  apply Array.ext_getElem?
  intro place
  simp only [getElem?_foldl, Option.map_map]
  congr 1
  funext old
  by_cases named : ∃ write ∈ first, write.1 = place
  · obtain ⟨write, member, rfl⟩ := named
    have absent : last write.1 second = none :=
      last_eq_none fun other listed same => apart write member other listed same.symm
    simp [absent]
  · have absent : last place first = none :=
      last_eq_none fun write member same => named ⟨write, member, same⟩
    simp [absent]

theorem foldlM_writeCell {writes : List (Nat × Cell)} {buffer : Array Cell}
    (inside : ∀ write ∈ writes, write.1 < buffer.size) :
    writes.foldlM (fun cells write => Group.writeCell cells write.1 write.2) buffer =
      .ok (writes.foldl (fun cells write => cells.setIfInBounds write.1 write.2) buffer) := by
  induction writes generalizing buffer with
  | nil => rfl
  | cons write rest ih =>
    have first := inside write (by simp)
    have step : Group.writeCell buffer write.1 write.2 =
        .ok (buffer.setIfInBounds write.1 write.2) := by
      simp [Group.writeCell, first, Array.setIfInBounds]
    rw [List.foldlM_cons, step, List.foldl_cons]
    apply ih
    intro other member
    rw [Array.size_setIfInBounds]
    exact inside other (List.mem_cons_of_mem _ member)

end Writes

end PackedMatrix
