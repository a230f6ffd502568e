import PackedMatrix.Error

namespace PackedMatrix

variable {α β ε : Type}

theorem mapM_eq_error {step : α → Except ε β} {list : List α} {error : ε}
    (h : list.mapM step = .error error) : ∃ before item after, list = before ++ item :: after ∧
      (∀ earlier ∈ before, ∃ value, step earlier = .ok value) ∧ step item = .error error := by
  induction list with
  | nil => cases h
  | cons first rest ih =>
    rw [List.mapM_cons] at h
    cases taken : step first with
    | error cause =>
      rw [taken] at h
      cases h
      exact ⟨[], first, rest, rfl, by simp, taken⟩
    | ok value =>
      rw [taken] at h
      cases others : rest.mapM step with
      | error cause =>
        simp only [others, bind, Except.bind] at h
        cases h
        obtain ⟨before, item, after, rfl, passed, failed⟩ := ih others
        exact ⟨first :: before, item, after, rfl,
          List.forall_mem_cons.mpr ⟨⟨value, taken⟩, passed⟩, failed⟩
      | ok values =>
        simp only [others, bind, Except.bind] at h
        cases h

/-- Workers that share out what is to be done for the items of a list. The results come back in the
order of the items. If several items fail, the failure of any of them may be the one reported. -/
structure Pool where
  collect {α β : Type} (work : α → Except PackError β) (items : List α) : Except PackError (List β)
  collect_eq_ok_iff {α β : Type} {work : α → Except PackError β} {items : List α}
    {results : List β} : collect work items = .ok results ↔ items.mapM work = .ok results
  exists_of_collect_eq_error {α β : Type} {work : α → Except PackError β} {items : List α}
    {error : PackError} : collect work items = .error error →
      ∃ item ∈ items, work item = .error error
  /-- The order in which so many parts of an array are filled. -/
  order (parts : Nat) : List Nat
  order_perm (parts : Nat) : (order parts).Perm (List.range parts)

namespace Pool

/-- The calling thread, which does one thing after the other. -/
def caller : Pool where
  collect work items := items.mapM work
  collect_eq_ok_iff := Iff.rfl
  exists_of_collect_eq_error failed := by
    obtain ⟨before, item, after, rfl, _, fails⟩ := mapM_eq_error failed
    exact ⟨item, by simp, fails⟩
  order := List.range
  order_perm _ := .refl _

@[simp] theorem collect_caller {α β : Type} (work : α → Except PackError β) (items : List α) :
    caller.collect work items = items.mapM work := rfl

end Pool

/-- What starts threads: a pool of as many as are asked for, or the texts of the reason why there
is none, outermost first. -/
structure Threads where
  start (count : Nat) : Except (List String) Pool

namespace Threads

/-- No threads but the calling one, however many are asked for. -/
def caller : Threads := ⟨fun _ => .ok .caller⟩

/-- The pool of so many workers. One worker is the calling thread, and needs no other. -/
def pool (threads : Threads) (workers : Nat) : Except PackError Pool :=
  if workers ≤ 1 then .ok .caller else (threads.start workers).mapError .threadPool

end Threads

end PackedMatrix
