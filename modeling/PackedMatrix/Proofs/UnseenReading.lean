import PackedMatrix.Proofs.PointerRange

namespace PackedMatrix

namespace Compressor

variable {block : Block} {settings : Settings} {plans : List ColumnPlan}

theorem Reached.single (reached : Reached block settings .cheapest plans) :
    ∀ plan ∈ plans, plan.columns.length = 1 := by
  obtain ⟨⟨costs, ⟨classified, _⟩, grouped⟩, _⟩ := reached
  obtain ⟨list, sourced, rfl⟩ := map_eq_ok classified
  exact single_of_group sourced grouped

end Compressor

end PackedMatrix
