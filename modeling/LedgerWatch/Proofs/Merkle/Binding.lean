import LedgerWatch.Merkle

/-!
# A path binds its leaf

Two different leaves that climb one path to one root meet on the way up, and where they meet two
different pairs of nodes are combined into the same node. Nothing is assumed of the pair hash: it
may have collisions, but then one of them is among the pairs that the two climbs combine.

## Main definitions

- `Collides`: two different elements of a list have the same image
- `Merkle.joins`: the pairs that a climb combines

## Main results

- `Merkle.climb_binding`: equal roots come from equal leaves, or from a collision
-/

namespace LedgerWatch

/-- Two different elements of a list have the same image. -/
def Collides {α β : Type} (f : α → β) (inputs : List α) : Prop :=
  ∃ a ∈ inputs, ∃ b ∈ inputs, a ≠ b ∧ f a = f b

theorem Collides.mono {α β : Type} {f : α → β} {inputs more : List α} (h : Collides f inputs)
    (hsubset : inputs ⊆ more) : Collides f more := by
  obtain ⟨a, ha, b, hb, hcollision⟩ := h
  exact ⟨a, hsubset ha, b, hsubset hb, hcollision⟩

/-- A collision of a function after an injective one is a collision of the function itself. -/
theorem Collides.map {α β γ : Type} {f : β → γ} {g : α → β} {inputs : List α}
    (h : Collides (fun a => f (g a)) inputs) (hg : ∀ a b, g a = g b → a = b) :
    Collides f (inputs.map g) := by
  obtain ⟨a, ha, b, hb, hne, heq⟩ := h
  exact ⟨g a, List.mem_map_of_mem ha, g b, List.mem_map_of_mem hb, mt (hg a b) hne, heq⟩

namespace Merkle

variable {α : Type}

/-- A node and its sibling, in the order in which they are combined. -/
def Step.pair (node : α) (step : Step α) : α × α :=
  match step.side with
  | .left => (step.sibling, node)
  | .right => (node, step.sibling)

theorem Step.join_eq_pair (combine : α → α → α) (node : α) (step : Step α) :
    step.join combine node = combine (step.pair node).1 (step.pair node).2 := by
  obtain ⟨sibling, _ | _⟩ := step <;> rfl

theorem Step.pair_inj {node node' : α} {step : Step α} (h : step.pair node = step.pair node') :
    node = node' := by
  obtain ⟨sibling, _ | _⟩ := step
  · exact (Prod.mk.inj h).2
  · exact (Prod.mk.inj h).1

/-- The pairs of nodes that are combined on the climb from a leaf. -/
def joins (combine : α → α → α) (leaf : α) : List (Step α) → List (α × α)
  | [] => []
  | step :: above => step.pair leaf :: joins combine (step.join combine leaf) above

/-- Two leaves that climb a path to the same root are equal, unless two different pairs combined on
the way have the same node above them. -/
theorem climb_binding (combine : α → α → α) {leaf leaf' : α} (path : List (Step α))
    (hroot : climb combine leaf path = climb combine leaf' path) :
    leaf = leaf' ∨ Collides (fun pair => combine pair.1 pair.2)
      (joins combine leaf path ++ joins combine leaf' path) := by
  induction path generalizing leaf leaf' with
  | nil => exact .inl hroot
  | cons step above ih =>
    rcases ih hroot with hnode | hcollision
    · by_cases hpair : step.pair leaf = step.pair leaf'
      · exact .inl (Step.pair_inj hpair)
      · rw [Step.join_eq_pair, Step.join_eq_pair] at hnode
        exact .inr ⟨step.pair leaf, by simp [joins], step.pair leaf', by simp [joins], hpair, hnode⟩
    · refine .inr (hcollision.mono ?_)
      intro pair hpair
      simp only [joins, List.mem_append, List.mem_cons] at hpair ⊢
      exact hpair.imp .inr .inr

end Merkle

end LedgerWatch
