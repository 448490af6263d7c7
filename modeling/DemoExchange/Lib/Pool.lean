/-!
# A pool of fixed-size slots

The pool is known by the calls made to it. `liveSlots` reads off the slots
handed out and not yet returned, in the order in which they were handed out;
an `Allocator` is any placement policy that never hands out a live slot, so a
development over it holds for every policy.
-/

namespace Pool
set_option autoImplicit false

/-- The address of a slot. -/
abbrev Slot := Nat

/-- One call to the pool. -/
inductive Op where
  | setNextSize (n : Nat)
  | malloc (a : Slot)
  | free (a : Slot)
  deriving DecidableEq, Repr

/-- Slots handed out and not returned, oldest first. The calls are listed
latest first. -/
def liveSlots : List Op → List Slot
  | [] => []
  | .setNextSize _ :: ops => liveSlots ops
  | .malloc a :: ops => liveSlots ops ++ [a]
  | .free a :: ops => (liveSlots ops).erase a

/-- A placement policy: the slot that the next `malloc` returns, chosen from
the calls so far, is not live. -/
structure Allocator where
  malloc : List Op → Slot
  fresh : ∀ ops, malloc ops ∉ liveSlots ops

/-- A history in which every slot is returned only while it is live, and
handed out only while it is not. -/
def Proper : List Op → Prop
  | [] => True
  | .setNextSize _ :: ops => Proper ops
  | .malloc a :: ops => a ∉ liveSlots ops ∧ Proper ops
  | .free a :: ops => a ∈ liveSlots ops ∧ Proper ops

theorem Proper.nodup {ops : List Op} (h : Proper ops) : (liveSlots ops).Nodup := by
  induction ops with
  | nil => exact List.nodup_nil
  | cons op ops ih =>
    cases op with
    | setNextSize n => exact ih h
    | malloc a =>
      refine List.nodup_append.2 ⟨ih h.2, by simp, ?_⟩
      rintro x hx y hy rfl
      exact h.1 (List.mem_singleton.1 hy ▸ hx)
    | free a => exact (ih h.2).erase a

/-- **Every slot handed out is returned exactly once**, unless it is live:
then all but its last hand-out have been returned. -/
theorem Proper.count {ops : List Op} (h : Proper ops) (a : Slot) :
    ops.count (.malloc a) = ops.count (.free a) + if a ∈ liveSlots ops then 1 else 0 := by
  induction ops with
  | nil => rfl
  | cons op ops ih =>
    cases op with
    | setNextSize n =>
      have ih := ih h
      simp [liveSlots] at ih ⊢
      exact ih
    | malloc b =>
      have ih := ih h.2
      by_cases same : b = a
      · subst same
        simp [liveSlots, h.1] at ih ⊢
        omega
      · simp [liveSlots, same, Ne.symm same] at ih ⊢
        omega
    | free b =>
      have ih := ih h.2
      by_cases same : b = a
      · subst same
        simp [liveSlots, h.1, h.2.nodup.mem_erase_iff] at ih ⊢
        omega
      · simp [liveSlots, same, List.mem_erase_of_ne (Ne.symm same)] at ih ⊢
        omega

/-- The policy that returns the slot above every live one. -/
def Allocator.above : Allocator where
  malloc ops := (liveSlots ops).foldr max 0 + 1
  fresh := by
    have bound : ∀ (l : List Slot), ∀ a ∈ l, a ≤ l.foldr max 0 := by
      intro l
      induction l with
      | nil => simp
      | cons b l ih =>
        intro a ha
        rcases List.mem_cons.1 ha with rfl | ha
        · exact Nat.le_max_left _ _
        · exact Nat.le_trans (ih a ha) (Nat.le_max_right _ _)
    intro ops member
    exact Nat.not_succ_le_self _ (bound _ _ member)

end Pool
