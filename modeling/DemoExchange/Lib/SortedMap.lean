import Mathlib.Order.Defs.Unbundled
import Mathlib.Data.List.Basic

/-!
# Sorted association lists

A map kept as a list of entries sorted by a strict total order on the keys,
the comparator being a parameter (`std::less`, `std::greater`). `upsert` is
the `m[k]` of such a map followed by an update of the entry; `put` and `drop`
write and erase an entry that was found. The lemmas on `put` need no order
and serve unordered maps with unique keys as well.
-/

namespace SortedMap
set_option autoImplicit false

variable {κ β γ : Type}

/-- Apply `f` to the entry at `k`, a new entry starting from `d`. -/
def upsert (r : κ → κ → Prop) [DecidableRel r] (k : κ) (d : β) (f : β → β) : List (κ × β) → List (κ × β)
  | [] => [(k, f d)]
  | (k', b) :: m =>
    if r k k' then (k, f d) :: (k', b) :: m
    else if r k' k then (k', b) :: upsert r k d f m
    else (k', f b) :: m

/-- Overwrite the entry at `k`. -/
def put [DecidableEq κ] (k : κ) (b : β) (m : List (κ × β)) : List (κ × β) :=
  m.map fun x => if x.1 = k then (k, b) else x

/-- Erase the entry at `k`. -/
def drop [DecidableEq κ] (k : κ) (m : List (κ × β)) : List (κ × β) :=
  m.filter fun x => x.1 ≠ k

/-- The keys increase along the list. -/
def Sorted (r : κ → κ → Prop) (m : List (κ × β)) : Prop :=
  m.Pairwise fun x y => r x.1 y.1

section Unordered

variable [DecidableEq κ]

@[simp] theorem keys_put (k : κ) (b : β) (m : List (κ × β)) :
    (put k b m).map Prod.fst = m.map Prod.fst := by
  simp only [put, List.map_map]
  apply List.map_congr_left
  intro x _
  by_cases same : x.1 = k <;> simp [same]

theorem mem_put {k : κ} {b : β} {m : List (κ × β)} {x : κ × β} :
    x ∈ put k b m ↔ (x ∈ m ∧ x.1 ≠ k) ∨ (x = (k, b) ∧ ∃ c, (k, c) ∈ m) := by
  simp only [put, List.mem_map]
  constructor
  · rintro ⟨y, hy, rfl⟩
    by_cases same : y.1 = k
    · exact .inr ⟨by simp [same], y.2, by rw [← same]; exact hy⟩
    · simp only [same, if_false]
      exact .inl ⟨hy, same⟩
  · rintro (⟨hx, ne⟩ | ⟨rfl, c, hc⟩)
    · exact ⟨x, hx, by simp [ne]⟩
    · exact ⟨(k, c), hc, by simp⟩

/-- With unique keys a lookup finds exactly the entry listed. -/
theorem lookup_eq_some {m : List (κ × β)} (unique : (m.map Prod.fst).Nodup) {k : κ} {b : β} :
    m.lookup k = some b ↔ (k, b) ∈ m := by
  induction m with
  | nil => simp
  | cons x m ih =>
    obtain ⟨a, c⟩ := x
    obtain ⟨absent, unique⟩ := List.nodup_cons.1 unique
    by_cases same : k = a
    · subst same
      have no : (k, b) ∉ m := fun h => absent (List.mem_map.2 ⟨_, h, rfl⟩)
      simp [no, eq_comm]
    · simp [List.lookup_cons, beq_false_of_ne same, same, ih unique]

theorem lookup_isSome {m : List (κ × β)} {k : κ} : (m.lookup k).isSome = true ↔ k ∈ m.map Prod.fst := by
  induction m with
  | nil => simp
  | cons x m ih =>
    obtain ⟨a, c⟩ := x
    by_cases same : k = a
    · simp [same]
    · simp [List.lookup_cons, beq_false_of_ne same, same, ih]

end Unordered

theorem Sorted.key_ne {r : κ → κ → Prop} [IsStrictTotalOrder κ r] {m : List (κ × β)} {x : κ × β}
    (h : Sorted r (x :: m)) : ∀ y ∈ m, y.1 ≠ x.1 := by
  intro y hy same
  have := (List.pairwise_cons.1 h).1 y hy
  rw [same] at this
  exact irrefl _ this

theorem Sorted.nodup {r : κ → κ → Prop} [IsStrictTotalOrder κ r] {m : List (κ × β)} (h : Sorted r m) :
    (m.map Prod.fst).Nodup := by
  rw [List.Nodup, List.pairwise_map]
  refine h.imp fun {x y} before same => ?_
  rw [same] at before
  exact irrefl _ before

section Ordered

variable {r : κ → κ → Prop} [DecidableRel r]

/-- The update of a renamed map is the renamed update. -/
theorem upsert_map (g : β → γ) {k : κ} {d : β} {f : β → β} {d' : γ} {f' : γ → γ} (start : g d = d')
    (step : ∀ b, g (f b) = f' (g b)) (m : List (κ × β)) :
    (upsert r k d f m).map (Prod.map id g) = upsert r k d' f' (m.map (Prod.map id g)) := by
  induction m with
  | nil => simp [upsert, step, start]
  | cons x m ih =>
    obtain ⟨a, c⟩ := x
    simp only [upsert, List.map_cons, Prod.map, id]
    split
    · simp [step, start]
    · split <;> simp [step, ih]

variable [IsStrictTotalOrder κ r]

/-- What the updated map holds. -/
theorem mem_upsert {k : κ} {d : β} {f : β → β} {m : List (κ × β)} (sorted : Sorted r m) {x : κ × β} :
    x ∈ upsert r k d f m ↔ (x ∈ m ∧ x.1 ≠ k) ∨
      (x.1 = k ∧ ∃ b, x.2 = f b ∧ ((k, b) ∈ m ∨ (b = d ∧ ∀ y ∈ m, y.1 ≠ k))) := by
  induction m with
  | nil => simp [upsert, Prod.ext_iff]
  | cons e m ih =>
    obtain ⟨a, c⟩ := e
    have below := (List.pairwise_cons.1 sorted).1
    have ih := ih (List.pairwise_cons.1 sorted).2
    simp only [upsert]
    split
    · rename_i before
      have absent : ∀ y ∈ (a, c) :: m, y.1 ≠ k := by
        intro y hy same
        rcases List.mem_cons.1 hy with rfl | hy
        · subst same
          exact irrefl _ before
        · exact irrefl k (IsTrans.trans _ _ _ before (same ▸ below y hy))
      constructor
      · intro hx
        rcases List.mem_cons.1 hx with rfl | hx
        · exact .inr ⟨rfl, d, rfl, .inr ⟨rfl, absent⟩⟩
        · exact .inl ⟨hx, absent x hx⟩
      · rintro (⟨hx, -⟩ | ⟨same, b, value, inside | ⟨rfl, -⟩⟩)
        · exact List.mem_cons_of_mem _ hx
        · exact absurd rfl (absent _ inside)
        · exact List.mem_cons.2 (.inl (Prod.ext same value))
    · split
      · rename_i after
        have ne : a ≠ k := fun same => irrefl _ (same ▸ after : r a a)
        constructor
        · intro hx
          rcases List.mem_cons.1 hx with rfl | hx
          · exact .inl ⟨List.mem_cons_self, ne⟩
          · rcases ih.1 hx with ⟨hx, key⟩ | ⟨key, b, value, inside | ⟨rfl, absent⟩⟩
            · exact .inl ⟨List.mem_cons_of_mem _ hx, key⟩
            · exact .inr ⟨key, b, value, .inl (List.mem_cons_of_mem _ inside)⟩
            · refine .inr ⟨key, b, value, .inr ⟨rfl, ?_⟩⟩
              intro y hy
              rcases List.mem_cons.1 hy with rfl | hy
              · exact ne
              · exact absent y hy
        · rintro (⟨hx, key⟩ | ⟨key, b, value, inside | ⟨rfl, absent⟩⟩)
          · rcases List.mem_cons.1 hx with rfl | hx
            · exact List.mem_cons_self
            · exact List.mem_cons_of_mem _ (ih.2 (.inl ⟨hx, key⟩))
          · have inside : (k, b) ∈ m := by
              rcases List.mem_cons.1 inside with same | inside
              · exact absurd (congrArg Prod.fst same).symm ne
              · exact inside
            exact List.mem_cons_of_mem _ (ih.2 (.inr ⟨key, b, value, .inl inside⟩))
          · exact List.mem_cons_of_mem _
              (ih.2 (.inr ⟨key, b, value, .inr ⟨rfl, fun y hy => absent y (List.mem_cons_of_mem _ hy)⟩⟩))
      · rename_i notBefore notAfter
        have same : a = k := by
          rcases trichotomous_of r a k with h | h | h
          · exact absurd h notAfter
          · exact h
          · exact absurd h notBefore
        subst same
        have others := Sorted.key_ne sorted
        constructor
        · intro hx
          rcases List.mem_cons.1 hx with rfl | hx
          · exact .inr ⟨rfl, c, rfl, .inl List.mem_cons_self⟩
          · exact .inl ⟨List.mem_cons_of_mem _ hx, others x hx⟩
        · rintro (⟨hx, key⟩ | ⟨key, b, value, inside | ⟨-, absent⟩⟩)
          · rcases List.mem_cons.1 hx with rfl | hx
            · exact absurd rfl key
            · exact List.mem_cons_of_mem _ hx
          · rcases List.mem_cons.1 inside with same | inside
            · have : b = c := congrArg Prod.snd same
              exact List.mem_cons.2 (.inl (Prod.ext key (by rw [value, this])))
            · exact absurd rfl (others (a, b) inside)
          · exact absurd rfl (absent _ List.mem_cons_self)

theorem upsert_sorted {k : κ} {d : β} {f : β → β} {m : List (κ × β)} (sorted : Sorted r m) :
    Sorted r (upsert r k d f m) := by
  induction m with
  | nil => exact List.pairwise_singleton _ _
  | cons e m ih =>
    obtain ⟨a, c⟩ := e
    obtain ⟨below, rest⟩ := List.pairwise_cons.1 sorted
    simp only [upsert]
    split
    · rename_i before
      refine List.pairwise_cons.2 ⟨?_, sorted⟩
      intro y hy
      rcases List.mem_cons.1 hy with rfl | hy
      · exact before
      · exact IsTrans.trans _ _ _ before (below y hy)
    · split
      · rename_i after
        refine List.pairwise_cons.2 ⟨?_, ih rest⟩
        intro y hy
        rcases (mem_upsert rest).1 hy with ⟨hy, -⟩ | ⟨key, -⟩
        · exact below y hy
        · rw [key]
          exact after
      · exact List.pairwise_cons.2 ⟨below, rest⟩

/-- The entry written, and the others as they were. -/
theorem lookup_upsert [DecidableEq κ] {k k' : κ} {d : β} {f : β → β} {m : List (κ × β)} (sorted : Sorted r m) :
    (upsert r k d f m).lookup k' = if k' = k then some (f ((m.lookup k).getD d)) else m.lookup k' := by
  have unique := (upsert_sorted sorted (k := k) (d := d) (f := f)).nodup
  split
  · rename_i same
    subst same
    refine (lookup_eq_some unique).2 ((mem_upsert sorted).2 (.inr ⟨rfl, (m.lookup k').getD d, rfl, ?_⟩))
    cases found : m.lookup k' with
    | none =>
      have absent : k' ∉ m.map Prod.fst := fun member => by
        rw [← lookup_isSome, found] at member
        cases member
      exact .inr ⟨rfl, fun y hy same => absent (List.mem_map.2 ⟨y, hy, same⟩)⟩
    | some b => exact .inl ((lookup_eq_some sorted.nodup).1 found)
  · rename_i other
    refine Option.ext fun b => ?_
    rw [lookup_eq_some unique, lookup_eq_some sorted.nodup, mem_upsert sorted]
    simp [other]

end Ordered

theorem put_sorted [DecidableEq κ] {r : κ → κ → Prop} {k : κ} {b : β} {m : List (κ × β)} (sorted : Sorted r m) :
    Sorted r (put k b m) := by
  have keys := sorted
  rw [Sorted, ← List.pairwise_map (f := Prod.fst) (R := r), ← keys_put k b m, List.pairwise_map] at keys
  exact keys

theorem drop_sorted [DecidableEq κ] {r : κ → κ → Prop} {k : κ} {m : List (κ × β)} (sorted : Sorted r m) :
    Sorted r (drop k m) :=
  List.Pairwise.filter _ sorted

end SortedMap
